import ScriptLang.Proofs.Typing.Run

/-!
# Leaving loops and functions

A `break`, a `continue` or a `return` is an exit (`Exit`), and it stands at a
place of the statement around it (`Stmt.Has`): inside of a function that the
statement declares or not, and inside of a loop of the same function or not.
The two flags of a check judge exits only. Checking under given flags is the
same as checking under both flags, together with a condition on the exits that
stand outside of inner functions (`Stmt.Legal`), and this condition is about the
syntax alone.

Conditional statements are never looked into, so exits inside of them have no
place here.

## Main results

* `checkStmt_guarded` : checking under flags, and checking under both.
* `control_flow_legality` : the same for runs, and the places of the exits of an
  accepted program.
-/

namespace ScriptLang

open Checker

/-! ## Exits and their places -/

/-- What leaves a loop or a function. -/
inductive Exit
  | control (word : LoopControl)
  | returns

/-- Whether an exit may stand where there is a loop, or a function, to leave. -/
def Exit.Allowed (inLoop inFunction : Bool) : Exit → Prop
  | .control _ => inLoop = true
  | .returns => inFunction = true

/-- Where something stands inside of a statement. It stands in a loop only if no
function declaration is between the two. -/
structure Place where
  inFunction : Bool
  inLoop : Bool

namespace Place

/-- The place of a statement itself. -/
def itself : Place := ⟨false, false⟩

/-- The same place, seen from a loop around. -/
def throughLoop (place : Place) : Place :=
  { place with inLoop := place.inLoop || !place.inFunction }

/-- The same place, seen from a function declaration around. -/
def throughFunction (place : Place) : Place := { place with inFunction := true }

end Place

/-- An exit stands at a place inside of a statement, outside of the conditional
statements in it. -/
inductive Stmt.Has : Stmt → Place → Exit → Prop
  | control {word : LoopControl} : Has (.control word) .itself (.control word)
  | returns {value : Expr} : Has (.returns value) .itself .returns
  | forIn {name : String} {source : Expr} {body : List Stmt} {s : Stmt} {place : Place}
      {exit : Exit} (hMember : s ∈ body) (hHas : Has s place exit) :
      Has (.forIn name source body) place.throughLoop exit
  | whileLoop {condition : Expr} {body : List Stmt} {s : Stmt} {place : Place} {exit : Exit}
      (hMember : s ∈ body) (hHas : Has s place exit) :
      Has (.whileLoop condition body) place.throughLoop exit
  | block {body : List Stmt} {s : Stmt} {place : Place} {exit : Exit} (hMember : s ∈ body)
      (hHas : Has s place exit) : Has (.block body) place exit
  | function {name : String} {parameters : List (String × Ty)} {result : Ty} {body : List Stmt}
      {s : Stmt} {place : Place} {exit : Exit} (hMember : s ∈ body) (hHas : Has s place exit) :
      Has (.function name parameters result body) place.throughFunction exit

/-- The exits of a statement outside of the functions in it have what they leave:
a loop of the statement, or what the flags promise around it. -/
def Stmt.Legal (loopOk returnOk : Bool) (s : Stmt) : Prop :=
  ∀ place exit, s.Has place exit → place.inFunction = false →
    exit.Allowed (loopOk || place.inLoop) returnOk

variable {loopOk returnOk : Bool} {place : Place} {exit : Exit} {body : List Stmt} {s : Stmt}

/-- Seen from a loop, what stands outside of functions stands in a loop. -/
theorem Exit.allowed_throughLoop (hOutside : place.inFunction = false) :
    exit.Allowed (loopOk || place.throughLoop.inLoop) returnOk ↔
      exit.Allowed (true || place.inLoop) returnOk := by
  rw [Place.throughLoop, hOutside, Bool.not_false, Bool.or_true, Bool.or_true, Bool.true_or]

/-- What is inside of a loop may leave it. -/
theorem legal_loop
    (hLoop : ∀ place exit, s.Has place exit ↔
      ∃ member ∈ body, ∃ inner, member.Has inner exit ∧ place = inner.throughLoop) :
    s.Legal loopOk returnOk ↔ ∀ member ∈ body, member.Legal true returnOk := by
  constructor
  · intro h member hMember inner exit hHas hOutside
    have hWhole : s.Has inner.throughLoop exit :=
      (hLoop _ exit).2 ⟨member, hMember, inner, hHas, rfl⟩
    exact (Exit.allowed_throughLoop hOutside).1 (h _ exit hWhole hOutside)
  · intro h place exit hHas hOutside
    obtain ⟨member, hMember, inner, hInside, rfl⟩ := (hLoop place exit).1 hHas
    have hInner : inner.inFunction = false := hOutside
    exact (Exit.allowed_throughLoop hInner).2 (h member hMember inner exit hInside hInner)

theorem legal_forIn {name : String} {source : Expr} :
    (Stmt.forIn name source body).Legal loopOk returnOk ↔ ∀ s ∈ body, s.Legal true returnOk := by
  apply legal_loop
  intro place exit
  constructor
  · rintro ⟨⟩
    exact ⟨_, ‹_›, _, ‹_›, rfl⟩
  · rintro ⟨member, hMember, inner, hHas, rfl⟩
    exact .forIn hMember hHas

theorem legal_whileLoop {condition : Expr} :
    (Stmt.whileLoop condition body).Legal loopOk returnOk ↔
      ∀ s ∈ body, s.Legal true returnOk := by
  apply legal_loop
  intro place exit
  constructor
  · rintro ⟨⟩
    exact ⟨_, ‹_›, _, ‹_›, rfl⟩
  · rintro ⟨member, hMember, inner, hHas, rfl⟩
    exact .whileLoop hMember hHas

theorem legal_block :
    (Stmt.block body).Legal loopOk returnOk ↔ ∀ s ∈ body, s.Legal loopOk returnOk := by
  constructor
  · intro h s hMember place exit hHas
    exact h place exit (.block hMember hHas)
  · intro h place exit hHas
    cases hHas with
    | block hMember hHas => exact h _ hMember place exit hHas

theorem legal_control {word : LoopControl} :
    (Stmt.control word).Legal loopOk returnOk ↔ loopOk = true := by
  constructor
  · intro h
    simpa [Place.itself, Exit.Allowed] using h _ _ .control rfl
  · rintro rfl place exit hHas -
    cases hHas
    rfl

theorem legal_returns {value : Expr} :
    (Stmt.returns value).Legal loopOk returnOk ↔ returnOk = true := by
  constructor
  · intro h
    exact h _ _ .returns rfl
  · rintro rfl place exit hHas -
    cases hHas
    rfl

/-- The exits of a function declaration are all inside of the function. -/
theorem legal_function {name : String} {parameters : List (String × Ty)} {result : Ty} :
    (Stmt.function name parameters result body).Legal loopOk returnOk := by
  intro place exit hHas hOutside
  cases hHas
  exact absurd hOutside nofun

/-! ## Checkers under a condition -/

namespace Checker

variable {α β : Type} {p q : Checker α} {f g : α → Checker β} {c d : Prop}

/-- The first checker succeeds where the second does and the condition holds,
with the same result and the same session. -/
def Guarded (p q : Checker α) (c : Prop) : Prop :=
  ∀ session a left, p session = .ok a left ↔ q session = .ok a left ∧ c

namespace Guarded

theorem same (p : Checker α) (h : c) : Guarded p p c :=
  fun _ _ _ => ⟨fun hRun => ⟨hRun, h⟩, fun hRun => hRun.1⟩

/-- Where the condition fails, and the first checker always does. -/
theorem fails (hp : ∀ session a left, p session ≠ .ok a left) (h : ¬ c) : Guarded p q c :=
  fun session a left => ⟨fun hRun => absurd hRun (hp session a left), fun hRun => absurd hRun.2 h⟩

theorem throw (e : TypeError) : Guarded (MonadExcept.throw e) (MonadExcept.throw e : Checker α) c :=
  fun _ _ _ => ⟨nofun, nofun⟩

theorem congr (hp : Guarded p q c) (h : c ↔ d) : Guarded p q d :=
  fun session a left => by rw [← h, hp session a left]

theorem bind (hp : Guarded p q c) (hf : ∀ a, Guarded (f a) (g a) d) :
    Guarded (p >>= f) (q >>= g) (c ∧ d) := by
  intro session b left
  rw [bind_eq_ok, bind_eq_ok]
  constructor
  · rintro ⟨a, mid, hFirst, hRest⟩
    obtain ⟨hFirst, hc⟩ := (hp session a mid).1 hFirst
    obtain ⟨hRest, hd⟩ := (hf a mid b left).1 hRest
    exact ⟨⟨a, mid, hFirst, hRest⟩, hc, hd⟩
  · rintro ⟨⟨a, mid, hFirst, hRest⟩, hc, hd⟩
    exact ⟨a, mid, (hp session a mid).2 ⟨hFirst, hc⟩, (hf a mid b left).2 ⟨hRest, hd⟩⟩

/-- Where only the rest is guarded. -/
theorem behind (hf : ∀ a, Guarded (f a) (g a) c) : Guarded (p >>= f) (p >>= g) c :=
  ((same p trivial).bind hf).congr (.of_eq (true_and c))

/-- Where only the beginning is guarded. -/
theorem before (hp : Guarded p q c) : Guarded (p >>= f) (q >>= f) c :=
  (hp.bind fun a => same (f a) trivial).congr (.of_eq (and_true c))

end Guarded

end Checker

/-- Outside of functions nothing is returned, whatever function is being checked. -/
theorem expectedResult_bind_ne_ok {f : Ty → Checker Environment} (session : Session)
    (env : Environment) (left : Session) :
    (expectedResult false >>= f) session ≠ .ok env left := by
  intro hRun
  obtain ⟨result, mid, hExpected, -⟩ := bind_eq_ok.1 hRun
  exact absurd hExpected nofun

mutual

/-- Checking a statement under flags is checking it under both, if its exits are
legal under the flags. -/
theorem checkStmt_guarded : ∀ (s : Stmt) (env : Environment) (loopOk returnOk : Bool),
    Guarded (checkStmt env loopOk returnOk s) (checkStmt env true true s)
      (s.Legal loopOk returnOk)
  | .forIn _ _ body, env, _, returnOk =>
    (Guarded.behind fun _ => .behind fun _ =>
      .before (checkBlock_guarded body _ true returnOk)).congr legal_forIn.symm
  | .whileLoop _ body, env, _, returnOk =>
    (Guarded.behind fun _ => .behind fun _ =>
      .before (checkBlock_guarded body env true returnOk)).congr legal_whileLoop.symm
  | .block body, env, loopOk, returnOk =>
    (Guarded.before (checkBlock_guarded body env loopOk returnOk)).congr legal_block.symm
  | .control word, env, loopOk, _ => by
    cases loopOk with
    | true => exact .same _ (legal_control.2 rfl)
    | false => exact .fails nofun (by rw [legal_control]; exact nofun)
  | .returns value, env, _, returnOk => by
    cases returnOk with
    | true => exact .same _ (legal_returns.2 rfl)
    | false => exact .fails expectedResult_bind_ne_ok (by rw [legal_returns]; exact nofun)
  | .function _ _ _ _, _, _, _ => .same _ legal_function
  | .assign _ _ _ true _, _, _, _ | .assign _ _ _ false _, _, _, _ | .declare _ _ _, _, _, _
  | .compound _ _ _, _, _, _ | .ifThen _ _, _, _, _ | .ifElse _ _ _, _, _, _
  | .call _ _, _, _, _ | .step _ _ _, _, _, _ | .output _ _, _, _, _ =>
    .same _ fun _ _ hHas => nomatch hHas

theorem checkBlock_guarded : ∀ (body : List Stmt) (env : Environment) (loopOk returnOk : Bool),
    Guarded (checkBlock env loopOk returnOk body) (checkBlock env true true body)
      (∀ s ∈ body, s.Legal loopOk returnOk)
  | [], env, _, _ => .same _ nofun
  | s :: rest, env, loopOk, returnOk => by
    cases hDeclares : s.declaration? with
    | none =>
        rw [checkBlock_cons hDeclares, checkBlock_cons hDeclares, List.forall_mem_cons]
        exact (checkStmt_guarded s env loopOk returnOk).bind fun mid =>
          checkBlock_guarded rest mid loopOk returnOk
    | some f =>
        rw [checkBlock_declaration hDeclares, checkBlock_declaration hDeclares]
        exact .throw (.nestedFunction f.name)

end

/-! ## Accepted statements -/

/-- The statement is accepted under the flags, in some session and environment. -/
def Stmt.Accepted (loopOk returnOk : Bool) (s : Stmt) : Prop :=
  ∃ session left env env', checkStmt env loopOk returnOk s session = .ok env' left

theorem Stmt.Accepted.legal (h : s.Accepted loopOk returnOk) : s.Legal loopOk returnOk := by
  obtain ⟨session, left, env, env', hRun⟩ := h
  exact ((checkStmt_guarded s env loopOk returnOk session env' left).1 hRun).2

/-- Every member of an accepted block is accepted. -/
theorem checkBlock_members (body : List Stmt) : ∀ (env : Environment) (loopOk returnOk : Bool),
    (checkBlock env loopOk returnOk body).Yields fun _ =>
      ∀ s ∈ body, s.Accepted loopOk returnOk := by
  induction body with
  | nil => exact fun env _ _ => .pure nofun
  | cons s rest ih =>
      intro env loopOk returnOk
      cases hDeclares : s.declaration? with
      | none =>
          rw [checkBlock_cons hDeclares]
          intro session left env' hRun
          obtain ⟨mid, between, hFirst, hRest⟩ := bind_eq_ok.1 hRun
          have hHead : s.Accepted loopOk returnOk := ⟨session, between, env, mid, hFirst⟩
          exact List.forall_mem_cons.2 ⟨hHead, ih mid loopOk returnOk hRest⟩
      | some f =>
          rw [checkBlock_declaration hDeclares]
          exact .throw (.nestedFunction f.name)

/-- So is every member of an accepted program, outside of loops and functions. -/
theorem checkTopLevel_members (p : Program) : ∀ env : Environment,
    (checkTopLevel env p).Yields fun _ => ∀ s ∈ p, s.Accepted false false := by
  induction p with
  | nil => exact fun env => .pure nofun
  | cons s rest ih =>
      intro env
      rw [checkTopLevel_cons]
      intro session left env' hRun
      obtain ⟨mid, between, hFirst, hRest⟩ := bind_eq_ok.1 hRun
      have hHead : s.Accepted false false := ⟨session, between, env, mid, hFirst⟩
      exact List.forall_mem_cons.2 ⟨hHead, ih mid hRest⟩

namespace Stmt.Accepted

theorem forIn {name : String} {source : Expr}
    (h : (Stmt.forIn name source body).Accepted loopOk returnOk) :
    ∀ s ∈ body, s.Accepted true returnOk := by
  obtain ⟨session, left, env, env', hRun⟩ := h
  rw [checkStmt] at hRun
  exact Yields.behind (fun _ => .behind fun _ =>
    .before (checkBlock_members body _ true returnOk)) hRun

theorem whileLoop {condition : Expr}
    (h : (Stmt.whileLoop condition body).Accepted loopOk returnOk) :
    ∀ s ∈ body, s.Accepted true returnOk := by
  obtain ⟨session, left, env, env', hRun⟩ := h
  rw [checkStmt] at hRun
  exact Yields.behind (fun _ => .behind fun _ =>
    .before (checkBlock_members body _ true returnOk)) hRun

theorem block (h : (Stmt.block body).Accepted loopOk returnOk) :
    ∀ s ∈ body, s.Accepted loopOk returnOk := by
  obtain ⟨session, left, env, env', hRun⟩ := h
  rw [checkStmt] at hRun
  exact Yields.before (checkBlock_members body env loopOk returnOk) hRun

/-- The body of a function is checked with a function to leave, and no loop. -/
theorem function {name : String} {parameters : List (String × Ty)} {result : Ty}
    (h : (Stmt.function name parameters result body).Accepted loopOk returnOk) :
    ∀ s ∈ body, s.Accepted false true := by
  obtain ⟨session, left, env, env', hRun⟩ := h
  rw [checkStmt] at hRun
  exact Yields.behind (fun _ => .behind fun inner =>
    .before (.within (checkBlock_members body inner false true) result)) hRun

end Stmt.Accepted

/-- In an accepted statement, the exits inside of functions leave something of
their function. Under a function declaration, an exit that stands outside of
inner functions is judged by the flags of the body. -/
theorem Stmt.Has.allowed_inFunction (hHas : s.Has place exit) :
    ∀ {loopOk returnOk : Bool}, s.Accepted loopOk returnOk → place.inFunction = true →
      exit.Allowed place.inLoop true := by
  induction hHas with
  | control => exact fun _ hInside => absurd hInside nofun
  | returns => exact fun _ hInside => absurd hInside nofun
  | @forIn _ _ _ s place exit hMember _ ih =>
      intro loopOk returnOk hAccepted hInside
      have hInner : place.inFunction = true := hInside
      rw [Place.throughLoop, hInner, Bool.not_true, Bool.or_false]
      exact ih (hAccepted.forIn s hMember) hInner
  | @whileLoop _ _ s place exit hMember _ ih =>
      intro loopOk returnOk hAccepted hInside
      have hInner : place.inFunction = true := hInside
      rw [Place.throughLoop, hInner, Bool.not_true, Bool.or_false]
      exact ih (hAccepted.whileLoop s hMember) hInner
  | @block _ s place exit hMember _ ih =>
      intro loopOk returnOk hAccepted hInside
      exact ih (hAccepted.block s hMember) hInside
  | @function _ _ _ _ s place exit hMember hHas ih =>
      intro loopOk returnOk hAccepted _
      have hBody : s.Accepted false true := hAccepted.function s hMember
      cases hInner : place.inFunction with
      | true => exact ih hBody hInner
      | false =>
          have hLegal := hBody.legal place exit hHas hInner
          rwa [Bool.false_or] at hLegal

theorem checkProgram_of_typeCheck {p : Program} {env : Environment} (h : typeCheck p = .ok env) :
    ∃ left, checkProgram p .empty = .ok env left := by
  rw [typeCheck, eval] at h
  split at h
  · next left hRun =>
      cases h
      exact ⟨left, hRun⟩
  · exact absurd h nofun

/-! ## Legal control flow -/

/-- The flags of a check mean a condition on the syntax: under them a statement
is accepted as it is under both flags, in the same way, where its exits are
legal. So in an accepted program every `break` and `continue` stands in a loop
of the same function, or of the top level, and every `return` in a function. -/
theorem control_flow_legality :
    (∀ (session left : Session) (env env' : Environment) (loopOk returnOk : Bool) (s : Stmt),
      checkStmt env loopOk returnOk s session = .ok env' left ↔
        checkStmt env true true s session = .ok env' left ∧ s.Legal loopOk returnOk) ∧
    (∀ (p : Program) (env : Environment), typeCheck p = .ok env → ∀ s ∈ p,
      ∀ (place : Place) (exit : Exit), s.Has place exit →
        exit.Allowed place.inLoop place.inFunction) := by
  refine ⟨fun session left env env' loopOk returnOk s =>
    checkStmt_guarded s env loopOk returnOk session env' left, ?_⟩
  intro p env hRun s hMember place exit hHas
  obtain ⟨left, hRun⟩ := checkProgram_of_typeCheck hRun
  have hAccepted : s.Accepted false false := checkTopLevel_members p .empty hRun s hMember
  cases hInside : place.inFunction with
  | true => exact hHas.allowed_inFunction hAccepted hInside
  | false =>
      have hLegal := hAccepted.legal place exit hHas hInside
      rwa [Bool.false_or] at hLegal

/-- The statements `fun first(): Int { while (true) { break }; return 1 }` and
`for (i in 1..2) { continue }`. -/
def leavingLoops : Program :=
  [.function "first" [] .int
      [.whileLoop (.boolean true) [.control .break], .returns (.int 1)],
    .forIn "i" (.range (.int 1) (.int 2)) [.control .continue]]

/-- Their exits all have something to leave. -/
theorem exits_of_leavingLoops :
    typeCheck leavingLoops = .ok .empty ∧
      ∀ s ∈ leavingLoops, ∀ (place : Place) (exit : Exit), s.Has place exit →
        exit.Allowed place.inLoop place.inFunction :=
  ⟨rfl, control_flow_legality.2 leavingLoops .empty rfl⟩

end ScriptLang
