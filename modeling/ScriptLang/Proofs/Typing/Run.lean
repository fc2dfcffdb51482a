import ScriptLang.Typing.Checking

/-!
# Runs of checkers

How a run of a checker goes on from one step to the next: what follows a step
that succeeds or fails, and what follows the first statement of a block and of
a program. `Checker.Yields` says of what holds whenever a checker succeeds.
-/

namespace ScriptLang

namespace Checker

variable {α β : Type} {p : Checker α}

theorem bind_of_ok {f : α → Checker β} {a : α} {session left : Session}
    (h : p session = .ok a left) : (p >>= f) session = f a left := by
  show EStateM.bind p f session = _
  rw [EStateM.bind, h]

theorem bind_of_error {f : α → Checker β} {e : TypeError} {session left : Session}
    (h : p session = .error e left) : (p >>= f) session = .error e left := by
  show EStateM.bind p f session = _
  rw [EStateM.bind, h]

theorem bind_eq_ok {f : α → Checker β} {b : β} {session left : Session} :
    (p >>= f) session = .ok b left ↔ ∃ a mid, p session = .ok a mid ∧ f a mid = .ok b left := by
  cases hRun : p session with
  | ok a mid =>
      rw [bind_of_ok hRun]
      constructor
      · exact fun h => ⟨a, mid, rfl, h⟩
      · rintro ⟨_, _, ⟨⟩, h⟩
        exact h
  | error e mid =>
      rw [bind_of_error hRun]
      constructor
      · nofun
      · rintro ⟨_, _, ⟨⟩, _⟩

theorem ofExcept_eq_ok {x : Except TypeError α} {a : α} {session left : Session} :
    ofExcept x session = .ok a left ↔ x = .ok a ∧ session = left := by
  cases x <;> simp [ofExcept]

theorem infer_eq_ok {rule : SignatureTable → Except TypeError α} {a : α}
    {session left : Session} :
    infer rule session = .ok a left ↔ rule session.functions = .ok a ∧ session = left := by
  rw [infer, ofExcept_eq_ok]

theorem infer_of_error {rule : SignatureTable → Except TypeError α} {e : TypeError}
    {session : Session} (h : rule session.functions = .error e) :
    infer rule session = .error e session := by
  rw [infer, h]
  rfl

theorem infer_bind (first : SignatureTable → Except TypeError α)
    (next : SignatureTable → α → Except TypeError β) :
    infer (fun table => first table >>= next table) =
      (infer first >>= fun a => infer fun table => next table a) := by
  funext session
  show ofExcept (first session.functions >>= next session.functions) session = _
  cases hFirst : first session.functions with
  | error e =>
      rw [bind_of_error (infer_of_error hFirst)]
      rfl
  | ok a =>
      rw [bind_of_ok (infer_eq_ok.2 ⟨hFirst, rfl⟩)]
      rfl

/-- A `return` needs a function around it, whose result type it is to give. -/
theorem expectedResult_eq_ok {returnOk : Bool} {ty : Ty} {session left : Session} :
    expectedResult returnOk session = .ok ty left ↔
      returnOk = true ∧ session.results.head? = some ty ∧ session = left := by
  obtain ⟨functions, results⟩ := session
  cases returnOk with
  | false => simp [expectedResult]
  | true => cases results <;> simp [expectedResult]

/-- What runs inside of a function sees the functions that are declared around. -/
theorem within_eq_ok {result : Ty} {a : α} {session left : Session}
    (h : within result p session = .ok a left) :
    ∃ mid, p { session with results := result :: session.results } = .ok a mid := by
  rw [within] at h
  split at h
  · next mid hInside =>
      cases h
      exact ⟨mid, hInside⟩
  · cases h

variable {P : α → Prop} {Q : β → Prop}

/-- The checker gives only results of which `P` holds. It may also fail. -/
def Yields (p : Checker α) (P : α → Prop) : Prop :=
  ∀ ⦃session left : Session⦄ ⦃a : α⦄, p session = .ok a left → P a

namespace Yields

theorem pure {a : α} (h : P a) : Yields (Pure.pure a) P := by
  rintro session _ _ ⟨⟩
  exact h

theorem throw (e : TypeError) : Yields (MonadExcept.throw e) P := nofun

theorem ofExcept {x : Except TypeError α} (h : ∀ a, x = .ok a → P a) :
    Yields (Checker.ofExcept x) P :=
  fun _ _ a hRun => h a (ofExcept_eq_ok.1 hRun).1

theorem infer {f : SignatureTable → Except TypeError α} (h : ∀ table a, f table = .ok a → P a) :
    Yields (Checker.infer f) P :=
  fun session _ _ hRun => ofExcept (h session.functions) hRun

theorem bind {f : α → Checker β} (hp : Yields p P) (hf : ∀ a, P a → Yields (f a) Q) :
    Yields (p >>= f) Q := by
  intro session left b hRun
  obtain ⟨a, mid, hFirst, hRest⟩ := bind_eq_ok.1 hRun
  exact hf a (hp hFirst) hRest

/-- Where it does not matter what comes first. -/
theorem behind {f : α → Checker β} (hf : ∀ a, Yields (f a) Q) : Yields (p >>= f) Q :=
  bind (P := fun _ => True) (fun _ _ _ _ => trivial) fun a _ => hf a

/-- What the first success alone shows. -/
theorem before {f : α → Checker β} {c : Prop} (hp : Yields p fun _ => c) :
    Yields (p >>= f) fun _ => c :=
  bind hp fun _ hc _ _ _ _ => hc

theorem within (hp : Yields p P) (result : Ty) : Yields (Checker.within result p) P := by
  intro session left a hRun
  obtain ⟨mid, hInside⟩ := within_eq_ok hRun
  exact hp hInside

end Yields

end Checker

variable {s : Stmt} {f : FunctionDecl}

/-! ## Declarations of functions -/

/-- The function that a statement declares. -/
def Stmt.declaration? : Stmt → Option FunctionDecl
  | .function name parameters result body => some ⟨name, parameters, result, body⟩
  | _ => none

theorem Stmt.declaration?_eq_some (h : s.declaration? = some f) : s = f.toStmt := by
  cases s with
  | function name parameters result body =>
      cases h
      rfl
  | _ => simp [declaration?] at h

/-! ## Blocks and programs -/

theorem checkBlock_cons (h : s.declaration? = none) (rest : List Stmt)
    (env : Environment) (loopOk returnOk : Bool) :
    checkBlock env loopOk returnOk (s :: rest) =
      checkStmt env loopOk returnOk s >>= fun env => checkBlock env loopOk returnOk rest := by
  rw [checkBlock]
  rintro name parameters result body rfl
  exact absurd h nofun

/-- A block that comes to a function declaration fails. -/
theorem checkBlock_declaration (h : s.declaration? = some f) (rest : List Stmt)
    (env : Environment) (loopOk returnOk : Bool) :
    checkBlock env loopOk returnOk (s :: rest) = throw (.nestedFunction f.name) := by
  rw [Stmt.declaration?_eq_some h, FunctionDecl.toStmt, checkBlock]

theorem checkBlock_singleton (h : s.declaration? = none) (env : Environment)
    (loopOk returnOk : Bool) :
    checkBlock env loopOk returnOk [s] = checkStmt env loopOk returnOk s := by
  rw [checkBlock_cons h]
  exact bind_pure _

theorem checkBlock_append (body : List Stmt) : ∀ (env : Environment) (loopOk returnOk : Bool)
    (later : List Stmt), checkBlock env loopOk returnOk (body ++ later) =
      checkBlock env loopOk returnOk body >>= fun env => checkBlock env loopOk returnOk later := by
  induction body with
  | nil => exact fun _ _ _ _ => rfl
  | cons s rest ih =>
      intro env loopOk returnOk later
      rw [List.cons_append]
      cases hDeclares : s.declaration? with
      | none =>
          rw [checkBlock_cons hDeclares, checkBlock_cons hDeclares, bind_assoc]
          exact bind_congr fun behind => ih behind loopOk returnOk later
      | some f =>
          rw [checkBlock_declaration hDeclares, checkBlock_declaration hDeclares]
          rfl

theorem checkTopLevel_cons (env : Environment) (s : Stmt) (p : Program) :
    checkTopLevel env (s :: p) =
      checkStmt env false false s >>= fun env => checkTopLevel env p := by
  rw [checkTopLevel, List.foldlM_cons]
  rfl

theorem checkTopLevel_singleton (env : Environment) (s : Stmt) :
    checkTopLevel env [s] = checkStmt env false false s := by
  rw [checkTopLevel_cons]
  exact bind_pure _

theorem checkTopLevel_append (env : Environment) (p q : Program) :
    checkTopLevel env (p ++ q) = checkTopLevel env p >>= fun env => checkTopLevel env q := by
  rw [checkTopLevel, List.foldlM_append]
  rfl

variable {env env' : Environment} {p : Program} {session left : Session} {e : TypeError}

theorem checkTopLevel_behind (h : checkTopLevel env p session = .ok env' left) (q : Program) :
    checkTopLevel env (p ++ q) session = checkTopLevel env' q left := by
  rw [checkTopLevel_append, Checker.bind_of_ok h]

/-- What stands behind a failing program is not looked at. -/
theorem checkTopLevel_behind_error (h : checkTopLevel env p session = .error e left)
    (q : Program) : checkTopLevel env (p ++ q) session = .error e left := by
  rw [checkTopLevel_append, Checker.bind_of_error h]

end ScriptLang
