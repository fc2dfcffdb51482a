import ScriptLang.Proofs.Typing.Shorthands

/-!
# Programs without shorthands

`expandedBlock` spells out the shorthands of a whole block or program, those in loops
and functions too. Spelling out changes no verdict: the checker accepts the expansion
exactly if it accepts the program, with the same environment behind it. Where it
refuses the operands of a compound assignment, it refuses them in the expansion under
the name of the arithmetic.

A statement can stand for several, so it is compared with a block. And a run over the
expansion goes through other sessions: the functions that it declares have other
bodies. But inference looks at nothing but the results of functions, and the
signature of a function stays the same. So `Checker.Expands` compares a run in a
session with a run in the expansion of that session, and is closed under what
checkers are built from.

## Main results

* `expandedBlock_expandedBlock` : no shorthand is left behind.
* `checkTopLevel_expanded` : a program and its expansion, in every session.
* `typeCheck_expanded` : the verdicts.
-/

namespace ScriptLang

open Checker

variable {table : SignatureTable} {env : Environment}

/-! ## Spelling out -/

/-- The declaration or assignment, with a declaration `var a: T = e` spelled out
where that is possible. -/
def spelledAssign (name : String) (value : Expr) : (ty? : Option Ty) → (isNew readOnly : Bool) →
    List Stmt
  | some ty, true, false =>
    if name ∈ value.freeNames then [.assign name value (some ty) true false]
    else [.declare name (some ty) false, .assign name value none false false]
  | ty?, isNew, readOnly => [.assign name value ty? isNew readOnly]

mutual

/-- The statements that a statement stands for, with the shorthands inside of it
spelled out too. -/
def Stmt.expanded : Stmt → List Stmt
  | .declare name ty? readOnly => [.declare name ty? readOnly]
  | .assign name value ty? isNew readOnly => spelledAssign name value ty? isNew readOnly
  | .compound name op value => [op.assignment name value]
  | .ifThen condition thenBlock => [.ifThen condition (expandedBlock thenBlock)]
  | .ifElse condition thenBlock elseBlock =>
    [.ifElse condition (expandedBlock thenBlock) (expandedBlock elseBlock)]
  | .forIn name source body => [.forIn name source (expandedBlock body)]
  | .whileLoop condition body => [.whileLoop condition (expandedBlock body)]
  | .block body => [.block (expandedBlock body)]
  | .control word => [.control word]
  | .function name parameters result body =>
    [.function name parameters result (expandedBlock body)]
  | .returns value => [.returns value]
  | .call callee arguments => [.call callee arguments]
  | .step name op before => [.step name op before]
  | .output form value => [.output form value]

/-- A block with all shorthands in it spelled out. -/
def expandedBlock : List Stmt → List Stmt
  | [] => []
  | s :: rest => s.expanded ++ expandedBlock rest

end

theorem expandedBlock_singleton (s : Stmt) : expandedBlock [s] = s.expanded := by
  rw [expandedBlock, expandedBlock, List.append_nil]

theorem expandedBlock_append (body later : List Stmt) :
    expandedBlock (body ++ later) = expandedBlock body ++ expandedBlock later := by
  induction body with
  | nil => rfl
  | cons s rest ih => rw [List.cons_append, expandedBlock, expandedBlock, ih, List.append_assoc]

theorem expandedBlock_spelledAssign (name : String) (value : Expr) (ty? : Option Ty)
    (isNew readOnly : Bool) :
    expandedBlock (spelledAssign name value ty? isNew readOnly) =
      spelledAssign name value ty? isNew readOnly := by
  rw [spelledAssign.eq_def]
  split
  · by_cases hName : name ∈ value.freeNames
    · rw [if_pos hName, expandedBlock_singleton, Stmt.expanded, spelledAssign, if_pos hName]
    · rw [if_neg hName]
      rfl
  · next hOther =>
      rw [expandedBlock_singleton, Stmt.expanded, spelledAssign]
      exact hOther

mutual

theorem Stmt.expandedBlock_expanded : ∀ s : Stmt, expandedBlock s.expanded = s.expanded
  | .declare _ _ _ => rfl
  | .assign name value ty? isNew readOnly => by
    rw [Stmt.expanded, expandedBlock_spelledAssign]
  | .compound _ _ _ => rfl
  | .ifThen _ thenBlock => by
    rw [Stmt.expanded, expandedBlock_singleton, Stmt.expanded,
      expandedBlock_expandedBlock thenBlock]
  | .ifElse _ thenBlock elseBlock => by
    rw [Stmt.expanded, expandedBlock_singleton, Stmt.expanded,
      expandedBlock_expandedBlock thenBlock, expandedBlock_expandedBlock elseBlock]
  | .forIn _ _ body => by
    rw [Stmt.expanded, expandedBlock_singleton, Stmt.expanded, expandedBlock_expandedBlock body]
  | .whileLoop _ body => by
    rw [Stmt.expanded, expandedBlock_singleton, Stmt.expanded, expandedBlock_expandedBlock body]
  | .block body => by
    rw [Stmt.expanded, expandedBlock_singleton, Stmt.expanded, expandedBlock_expandedBlock body]
  | .control _ => rfl
  | .function _ _ _ body => by
    rw [Stmt.expanded, expandedBlock_singleton, Stmt.expanded, expandedBlock_expandedBlock body]
  | .returns _ => rfl
  | .call _ _ => rfl
  | .step _ _ _ => rfl
  | .output _ _ => rfl

/-- A block that is spelled out has no shorthands left to spell out. -/
theorem expandedBlock_expandedBlock : ∀ body : List Stmt,
    expandedBlock (expandedBlock body) = expandedBlock body
  | [] => rfl
  | s :: rest => by
    rw [expandedBlock, expandedBlock_append, s.expandedBlock_expanded,
      expandedBlock_expandedBlock rest]

end

/-- No statement but a function declaration stands for one. -/
theorem Stmt.expanded_declares_nothing {s : Stmt} (h : s.declaration? = none) :
    ∀ t ∈ s.expanded, t.declaration? = none := by
  cases s with
  | assign name value ty? isNew readOnly =>
      rw [expanded, spelledAssign.eq_def]
      split
      · split <;> simp [declaration?]
      · simp [declaration?]
  | function _ _ _ _ => simp [declaration?] at h
  | _ => simp [expanded, declaration?, CompoundOp.assignment]

/-! ## Expanded sessions -/

/-- The function with the shorthands in its body spelled out. -/
def FunctionDecl.expanded (f : FunctionDecl) : FunctionDecl :=
  { f with body := expandedBlock f.body }

theorem FunctionDecl.toStmt_expanded (f : FunctionDecl) :
    f.toStmt.expanded = [f.expanded.toStmt] := by
  rw [toStmt, Stmt.expanded]
  rfl

/-- The table with all of its functions spelled out. -/
def SignatureTable.expanded (table : SignatureTable) : SignatureTable :=
  ⟨table.entries.map fun (signature, f) => (signature, f.expanded)⟩

/-- The session after the same declarations with the shorthands in them spelled out. -/
def Session.expanded (session : Session) : Session :=
  { session with functions := session.functions.expanded }

namespace SignatureTable

theorem get?_expanded (table : SignatureTable) (signature : Signature) :
    table.expanded.get? signature = (table.get? signature).map FunctionDecl.expanded := by
  rw [get?, get?, expanded, List.find?_map, Option.map_map, Option.map_map]
  rfl

theorem contains_expanded (table : SignatureTable) (signature : Signature) :
    table.expanded.contains signature = table.contains signature := by
  rw [contains, contains, get?_expanded, Option.isSome_map]

/-- Whatever is mentioned, it means the same with the functions spelled out. -/
theorem agrees_expanded (table : SignatureTable) (env : Environment) (m : Mention) :
    m.Agrees table.expanded table env env where
  as_variable _ := rfl
  as_function _ types := by
    rw [get?_expanded, Option.map_map]
    rfl

theorem declare_expanded (table : SignatureTable) (f : FunctionDecl) :
    table.expanded.declare f.expanded = expanded <$> table.declare f := by
  rw [declare, declare]
  show (if table.expanded.contains f.signature then _ else _) = _
  rw [contains_expanded]
  by_cases hTaken : table.contains f.signature = true
  · rw [if_pos hTaken, if_pos hTaken]
    rfl
  · rw [if_neg hTaken, if_neg hTaken]
    show _ = Except.ok (expanded ⟨table.entries ++ [(f.signature, f)]⟩)
    rw [expanded, expanded, List.map_append]
    rfl

end SignatureTable

theorem typeOf_expanded (table : SignatureTable) (env : Environment) (e : Expr) :
    typeOf table.expanded env e = typeOf table env e :=
  typeOf_congr e fun m _ => table.agrees_expanded env m

theorem checkInitialized_expanded (table : SignatureTable) (env : Environment) (name : String)
    (value : Expr) (ty? : Option Ty) (readOnly : Bool) :
    checkInitialized table.expanded env name value ty? readOnly =
      checkInitialized table env name value ty? readOnly := by
  rw [checkInitialized, checkInitialized,
    typeOfExpected_congr ty? fun m _ => table.agrees_expanded env m]

/-! ## Runs over a program and its expansion -/

/-- The expansion fails with the same error, or names the arithmetic of a compound
assignment where the program names the assignment. -/
inductive TypeError.SpelledOut : TypeError → TypeError → Prop
  | same (e : TypeError) : SpelledOut e e
  | operator (op : CompoundOp) (left right : Ty) :
    SpelledOut (.binaryOperator op.spelling left right)
      (.binaryOperator op.arithmetic.spelling left right)

/-- Both succeed with the same result, or both fail, up to the operator that is
named. -/
inductive SameVerdict {α : Type} : Except TypeError α → Except TypeError α → Prop
  | ok (a : α) : SameVerdict (.ok a) (.ok a)
  | error {e e' : TypeError} (h : e.SpelledOut e') : SameVerdict (.error e) (.error e')

theorem SameVerdict.refl {α : Type} (x : Except TypeError α) : SameVerdict x x := by
  cases x with
  | ok a => exact .ok a
  | error e => exact .error (.same e)

theorem SameVerdict.eq_ok_iff {α : Type} {x y : Except TypeError α} (h : SameVerdict x y) (a : α) :
    x = .ok a ↔ y = .ok a := by
  cases h with
  | ok _ => rfl
  | error _ => exact ⟨nofun, nofun⟩

theorem checkCompound_spelledOut (table : SignatureTable) (env : Environment) (name : String)
    (op : CompoundOp) (value : Expr) :
    SameVerdict (checkCompound table env name op value)
      (checkAssignment table.expanded env name
        (.binary (.var name) (.arithmetic op.arithmetic) value)) := by
  rw [checkAssignment_congr rfl fun m _ => table.agrees_expanded env m]
  rcases checkCompound_cases table env name op value with
    ⟨hCompound, hAssign⟩ | ⟨e, hCompound, hAssign⟩ | ⟨left, right, hCompound, hAssign⟩
  · rw [hCompound, hAssign]
    exact .ok ()
  · rw [hCompound, hAssign]
    exact .error (.same e)
  · rw [hCompound, hAssign]
    exact .error (.operator op left right)

namespace Checker

variable {α β : Type} {p q : Checker α} {s : Stmt}

/-- The ends of two runs with the same verdict, the second in the expansion of the
session in which the first one ends. -/
inductive EndsExpanded : EStateM.Result TypeError Session α →
    EStateM.Result TypeError Session α → Prop
  | ok (a : α) (left : Session) : EndsExpanded (.ok a left) (.ok a left.expanded)
  | error {e e' : TypeError} (left : Session) (h : e.SpelledOut e') :
    EndsExpanded (.error e left) (.error e' left.expanded)

/-- What the first checker does in a session, the second one does in its expansion. -/
def Expands (p q : Checker α) : Prop :=
  ∀ session : Session, EndsExpanded (p session) (q session.expanded)

namespace Expands

theorem pure (a : α) : Expands (Pure.pure a) (Pure.pure a) := fun session => .ok a session

theorem throw (e : TypeError) :
    Expands (MonadExcept.throw e : Checker α) (MonadExcept.throw e) :=
  fun session => .error session (.same e)

theorem ofExcept_verdict {x y : Except TypeError α} (h : SameVerdict x y) :
    Expands (Checker.ofExcept x) (Checker.ofExcept y) := by
  intro session
  cases h with
  | ok a => exact .ok a session
  | error h => exact .error session h

theorem ofExcept (x : Except TypeError α) : Expands (Checker.ofExcept x) (Checker.ofExcept x) :=
  ofExcept_verdict (.refl x)

theorem infer_verdict {f g : SignatureTable → Except TypeError α}
    (h : ∀ table : SignatureTable, SameVerdict (f table) (g table.expanded)) :
    Expands (Checker.infer f) (Checker.infer g) :=
  fun session => ofExcept_verdict (h session.functions) session

/-- A rule that sees nothing of the bodies of functions. -/
theorem infer {f : SignatureTable → Except TypeError α}
    (h : ∀ table : SignatureTable, f table.expanded = f table) :
    Expands (Checker.infer f) (Checker.infer f) := by
  apply infer_verdict
  intro table
  rw [h table]
  exact .refl _

theorem bind {f g : α → Checker β} (hFirst : Expands p q) (hThen : ∀ a, Expands (f a) (g a)) :
    Expands (p >>= f) (q >>= g) := by
  intro session
  have hEnd := hFirst session
  generalize hp : p session = end₁ at hEnd
  generalize hq : q session.expanded = end₂ at hEnd
  cases hEnd with
  | ok a left =>
      rw [bind_of_ok hp, bind_of_ok hq]
      exact hThen a left
  | error left h =>
      rw [bind_of_error hp, bind_of_error hq]
      exact .error left h

/-- What was bound inside is dropped behind. -/
theorem restore (h : Expands p q) (a : β) :
    Expands (p >>= fun _ => Pure.pure a) (q >>= fun _ => Pure.pure a) :=
  h.bind fun _ => .pure a

theorem within (h : Expands p q) (result : Ty) :
    Expands (Checker.within result p) (Checker.within result q) := by
  intro session
  have hEnd : EndsExpanded (p { session with results := result :: session.results })
      (q { session.expanded with results := result :: session.expanded.results }) :=
    h { session with results := result :: session.results }
  rw [Checker.within, Checker.within]
  generalize p { session with results := result :: session.results } = end₁ at hEnd ⊢
  generalize q { session.expanded with results := result :: session.expanded.results } = end₂
    at hEnd ⊢
  cases hEnd with
  | ok a left => exact .ok a _
  | error left h => exact .error _ h

theorem expectedResult (returnOk : Bool) :
    Expands (Checker.expectedResult returnOk) (Checker.expectedResult returnOk) := by
  rintro ⟨functions, results⟩
  cases returnOk with
  | false => exact .error _ (.same _)
  | true =>
      cases results with
      | nil => exact .error _ (.same _)
      | cons result rest => exact .ok result _

/-- Here the second session takes in the other body. -/
theorem declareFunction (f : FunctionDecl) :
    Expands (Checker.declareFunction f) (Checker.declareFunction f.expanded) := by
  intro session
  have hDeclare : session.expanded.functions.declare f.expanded =
      SignatureTable.expanded <$> session.functions.declare f :=
    session.functions.declare_expanded f
  rw [Checker.declareFunction, Checker.declareFunction, hDeclare]
  cases session.functions.declare f with
  | ok table => exact .ok () _
  | error e => exact .error session (.same e)

/-- A statement that stands for one other. -/
theorem single {s' : Stmt} {loopOk returnOk : Bool} (hDeclares : s'.declaration? = none)
    (h : Expands (checkStmt env loopOk returnOk s) (checkStmt env loopOk returnOk s')) :
    Expands (checkStmt env loopOk returnOk s) (checkBlock env loopOk returnOk [s']) := by
  rw [checkBlock_singleton hDeclares]
  exact h

theorem assign (env : Environment) (loopOk returnOk : Bool) (name : String) (value : Expr)
    (ty? : Option Ty) (isNew readOnly : Bool) :
    Expands (checkStmt env loopOk returnOk (.assign name value ty? isNew readOnly))
      (checkStmt env loopOk returnOk (.assign name value ty? isNew readOnly)) := by
  cases isNew with
  | true =>
      rw [checkStmt]
      exact .infer fun table => checkInitialized_expanded table env name value ty? readOnly
  | false =>
      rw [checkStmt]
      apply (Expands.infer fun table => ?_).restore env
      rw [checkAssignment_congr rfl fun m _ => table.agrees_expanded env m]

theorem assign_spelled (env : Environment) (loopOk returnOk : Bool) (name : String)
    (value : Expr) (ty? : Option Ty) (isNew readOnly : Bool) :
    Expands (checkStmt env loopOk returnOk (.assign name value ty? isNew readOnly))
      (checkBlock env loopOk returnOk (spelledAssign name value ty? isNew readOnly)) := by
  rw [spelledAssign.eq_def]
  split
  · next ty =>
      by_cases hName : name ∈ value.freeNames
      · rw [if_pos hName]
        exact .single rfl (.assign env loopOk returnOk name value (some ty) true false)
      · rw [if_neg hName, checkBlock_cons rfl, checkStmt, checkStmt, infer_initialized hName]
        apply (Expands.ofExcept (checkDeclaration env name (some ty) false)).bind
        intro declared
        rw [checkBlock_singleton rfl]
        exact .assign declared loopOk returnOk name value none false false
  · exact .single rfl (.assign env loopOk returnOk name value ty? isNew readOnly)

end Expands

end Checker

mutual

/-- A statement ends as the statements that it stands for. -/
theorem checkStmt_expanded : ∀ (s : Stmt) (env : Environment) (loopOk returnOk : Bool),
    s.declaration? = none →
      Expands (checkStmt env loopOk returnOk s) (checkBlock env loopOk returnOk s.expanded)
  | .declare name ty? readOnly, env, _, _, _ => by
    rw [Stmt.expanded]
    apply Expands.single rfl
    rw [checkStmt]
    exact .ofExcept (checkDeclaration env name ty? readOnly)
  | .assign name value ty? isNew readOnly, env, loopOk, returnOk, _ => by
    rw [Stmt.expanded]
    exact .assign_spelled env loopOk returnOk name value ty? isNew readOnly
  | .compound name op value, env, _, _, _ => by
    rw [Stmt.expanded, CompoundOp.assignment]
    apply Expands.single rfl
    rw [checkStmt, checkStmt]
    exact (Expands.infer_verdict fun table =>
      checkCompound_spelledOut table env name op value).restore env
  | .ifThen _ _, env, _, _, _ => by
    -- Neither the condition nor the branches are checked.
    rw [Stmt.expanded]
    apply Expands.single rfl
    rw [checkStmt, checkStmt]
    exact .pure env
  | .ifElse _ _ _, env, _, _, _ => by
    rw [Stmt.expanded]
    apply Expands.single rfl
    rw [checkStmt, checkStmt]
    exact .pure env
  | .forIn name source body, env, _, returnOk, _ => by
    rw [Stmt.expanded]
    apply Expands.single rfl
    rw [checkStmt, checkStmt]
    apply (Expands.infer fun table => typeOf_expanded table env source).bind
    intro sourceType
    apply (Expands.ofExcept (iterated sourceType)).bind
    intro element
    exact (checkBlock_expanded body (env.bind name element false) true returnOk).restore env
  | .whileLoop condition body, env, _, returnOk, _ => by
    rw [Stmt.expanded]
    apply Expands.single rfl
    rw [checkStmt, checkStmt]
    apply (Expands.infer fun table => typeOf_expanded table env condition).bind
    intro conditionType
    apply (Expands.ofExcept (expectType .boolean conditionType)).bind
    intro _
    exact (checkBlock_expanded body env true returnOk).restore env
  | .block body, env, loopOk, returnOk, _ => by
    rw [Stmt.expanded]
    apply Expands.single rfl
    rw [checkStmt, checkStmt]
    exact (checkBlock_expanded body env loopOk returnOk).restore env
  | .control word, env, loopOk, _, _ => by
    rw [Stmt.expanded]
    apply Expands.single rfl
    rw [checkStmt]
    cases loopOk with
    | true => exact .pure env
    | false => exact .throw (.controlOutsideLoop word)
  | .returns value, env, _, returnOk, _ => by
    rw [Stmt.expanded]
    apply Expands.single rfl
    rw [checkStmt]
    apply (Expands.expectedResult returnOk).bind
    intro expected
    exact (Expands.infer fun table =>
      checkReturn_congr (fun m _ => table.agrees_expanded env m) expected).restore env
  | .call _ _, env, _, _, _ => by
    rw [Stmt.expanded]
    apply Expands.single rfl
    rw [checkStmt]
    exact (Expands.infer fun table =>
      typeOfCall_congr fun m _ => table.agrees_expanded env m).restore env
  | .step _ _ _, env, _, _, _ => by
    rw [Stmt.expanded]
    apply Expands.single rfl
    rw [checkStmt]
    exact .pure env
  | .output _ _, env, _, _, _ => by
    rw [Stmt.expanded]
    apply Expands.single rfl
    rw [checkStmt]
    exact (Expands.infer fun table =>
      checkOutput_congr fun m _ => table.agrees_expanded env m).restore env

/-- A block ends as the block with all shorthands in it spelled out. -/
theorem checkBlock_expanded : ∀ (body : List Stmt) (env : Environment) (loopOk returnOk : Bool),
    Expands (checkBlock env loopOk returnOk body)
      (checkBlock env loopOk returnOk (expandedBlock body))
  | [], env, _, _ => by
    rw [expandedBlock, checkBlock]
    exact .pure env
  | s :: rest, env, loopOk, returnOk => by
    rw [expandedBlock]
    cases hDeclares : s.declaration? with
    | none =>
        rw [checkBlock_cons hDeclares, checkBlock_append]
        exact (checkStmt_expanded s env loopOk returnOk hDeclares).bind fun behind =>
          checkBlock_expanded rest behind loopOk returnOk
    | some f =>
        -- A function that is declared in a block is refused by its name alone.
        rw [checkBlock_declaration hDeclares, Stmt.declaration?_eq_some hDeclares,
          f.toStmt_expanded, List.singleton_append, checkBlock_declaration rfl]
        exact .throw (.nestedFunction f.name)

end

/-- The declaration of a function ends as that of the expanded function. -/
theorem checkFunction_expanded (f : FunctionDecl) (env : Environment) (loopOk returnOk : Bool) :
    Expands (checkStmt env loopOk returnOk f.toStmt)
      (checkStmt env loopOk returnOk f.expanded.toStmt) := by
  rw [FunctionDecl.toStmt, FunctionDecl.toStmt, checkStmt, checkStmt]
  apply (Expands.infer fun table => ?_).bind
  · intro _
    apply (Expands.ofExcept (bindFunctionParameters env [] f.parameters)).bind
    intro inner
    apply ((checkBlock_expanded f.body inner false true).within f.result).bind
    intro _
    exact (Expands.declareFunction f).restore env
  · rw [expectUndeclared, expectUndeclared, SignatureTable.contains_expanded]

/-! ## Whole programs -/

/-- Where no functions are declared, the top level is a block. -/
theorem checkTopLevel_eq_checkBlock {p : Program} (h : ∀ s ∈ p, s.declaration? = none) :
    ∀ env : Environment, checkTopLevel env p = checkBlock env false false p := by
  induction p with
  | nil =>
      intro env
      rw [checkBlock]
      rfl
  | cons s rest ih =>
      intro env
      obtain ⟨hHead, hTail⟩ := List.forall_mem_cons.1 h
      rw [checkTopLevel_cons, checkBlock_cons hHead]
      exact bind_congr (ih hTail)

/-- A program ends as its expansion. -/
theorem checkTopLevel_expanded (p : Program) : ∀ env : Environment,
    Expands (checkTopLevel env p) (checkTopLevel env (expandedBlock p)) := by
  induction p with
  | nil => exact fun env => .pure env
  | cons s rest ih =>
      intro env
      rw [expandedBlock, checkTopLevel_cons, checkTopLevel_append]
      refine Expands.bind ?_ ih
      cases hDeclares : s.declaration? with
      | none =>
          rw [checkTopLevel_eq_checkBlock (Stmt.expanded_declares_nothing hDeclares)]
          exact checkStmt_expanded s env false false hDeclares
      | some f =>
          obtain rfl := Stmt.declaration?_eq_some hDeclares
          rw [f.toStmt_expanded, checkTopLevel_singleton]
          exact checkFunction_expanded f env false false

/-- A program and its expansion have the same verdict. -/
theorem typeCheck_expanded (p : Program) :
    SameVerdict (typeCheck p) (typeCheck (expandedBlock p)) := by
  have hEnd : EndsExpanded (checkTopLevel .empty p .empty)
      (checkTopLevel .empty (expandedBlock p) .empty) := checkTopLevel_expanded p .empty .empty
  rw [typeCheck, typeCheck, checkProgram, checkProgram, Checker.eval, Checker.eval]
  generalize checkTopLevel .empty p .empty = end₁ at hEnd ⊢
  generalize checkTopLevel .empty (expandedBlock p) .empty = end₂ at hEnd ⊢
  cases hEnd with
  | ok a left => exact .ok a
  | error left h => exact .error h

theorem typeCheck_expanded_eq_ok (p : Program) (env : Environment) :
    typeCheck (expandedBlock p) = .ok env ↔ typeCheck p = .ok env :=
  ((typeCheck_expanded p).eq_ok_iff env).symm

end ScriptLang
