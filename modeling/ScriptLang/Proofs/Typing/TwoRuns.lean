import ScriptLang.Proofs.Typing.SideBySide

/-!
# Two runs over the same statements

The same statements are checked twice, from environments and in sessions that
agree on the names that occur in them. The two runs fail with the same error, or
both succeed and add the same bindings to the environments. Of the sessions, not
even that much is asked: functions are looked up under the names that are called
and under the name of a function that is declared.

## Main results

* `checkStmt_twin_of_callees`, `checkBlock_twin_of_callees` : a statement and a
  block checked twice.
* `checkStmt_twin`, `checkBlock_twin`, `checkTopLevel_twin` : the same where all
  names agree, and programs checked twice.
* `only_mentions_matter` : what inference and the check of a block depend on,
  and names that make no difference.
-/

namespace ScriptLang

open Checker

variable {names called : List String} {table₁ table₂ : SignatureTable} {env₁ env₂ : Environment}

/-! ## Rules of statements -/

theorem agree_of_names {e : Expr} (hTable : table₁.AgreeOn called table₂)
    (hEnv : env₁.AgreeOn names env₂) (hNames : e.names ⊆ names) (hCalled : e.callees ⊆ called) :
    ∀ m ∈ e.mentions, m.Agrees table₁ table₂ env₁ env₂ :=
  mentions_agree (hEnv.mono (List.Subset.trans (e.selected_subset Mention.free) hNames))
    (hTable.mono hCalled)

section Rules

variable {name : String} {value : Expr}

theorem contains_congr (h : env₁.get? name = env₂.get? name) :
    env₁.contains name = env₂.contains name := by
  rw [Environment.contains, Environment.contains, h]

theorem writable_congr (h : env₁.get? name = env₂.get? name) :
    env₁.writable name = env₂.writable name := by
  rw [Environment.writable, Environment.writable, h]

theorem checkDeclaration_alike (ty? : Option Ty) (readOnly : Bool)
    (hName : env₁.get? name = env₂.get? name) :
    Alike (env₁.GrownAlike env₂) (checkDeclaration env₁ name ty? readOnly)
      (checkDeclaration env₂ name ty? readOnly) := by
  cases ty? with
  | none => exact .error _
  | some ty =>
      rw [checkDeclaration, checkDeclaration, Environment.declare, Environment.declare,
        ← contains_congr hName]
      by_cases hTaken : env₁.contains name = true
      · rw [if_pos hTaken, if_pos hTaken]
        exact .error _
      · rw [if_neg hTaken, if_neg hTaken]
        have hFree : env₁.get? name = none :=
          Environment.contains_eq_false.1 (Bool.eq_false_iff.2 hTaken)
        exact .ok (.single ty readOnly hFree (hName.symm.trans hFree))

theorem expectUndeclared_congr (hTable : table₁.AgreeOn names table₂) (hName : name ∈ names)
    (types : List Ty) :
    expectUndeclared ⟨name, types⟩ table₁ = expectUndeclared ⟨name, types⟩ table₂ := by
  rw [expectUndeclared, expectUndeclared, SignatureTable.contains, SignatureTable.contains,
    hTable name hName types]

theorem typeOfCall_congr {arguments : List Expr}
    (h : ∀ m ∈ (Expr.call name arguments).mentions, m.Agrees table₁ table₂ env₁ env₂) :
    typeOfCall table₁ env₁ name arguments = typeOfCall table₂ env₂ name arguments := by
  have hType := typeOf_congr (.call name arguments) h
  rw [typeOf, typeOf] at hType
  rw [typeOfCall, typeOfCall, hType]

variable (hName : env₁.get? name = env₂.get? name)
  (hValue : ∀ m ∈ value.mentions, m.Agrees table₁ table₂ env₁ env₂)

include hValue

theorem checkReturn_congr (expected : Ty) :
    checkReturn table₁ env₁ value expected = checkReturn table₂ env₂ value expected := by
  rw [checkReturn, checkReturn, typeOfExpected_congr (some expected) hValue]

theorem checkOutput_congr : checkOutput table₁ env₁ value = checkOutput table₂ env₂ value := by
  rw [checkOutput, checkOutput, typeOf_congr value hValue]

include hName

theorem checkInitialized_alike (ty? : Option Ty) (readOnly : Bool) :
    Alike (env₁.GrownAlike env₂) (checkInitialized table₁ env₁ name value ty? readOnly)
      (checkInitialized table₂ env₂ name value ty? readOnly) := by
  rw [checkInitialized, checkInitialized, ← contains_congr hName,
    typeOfExpected_congr ty? hValue]
  by_cases hTaken : env₁.contains name = true
  · rw [if_pos hTaken, if_pos hTaken]
    exact .error _
  · rw [if_neg hTaken, if_neg hTaken]
    have hFree : env₁.get? name = none :=
      Environment.contains_eq_false.1 (Bool.eq_false_iff.2 hTaken)
    apply (Alike.refl _).bind
    rintro valueType _ rfl
    have hBound : Alike (env₁.GrownAlike env₂) (.ok (env₁.bind name valueType readOnly))
        (.ok (env₂.bind name valueType readOnly) : Except TypeError Environment) :=
      .ok (.single valueType readOnly hFree (hName.symm.trans hFree))
    cases ty? with
    | none => exact hBound
    | some ty => exact (Alike.refl (expectType ty valueType)).bind fun _ _ _ => hBound

theorem checkAssignment_congr :
    checkAssignment table₁ env₁ name value = checkAssignment table₂ env₂ name value := by
  rw [checkAssignment, checkAssignment, writable_congr hName]
  apply bind_congr
  intro binding
  rw [typeOfExpected_congr (some binding.ty) hValue]

theorem checkCompound_congr (op : CompoundOp) :
    checkCompound table₁ env₁ name op value = checkCompound table₂ env₂ name op value := by
  rw [checkCompound, checkCompound, writable_congr hName, typeOf_congr value hValue]

end Rules

/-! ## Statements, blocks and programs -/

namespace Checker.Twin

variable {α β : Type} {R : α → β → Prop} {p : Checker α} {q : Checker β}

/-- What was bound inside is dropped behind. -/
theorem restore (h : Twin table₁ table₂ R p q) :
    Twin table₁ table₂ (env₁.GrownAlike env₂) (p >>= fun _ => Pure.pure env₁)
      (q >>= fun _ => Pure.pure env₂) :=
  h.bind fun _ _ _ => .pure (.refl env₁ env₂)

/-- A check behind which the environment is the same as before. -/
theorem check {f g : SignatureTable → Except TypeError α} (hTable : table₁.AgreeOn names table₂)
    (h : ∀ now₁ now₂ : SignatureTable, now₁.AgreeOn names now₂ → f now₁ = g now₂) :
    Twin table₁ table₂ (env₁.GrownAlike env₂) (Checker.infer f >>= fun _ => Pure.pure env₁)
      (Checker.infer g >>= fun _ => Pure.pure env₂) :=
  (infer_eq hTable h).restore

end Checker.Twin

mutual

/-- A statement, checked twice where its names mean the same, and the functions
that it calls and declares are the same. -/
theorem checkStmt_twin_of_callees (hTable : table₁.AgreeOn called table₂) : ∀ (s : Stmt)
    {env₁ env₂ : Environment} (loopOk returnOk : Bool), s.names ⊆ names → s.callees ⊆ called →
      (∀ f ∈ s.declaration?, f.name ∈ called) → env₁.AgreeOn names env₂ →
        Twin table₁ table₂ (env₁.GrownAlike env₂) (checkStmt env₁ loopOk returnOk s)
          (checkStmt env₂ loopOk returnOk s)
  | .declare name ty? readOnly, _, _, _, _, hNames, _, _, hEnv => by
    rw [checkStmt, checkStmt]
    exact .ofExcept (checkDeclaration_alike ty? readOnly (hEnv name (hNames List.mem_cons_self)))
  | .assign name value ty? true readOnly, _, _, _, _, hNames, hCalled, _, hEnv => by
    obtain ⟨hName, hValue⟩ := List.cons_subset.1 hNames
    rw [checkStmt, checkStmt]
    exact .infer hTable fun now₁ now₂ hNow => checkInitialized_alike (hEnv name hName)
      (agree_of_names hNow hEnv hValue hCalled) ty? readOnly
  | .assign name value _ false _, _, _, _, _, hNames, hCalled, _, hEnv => by
    obtain ⟨hName, hValue⟩ := List.cons_subset.1 hNames
    exact .check hTable fun now₁ now₂ hNow =>
      checkAssignment_congr (hEnv name hName) (agree_of_names hNow hEnv hValue hCalled)
  | .compound name op value, _, _, _, _, hNames, hCalled, _, hEnv => by
    obtain ⟨hName, hValue⟩ := List.cons_subset.1 hNames
    exact .check hTable fun now₁ now₂ hNow =>
      checkCompound_congr (hEnv name hName) (agree_of_names hNow hEnv hValue hCalled) op
  | .ifThen _ _, env₁, env₂, _, _, _, _, _, _ => .pure (.refl env₁ env₂)
  | .ifElse _ _ _, env₁, env₂, _, _, _, _, _, _ => .pure (.refl env₁ env₂)
  | .forIn name source body, _, _, _, returnOk, hNames, hCalled, _, hEnv => by
    obtain ⟨-, hInside⟩ := List.cons_subset.1 hNames
    obtain ⟨hSource, hBody⟩ := List.append_subset.1 hInside
    obtain ⟨hSourceCalls, hBodyCalls⟩ := List.append_subset.1 hCalled
    rw [checkStmt, checkStmt]
    apply (Twin.infer_eq hTable fun now₁ now₂ hNow =>
      typeOf_congr source (agree_of_names hNow hEnv hSource hSourceCalls)).bind
    rintro sourceType _ rfl
    apply (Twin.ofExcept (Alike.refl (iterated sourceType))).bind
    rintro element _ rfl
    -- The loop variable may hide another one, but then it does so in both runs.
    have hLoop := hEnv.bindAll [(name, ⟨element, false⟩)]
    exact (checkBlock_twin_of_callees hTable body true returnOk hBody hBodyCalls hLoop).restore
  | .whileLoop condition body, _, _, _, returnOk, hNames, hCalled, _, hEnv => by
    obtain ⟨hCondition, hBody⟩ := List.append_subset.1 hNames
    obtain ⟨hConditionCalls, hBodyCalls⟩ := List.append_subset.1 hCalled
    rw [checkStmt, checkStmt]
    apply (Twin.infer_eq hTable fun now₁ now₂ hNow =>
      typeOf_congr condition (agree_of_names hNow hEnv hCondition hConditionCalls)).bind
    rintro conditionType _ rfl
    apply (Twin.ofExcept (Alike.refl (expectType .boolean conditionType))).bind
    intro _ _ _
    exact (checkBlock_twin_of_callees hTable body true returnOk hBody hBodyCalls hEnv).restore
  | .block body, _, _, loopOk, returnOk, hNames, hCalled, _, hEnv =>
    (checkBlock_twin_of_callees hTable body loopOk returnOk hNames hCalled hEnv).restore
  | .control word, env₁, env₂, loopOk, _, _, _, _, _ => by
    rw [checkStmt, checkStmt]
    cases loopOk with
    | true => exact .pure (.refl env₁ env₂)
    | false => exact .throw (.controlOutsideLoop word)
  | .function name parameters result body, env₁, env₂, _, _, hNames, hCalled, hDeclared, hEnv => by
    obtain ⟨-, hInside⟩ := List.cons_subset.1 hNames
    obtain ⟨-, hBody⟩ := List.append_subset.1 hInside
    have hName : name ∈ called := hDeclared ⟨name, parameters, result, body⟩ rfl
    rw [checkStmt, checkStmt]
    apply (Twin.infer_eq hTable fun now₁ now₂ hNow =>
      expectUndeclared_congr hNow hName (parameters.map Prod.snd)).bind
    intro _ _ _
    apply (Twin.ofExcept (bindFunctionParameters_alike parameters env₁ env₂ [])).bind
    rintro _ _ ⟨rfl, rfl⟩
    have hParameters := hEnv.bindAll (parameterBindings true parameters)
    apply ((checkBlock_twin_of_callees hTable body false true hBody hCalled
      hParameters).within result).bind
    intro _ _ _
    exact (Twin.declareFunction hTable hName).restore
  | .returns value, _, _, _, returnOk, hNames, hCalled, _, hEnv => by
    apply (Twin.expectedResult returnOk).bind
    rintro expected _ rfl
    exact .check hTable fun now₁ now₂ hNow =>
      checkReturn_congr (agree_of_names hNow hEnv hNames hCalled) expected
  | .call callee arguments, _, _, _, _, hNames, hCalled, _, hEnv => by
    exact .check hTable fun now₁ now₂ hNow =>
      typeOfCall_congr (agree_of_names hNow hEnv hNames hCalled)
  | .step _ _ _, env₁, env₂, _, _, _, _, _, _ => .pure (.refl env₁ env₂)
  | .output _ value, _, _, _, _, hNames, hCalled, _, hEnv => by
    exact .check hTable fun now₁ now₂ hNow =>
      checkOutput_congr (agree_of_names hNow hEnv hNames hCalled)

theorem checkBlock_twin_of_callees (hTable : table₁.AgreeOn called table₂) : ∀ (body : List Stmt)
    {env₁ env₂ : Environment} (loopOk returnOk : Bool), blockNames body ⊆ names →
      blockCallees body ⊆ called → env₁.AgreeOn names env₂ →
        Twin table₁ table₂ (env₁.GrownAlike env₂) (checkBlock env₁ loopOk returnOk body)
          (checkBlock env₂ loopOk returnOk body)
  | [], env₁, env₂, _, _, _, _, _ => .pure (.refl env₁ env₂)
  | s :: rest, _, _, loopOk, returnOk, hNames, hCalled, hEnv => by
    obtain ⟨hHead, hTail⟩ := List.append_subset.1 hNames
    obtain ⟨hHeadCalls, hTailCalls⟩ := List.append_subset.1 hCalled
    cases hDeclares : s.declaration? with
    | none =>
        have hDeclared : ∀ f ∈ s.declaration?, f.name ∈ called := by
          rw [hDeclares]
          exact nofun
        rw [checkBlock_cons hDeclares, checkBlock_cons hDeclares]
        apply (checkStmt_twin_of_callees hTable s loopOk returnOk hHead hHeadCalls hDeclared
          hEnv).bind
        intro mid₁ mid₂ hGrown
        exact (checkBlock_twin_of_callees hTable rest loopOk returnOk hTail hTailCalls
          (hGrown.agreeOn hEnv)).imp fun _ _ => hGrown.trans
    | some f =>
        rw [checkBlock_declaration hDeclares, checkBlock_declaration hDeclares]
        exact .throw _

end

theorem checkStmt_twin (hTable : table₁.AgreeOn names table₂) (s : Stmt) (loopOk returnOk : Bool)
    (hNames : s.names ⊆ names) (hEnv : env₁.AgreeOn names env₂) :
    Twin table₁ table₂ (env₁.GrownAlike env₂) (checkStmt env₁ loopOk returnOk s)
      (checkStmt env₂ loopOk returnOk s) := by
  refine checkStmt_twin_of_callees hTable s loopOk returnOk hNames
    (List.Subset.trans s.callees_subset hNames) ?_ hEnv
  intro f hDeclares
  rw [Stmt.declaration?_eq_some hDeclares] at hNames
  exact hNames List.mem_cons_self

theorem checkBlock_twin (hTable : table₁.AgreeOn names table₂) (body : Block)
    (loopOk returnOk : Bool) (hNames : blockNames body ⊆ names)
    (hEnv : env₁.AgreeOn names env₂) :
    Twin table₁ table₂ (env₁.GrownAlike env₂) (checkBlock env₁ loopOk returnOk body)
      (checkBlock env₂ loopOk returnOk body) :=
  checkBlock_twin_of_callees hTable body loopOk returnOk hNames
    (List.Subset.trans (blockCallees_subset body) hNames) hEnv

theorem checkTopLevel_twin (hTable : table₁.AgreeOn names table₂) (p : Program) :
    ∀ {env₁ env₂ : Environment}, blockNames p ⊆ names → env₁.AgreeOn names env₂ →
      Twin table₁ table₂ (env₁.GrownAlike env₂) (checkTopLevel env₁ p) (checkTopLevel env₂ p) := by
  induction p with
  | nil => exact fun _ _ => .pure (.refl _ _)
  | cons s rest ih =>
      intro env₁ env₂ hNames hEnv
      obtain ⟨hHead, hTail⟩ := List.append_subset.1 hNames
      rw [checkTopLevel_cons, checkTopLevel_cons]
      apply (checkStmt_twin hTable s false false hHead hEnv).bind
      intro mid₁ mid₂ hGrown
      exact (ih hTail (hGrown.agreeOn hEnv)).imp fun _ _ => hGrown.trans

/-! ## Names that make no difference -/

theorem agreeOn_bind {name : String} (env : Environment) (ty : Ty) (readOnly : Bool)
    (hName : name ∉ names) : env.AgreeOn names (env.bind name ty readOnly) := by
  intro other hOther
  rw [Environment.get?_bind, if_neg]
  rintro rfl
  exact hName hOther

/-- A program that never mentions a name is checked with the name bound as it is
without it. -/
theorem checkTopLevel_bind {name : String} {p : Program} (env : Environment) (ty : Ty)
    (readOnly : Bool) (hName : name ∉ blockNames p) :
    checkTopLevel (env.bind name ty readOnly) p =
      (fun after => after.bind name ty readOnly) <$> checkTopLevel env p := by
  funext session
  have hTable : session.functions.AgreeOn (blockNames p) session.functions := fun _ _ _ => rfl
  have hEnd : EndAlike session.functions session.functions
      (env.GrownAlike (env.bind name ty readOnly)) (checkTopLevel env p session)
      (checkTopLevel (env.bind name ty readOnly) p session) :=
    checkTopLevel_twin hTable p (List.Subset.refl _) (agreeOn_bind env ty readOnly hName)
      (.refl _ _ session.results)
  show _ = EStateM.map _ (checkTopLevel env p) session
  rw [EStateM.map]
  generalize checkTopLevel env p session = end₁ at hEnd ⊢
  generalize checkTopLevel (env.bind name ty readOnly) p session = end₂ at hEnd ⊢
  cases hEnd with
  | ok hLeft hGrown =>
      obtain ⟨added, rfl, rfl, hFree⟩ := hGrown
      -- What the program adds it adds under free names, and `name` is bound.
      have hOther : name ∉ added.map Prod.fst := by
        intro hAdded
        have hNone := (hFree name hAdded).2
        rw [Environment.get?_bind, if_pos rfl] at hNone
        exact absurd hNone nofun
      rw [hLeft.eq, Environment.bind_bindAll ty readOnly hOther]
  | error e hLeft => rw [hLeft.eq]

/-- The type of an expression depends on what its free names mean as variables,
and on the functions declared under the names that it calls. The check of a
block depends on what the names in it mean. So a name that is not mentioned can
be bound without a difference. -/
theorem only_mentions_matter :
    (∀ (table₁ table₂ : SignatureTable) (env₁ env₂ : Environment) (e : Expr),
      env₁.AgreeOn e.freeNames env₂ → table₁.AgreeOn e.callees table₂ →
        typeOf table₁ env₁ e = typeOf table₂ env₂ e) ∧
    (∀ (table₁ table₂ : SignatureTable) (env₁ env₂ : Environment) (results : List Ty)
        (loopOk returnOk : Bool) (body : Block),
      env₁.AgreeOn (blockNames body) env₂ → table₁.AgreeOn (blockNames body) table₂ →
        Alike (env₁.GrownAlike env₂)
          ((checkBlock env₁ loopOk returnOk body).eval ⟨table₁, results⟩)
          ((checkBlock env₂ loopOk returnOk body).eval ⟨table₂, results⟩)) ∧
    (∀ (table : SignatureTable) (env : Environment) (name : String) (ty : Ty) (readOnly : Bool)
        (e : Expr), name ∉ e.freeNames →
      typeOf table (env.bind name ty readOnly) e = typeOf table env e) ∧
    (∀ (env : Environment) (name : String) (ty : Ty) (readOnly : Bool) (p : Program),
      name ∉ blockNames p →
        checkTopLevel (env.bind name ty readOnly) p =
          (fun after => after.bind name ty readOnly) <$> checkTopLevel env p) := by
  refine ⟨?_, ?_, ?_, ?_⟩
  · intro table₁ table₂ env₁ env₂ e hEnv hTable
    exact typeOf_congr e (mentions_agree hEnv hTable)
  · intro table₁ table₂ env₁ env₂ results loopOk returnOk body hEnv hTable
    exact (checkBlock_twin hTable body loopOk returnOk (List.Subset.refl _) hEnv).eval
      (.refl table₁ table₂ results)
  · intro table env name ty readOnly e hName
    have hEnv := agreeOn_bind env ty readOnly hName
    exact (typeOf_congr e (mentions_agree hEnv fun _ _ _ => rfl)).symm
  · intro env name ty readOnly p hName
    exact checkTopLevel_bind env ty readOnly hName

/-- A table that declares `fun f(n: Int): Int`. -/
def oneFunction : SignatureTable :=
  ⟨[(⟨"f", [.int]⟩, ⟨"f", [("n", .int)], .int, [.returns (.var "n")]⟩)]⟩

/-- The same table with `fun g(): Int` behind it. -/
def twoFunctions : SignatureTable :=
  ⟨oneFunction.entries ++ [(⟨"g", []⟩, ⟨"g", [], .int, [.returns (.int 1)]⟩)]⟩

/-- The lambda `{ a: Int -> f(a) + b }`. -/
def callInLambda : Expr :=
  .lambda [("a", some .int)] (.binary (.call "f" [.var "a"]) (.arithmetic .plus) (.var "b"))

/-- The statements `val h = { a: Int -> f(a) + b }` and `for (i in 1..2) { b += f(i) }`. -/
def loopOverCall : Block :=
  [.assign "h" callInLambda none true true,
    .forIn "i" (.range (.int 1) (.int 2)) [.compound "b" .plus (.call "f" [.var "i"])]]

/-- The environment with the variable `b` of type `Int`. -/
def onlyB : Environment := Environment.empty.bind "b" .int false

/-- Neither the function `g` nor an outer `a` makes a difference to the lambda,
and neither `g` nor `z` makes a difference to the statements. -/
theorem mentions_of_callInLambda :
    typeOf twoFunctions (onlyB.bind "a" .boolean true) callInLambda =
        .ok (.function [.int] .int) ∧
      Alike (onlyB.GrownAlike (onlyB.bind "z" .string true))
        (.ok (onlyB.bind "h" (.function [.int] .int) true))
        ((checkBlock (onlyB.bind "z" .string true) false false loopOverCall).eval
          ⟨twoFunctions, []⟩) ∧
      typeOf oneFunction (onlyB.bind "a" .boolean true) callInLambda =
        .ok (.function [.int] .int) ∧
      checkTopLevel (onlyB.bind "z" .string true) loopOverCall =
        (fun after => after.bind "z" .string true) <$> checkTopLevel onlyB loopOverCall := by
  have hTable : ∀ names : List String, "g" ∉ names → oneFunction.AgreeOn names twoFunctions := by
    intro names hOther name hName types
    have hNe : "g" ≠ name := by
      rintro rfl
      exact hOther hName
    simp [twoFunctions, SignatureTable.get?, List.find?_append, hNe]
  refine ⟨?_, ?_, ?_, ?_⟩
  · have hEnv : onlyB.AgreeOn callInLambda.freeNames (onlyB.bind "a" .boolean true) :=
      agreeOn_bind onlyB .boolean true (by decide)
    exact (only_mentions_matter.1 _ _ _ _ callInLambda hEnv (hTable _ (by decide))).symm
  · have hEnv : onlyB.AgreeOn (blockNames loopOverCall) (onlyB.bind "z" .string true) :=
      agreeOn_bind onlyB .string true (by decide)
    exact only_mentions_matter.2.1 _ _ _ _ [] false false loopOverCall hEnv (hTable _ (by decide))
  · exact only_mentions_matter.2.2.1 _ _ "a" .boolean true callInLambda (by decide)
  · exact only_mentions_matter.2.2.2 _ "z" .string true loopOverCall (by decide)

end ScriptLang
