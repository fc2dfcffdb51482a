import ScriptLang.Proofs.Typing.SessionState
import ScriptLang.Proofs.Typing.TypedScope

/-!
# Checked uses of names

The walk of `Expr.UsesAt` and `Stmt.UsesAt` goes where checking goes, and what the
walk knows at a place is the environment in which checking comes there. So every use
that the walk finds in an accepted phrase has been checked where it stands: it meets
what its check asks for (`Use.Met`). And the walk with types finds all that the walk
without types does, for an accepted phrase has the types that it takes.

Each walk has a lemma for one step inwards (`Expr.CheckedIn.inside`,
`Stmt.CheckedIn.opened`, `BlockCheckedIn.member`). The lemmas for the whole way
follow by induction on the walk.

## Main results

* `Expr.UsesAt.met`, `Stmt.UsesAt.met` : uses in accepted phrases have been checked.
* `Expr.Uses.usesAt`, `Stmt.Uses.usesAt` : all uses have a place with types.
* `checkTopLevel_member` : how a statement of an accepted program is checked.
-/

namespace ScriptLang

open Checker

variable {table : SignatureTable} {functions : List FunctionDecl} {env env' : Environment}
  {place next inner : TypedScope} {scope target : Scope} {use : Use} {s : Stmt} {name : String}
  {expected? result? : Option Ty} {ty : Ty}

/-! ## What the check of a use asks for -/

/-- What is known of a use in the environment at its place. A variable is bound;
one that is stepped is an integer, and one that is assigned to is not read-only.
A call has arguments with types, and a result for them. -/
def Use.Met (table : SignatureTable) (env : Environment) : Use → Prop
  | .var access name => ∃ binding, env.get? name = some binding ∧
    (access = .step → binding.ty = .int) ∧
    (access = .assign ∨ access = .compound → binding.readOnly = false)
  | .call callee arguments => ∃ types ty, HasTypes table env arguments types ∧
    resolveCall table env ⟨callee, types⟩ = .ok ty

/-- A variable that is only read is in scope, and that is all. -/
theorem Use.met_read {binding : Binding} (hScope : env.get? name = some binding) :
    (Use.var .read name).Met table env :=
  ⟨binding, hScope, nofun, nofun⟩

/-- The expression has been checked where a type may be expected of it. -/
def Expr.CheckedIn (table : SignatureTable) (env : Environment) (expected? : Option Ty)
    (e : Expr) : Prop :=
  ∃ ty, typeOfExpected table env e expected? = .ok ty

/-! ## Expressions -/

theorem HasTypes.member {es : List Expr} {types : List Ty} (h : HasTypes table env es types) :
    ∀ e ∈ es, ∃ ty, HasType table env e ty := by
  induction es generalizing types with
  | nil => exact nofun
  | cons first rest ih =>
      cases h with
      | cons hHead hTail => exact List.forall_mem_cons.2 ⟨⟨_, hHead⟩, ih hTail⟩

namespace Expr

variable {e part : Expr} {parameters : List (String × Option Ty)}

/-- Where no type is expected, an expression has the type that it has by itself. -/
theorem typeOfExpected_none_eq_ok :
    typeOfExpected table env e none = .ok ty ↔ HasType table env e ty := by
  have hPlain : typeOfExpected table env e none = typeOf table env e := by
    cases e <;> rfl
  rw [hPlain]
  exact typeOf_eq_ok_iff_hasType table env e ty

theorem checkedIn_none : e.CheckedIn table env none ↔ ∃ ty, HasType table env e ty :=
  exists_congr fun _ => typeOfExpected_none_eq_ok

theorem checkedIn_of_typeOf (h : typeOf table env e = .ok ty) : e.CheckedIn table env none :=
  checkedIn_none.2 ⟨ty, hasType_of_typeOf e h⟩

/-- The part is checked under its parameters, where these take the types that are
expected of them. -/
def PartChecked (table : SignatureTable) (env : Environment) (expected : List Ty)
    (parameters : List (String × Option Ty)) (part : Expr) : Prop :=
  ∃ typed, typedParameters? expected parameters = some typed ∧
    part.CheckedIn table (env.bindAll (parameterBindings false typed)) none

/-- Parts that stand under no parameters are checked in the environment around. -/
theorem partChecked_plain {es : List Expr} {types expected : List Ty}
    (hTyped : HasTypes table env es types)
    (hPart : (parameters, part) ∈ es.map fun e => ([], e)) :
    part.PartChecked table env expected parameters := by
  obtain ⟨e, hMember, hEq⟩ := List.mem_map.1 hPart
  obtain ⟨rfl, rfl⟩ := Prod.mk.inj hEq
  exact ⟨[], rfl, checkedIn_none.2 (HasTypes.member hTyped e hMember)⟩

/-- Every part of an expression that has a type is checked under its parameters. -/
theorem part_of_hasType (h : HasType table env e ty) (hPart : (parameters, part) ∈ e.parts) :
    part.PartChecked table env (e.expectedParameters none) parameters := by
  cases h with
  | int | boolean | var _ | step _ | index _ => exact absurd hPart List.not_mem_nil
  | text hSplices =>
      refine partChecked_plain hSplices ?_
      rw [List.map_map]
      exact hPart
  | arithmetic hLeft hRight | concatenation hLeft hRight _ | comparison hLeft hRight
  | logical hLeft hRight => exact partChecked_plain (.cons hLeft (.cons hRight .nil)) hPart
  | not hOperand => exact partChecked_plain (.cons hOperand .nil) hPart
  | ifElse hCondition hThen hElse =>
      exact partChecked_plain (.cons hCondition (.cons hThen (.cons hElse .nil))) hPart
  | range hFirst hLast => exact partChecked_plain (.cons hFirst (.cons hLast .nil)) hPart
  | @generate _ _ size body name ty? _ hSize hParameter hBody =>
      rcases List.mem_cons.1 hPart with hHead | hTail
      · obtain ⟨rfl, rfl⟩ := Prod.mk.inj hHead
        exact ⟨[], rfl, checkedIn_none.2 ⟨_, hSize⟩⟩
      · obtain ⟨rfl, rfl⟩ := Prod.mk.inj (List.mem_singleton.1 hTail)
        refine ⟨[(name, .int)], ?_, checkedIn_none.2 ⟨_, hBody⟩⟩
        rcases hParameter with rfl | rfl
        · rfl
        · rfl
  | uniform hItems _ _ | mixed hItems _ _ _ => exact partChecked_plain hItems hPart
  | @lambda _ typed body _ _ hBody =>
      obtain ⟨rfl, rfl⟩ := Prod.mk.inj (List.mem_singleton.1 hPart)
      exact ⟨typed, (typedParameters?_nil _).2 rfl, checkedIn_none.2 ⟨_, hBody⟩⟩
  | callFunction hArguments _ | callVariable hArguments _ _ =>
      exact partChecked_plain hArguments hPart

/-- Where a type is expected, an expression has a type of its own, unless it is a
lambda of which a function type is expected. -/
theorem CheckedIn.cases (h : e.CheckedIn table env expected?) :
    (∃ parameters body types result ty, e = .lambda parameters body ∧
        expected? = some (.function types result) ∧
        typeOfLambda table env ⟨parameters, body⟩ types = .ok ty) ∨
      (∃ ty, HasType table env e ty) ∧
        e.expectedParameters expected? = e.expectedParameters none := by
  obtain ⟨ty, h⟩ := h
  rw [typeOfExpected.eq_def] at h
  split at h
  · exact .inl ⟨_, _, _, _, ty, rfl, rfl, h⟩
  · next hOther =>
      refine .inr ⟨⟨ty, hasType_of_typeOf e h⟩, ?_⟩
      cases e with
      | lambda parameters body =>
          rcases expected? with _ | _ | _ | ⟨types, result⟩
          · rfl
          · rfl
          · rfl
          · exact (hOther parameters body types result rfl rfl).elim
      | _ => cases expected? <;> rfl

/-- Every part of a checked expression is checked under its parameters, in the
typed scope that these make. -/
theorem CheckedIn.inside (h : e.CheckedIn table place.env expected?)
    (hPart : (parameters, part) ∈ e.parts) :
    ∃ typed, typedParameters? (e.expectedParameters expected?) parameters = some typed ∧
      part.CheckedIn table (place.enter .lambdaParameter typed).env none := by
  simp only [TypedScope.env_enter]
  rcases h.cases with ⟨_, _, types, _, _, rfl, rfl, hRun⟩ | ⟨⟨ty, hTyped⟩, hSame⟩
  · obtain ⟨rfl, rfl⟩ := Prod.mk.inj (List.mem_singleton.1 hPart)
    obtain ⟨-, typed, hParameters, result, hBody, -⟩ := typeOfLambda_eq_ok.1 hRun
    exact ⟨typed, hParameters, checkedIn_of_typeOf hBody⟩
  · rw [hSame]
    exact part_of_hasType hTyped hPart

/-- The use that an expression makes itself is what its typing rule is about. -/
theorem CheckedIn.itself (h : e.CheckedIn table env expected?) (hUse : e.use? = some use) :
    use.Met table env := by
  rcases h.cases with ⟨_, _, _, _, _, rfl, -, -⟩ | ⟨⟨ty, hTyped⟩, -⟩
  · exact absurd hUse nofun
  · cases hTyped with
    | var hScope | index hScope =>
        cases hUse
        exact Use.met_read hScope
    | step hScope =>
        cases hUse
        exact ⟨_, hScope, fun _ => rfl, nofun⟩
    | callFunction hArguments hDeclared =>
        cases hUse
        exact ⟨_, _, hArguments, resolveCall_eq_ok.2 (.inl ⟨_, hDeclared, rfl⟩)⟩
    | callVariable hArguments hUndeclared hScope =>
        cases hUse
        exact ⟨_, _, hArguments, resolveCall_eq_ok.2 (.inr ⟨hUndeclared, _, _, hScope⟩)⟩
    | _ => exact absurd hUse nofun

/-- Every use that the walk finds in a checked expression has been checked at its
place. -/
theorem UsesAt.met (hUses : e.UsesAt place expected? inner use)
    (h : e.CheckedIn table place.env expected?) : use.Met table inner.env := by
  induction hUses with
  | itself hUse => exact h.itself hUse
  | inside hPart hTyped _ ih =>
      obtain ⟨typed, hFound, hChecked⟩ := h.inside hPart
      obtain rfl := Option.some.inj (hFound.symm.trans hTyped)
      exact ih hChecked

/-- In a checked expression every use has a place with types. -/
theorem Uses.usesAt (hUses : e.Uses scope target use) :
    ∀ {place : TypedScope} {expected? : Option Ty}, place.scope = scope →
      e.CheckedIn table place.env expected? →
        ∃ inner, inner.scope = target ∧ e.UsesAt place expected? inner use := by
  induction hUses with
  | itself hUse => exact fun hScope _ => ⟨_, hScope, .itself hUse⟩
  | inside hPart _ ih =>
      rintro place expected? rfl h
      obtain ⟨typed, hTyped, hChecked⟩ := h.inside hPart
      obtain ⟨inner, hInner, hFound⟩ := ih (TypedScope.scope_enter_typed hTyped) hChecked
      exact ⟨inner, hInner, .inside hPart hTyped hFound⟩

end Expr

/-! ## Checks of statements -/

/-- A variable that an assignment may write to. -/
theorem Use.met_writable {binding : Binding} {access : Access}
    (hWritable : env.writable name = .ok binding) (hStep : access ≠ .step) :
    (Use.var access name).Met table env := by
  obtain ⟨hScope, hFlag⟩ := writable_eq_ok.1 hWritable
  exact ⟨binding, hScope, fun h => absurd h hStep, fun _ => hFlag⟩

/-- The type of the declared name is the one that is given, or else the one of the
value. -/
theorem checkInitialized_bound {value : Expr} {ty? : Option Ty} {readOnly : Bool}
    (h : checkInitialized table env name value ty? readOnly = .ok env') :
    value.CheckedIn table env ty? ∧ ∃ ty, env' = env.bind name ty readOnly ∧
      (ty? = some ty ∨ ty? = none ∧ HasType table env value ty) := by
  obtain ⟨-, ty, hValue, hTy, rfl⟩ := checkInitialized_opened h
  refine ⟨⟨ty, hValue⟩, ty, rfl, ?_⟩
  cases ty? with
  | none => exact .inr ⟨rfl, Expr.typeOfExpected_none_eq_ok.1 hValue⟩
  | some annotated => exact .inl (congrArg some (hTy annotated rfl).symm)

theorem checkAssignment_checkedIn {value : Expr}
    (h : checkAssignment table env name value = .ok ()) :
    ∃ binding, env.writable name = .ok binding ∧ value.CheckedIn table env (some binding.ty) := by
  rw [checkAssignment] at h
  obtain ⟨binding, hTarget, h⟩ := except_bind_eq_ok.1 h
  obtain ⟨ty, hValue, -⟩ := except_bind_eq_ok.1 h
  exact ⟨binding, hTarget, ty, hValue⟩

theorem checkCompound_checkedIn {op : CompoundOp} {value : Expr}
    (h : checkCompound table env name op value = .ok ()) :
    (∃ binding, env.writable name = .ok binding) ∧ value.CheckedIn table env none := by
  rw [checkCompound] at h
  obtain ⟨binding, hTarget, h⟩ := except_bind_eq_ok.1 h
  obtain ⟨ty, hValue, -⟩ := except_bind_eq_ok.1 h
  exact ⟨⟨binding, hTarget⟩, Expr.checkedIn_of_typeOf hValue⟩

theorem checkReturn_checkedIn {value : Expr} {expected : Ty}
    (h : checkReturn table env value expected = .ok ()) :
    value.CheckedIn table env (some expected) := by
  rw [checkReturn] at h
  obtain ⟨ty, hValue, -⟩ := except_bind_eq_ok.1 h
  exact ⟨ty, hValue⟩

theorem checkOutput_checkedIn {value : Expr} (h : checkOutput table env value = .ok ()) :
    value.CheckedIn table env none := by
  rw [checkOutput] at h
  obtain ⟨ty, hValue, -⟩ := except_bind_eq_ok.1 h
  exact Expr.checkedIn_of_typeOf hValue

theorem iterated_eq_ok {element : Ty} : iterated ty = .ok element ↔ ty.element? = some element := by
  rw [iterated]
  cases ty.element? <;> simp

/-- What checking has reached behind a statement is what is known there. -/
theorem leads_of_checkStmt {loopOk returnOk : Bool} {session left : Session}
    (hRun : checkStmt place.env loopOk returnOk s session = .ok env' left) :
    ∃ next : TypedScope, s.Leads session.functions place next ∧ next.env = env' := by
  cases hMade : s.introduction? with
  | none =>
      have hGrows : place.env.Grows s.introduction?.toList env' :=
        checkStmt_yields s place.env loopOk returnOk hRun
      rw [hMade] at hGrows
      cases hGrows
      exact ⟨place, .other hMade, rfl⟩
  | some i =>
      cases s with
      | declare name ty? readOnly =>
          obtain ⟨hDeclared, -⟩ := ofExcept_eq_ok.1 hRun
          cases ty? with
          | none => exact absurd hDeclared nofun
          | some ty =>
              cases checkDeclaration_eq_ok hDeclared with
              | cons hFree hTy hRest =>
                  cases hRest
                  rw [hTy ty rfl]
                  exact ⟨_, .declared, rfl⟩
      | assign name value ty? isNew readOnly =>
          cases isNew with
          | false => cases hMade
          | true =>
              rw [checkStmt] at hRun
              obtain ⟨-, ty, rfl, rfl | ⟨rfl, hTy⟩⟩ :=
                checkInitialized_bound (infer_eq_ok.1 hRun).1
              · exact ⟨_, .annotated, rfl⟩
              · exact ⟨_, .inferred hTy, rfl⟩
      | _ => cases hMade

/-- A session in which something is checked: the functions of the table are declared,
and where a `return` may stand, the result type around is the given one. -/
structure Session.At (session : Session) (table : SignatureTable) (returnOk : Bool)
    (result? : Option Ty) : Prop where
  functions : session.functions = table
  result : returnOk = true → session.results.head? = result?

/-- The statement is accepted in the environment, where the functions of the table
are declared. -/
def Stmt.CheckedIn (table : SignatureTable) (env : Environment) (result? : Option Ty)
    (s : Stmt) : Prop :=
  ∃ loopOk returnOk session env' left, session.At table returnOk result? ∧
    checkStmt env loopOk returnOk s session = .ok env' left

/-- So are the statements of a block, in order. -/
def BlockCheckedIn (table : SignatureTable) (env : Environment) (result? : Option Ty)
    (body : List Stmt) : Prop :=
  ∃ loopOk returnOk session env' left, session.At table returnOk result? ∧
    checkBlock env loopOk returnOk body session = .ok env' left

/-- A member of a checked block is checked behind the members before it. -/
theorem BlockCheckedIn.member {before after : List Stmt}
    (h : BlockCheckedIn (tableOf functions) place.env result? (before ++ s :: after)) :
    ∃ mid, TypedScope.Behind functions place before mid ∧
      s.CheckedIn (tableOf functions) mid.env result? := by
  induction before generalizing place with
  | nil =>
      obtain ⟨loopOk, returnOk, session, env', left, hSession, hRun⟩ := h
      rw [List.nil_append] at hRun
      cases hDeclares : s.declaration? with
      | some f =>
          rw [checkBlock_declaration hDeclares] at hRun
          exact absurd hRun nofun
      | none =>
          rw [checkBlock_cons hDeclares] at hRun
          obtain ⟨next, mid, hFirst, -⟩ := bind_eq_ok.1 hRun
          exact ⟨place, .nil, loopOk, returnOk, session, next, mid, hSession, hFirst⟩
  | cons first rest ih =>
      obtain ⟨loopOk, returnOk, session, env', left, hSession, hRun⟩ := h
      rw [List.cons_append] at hRun
      cases hDeclares : first.declaration? with
      | some f =>
          rw [checkBlock_declaration hDeclares] at hRun
          exact absurd hRun nofun
      | none =>
          rw [checkBlock_cons hDeclares] at hRun
          obtain ⟨env₁, mid, hFirst, hRest⟩ := bind_eq_ok.1 hRun
          have hKept : mid = session := by
            rw [← checkStmt_keeps first place.env loopOk returnOk hDeclares session,
              after_of_ok hFirst]
          obtain ⟨next, hLeads, rfl⟩ := leads_of_checkStmt hFirst
          rw [hSession.functions] at hLeads
          rw [hKept] at hRest
          obtain ⟨last, hBehind, hChecked⟩ :=
            ih ⟨loopOk, returnOk, session, env', left, hSession, hRest⟩
          refine ⟨last, .cons hLeads ?_, hChecked⟩
          rw [hDeclares, Option.toList_none, List.append_nil]
          exact hBehind

/-- What the check of a statement says of everything inside of it: the variable
that it assigns to may be written, its expressions are checked, and so is the block
inside, with what is known there. -/
structure Stmt.Opened (table : SignatureTable) (place : TypedScope) (result? : Option Ty)
    (s : Stmt) : Prop where
  target : ∀ use, s.target? = some use → use.Met table place.env
  values : ∀ e ∈ s.values, e.CheckedIn table place.env (s.expected? place.env result?)
  body : ∀ binders body, s.body? = some (binders, body) → ∃ inside within?,
    s.Encloses table place result? inside within? body ∧
      BlockCheckedIn table inside.env within? body

/-- A checked statement is opened, form by form. -/
theorem Stmt.CheckedIn.opened (h : s.CheckedIn table place.env result?) :
    s.Opened table place result? := by
  obtain ⟨loopOk, returnOk, session, env', left, hSession, hRun⟩ := h
  obtain ⟨rfl, hResult⟩ := hSession
  cases s with
  | assign name value ty? isNew readOnly =>
      cases isNew with
      | true =>
          rw [checkStmt] at hRun
          have hValue := (checkInitialized_bound (infer_eq_ok.1 hRun).1).1
          exact ⟨nofun, List.forall_mem_singleton.2 hValue, nofun⟩
      | false =>
          rw [checkStmt] at hRun
          obtain ⟨⟨⟩, mid, hAssigned, -⟩ := bind_eq_ok.1 hRun
          obtain ⟨binding, hWritable, hValue⟩ :=
            checkAssignment_checkedIn (infer_eq_ok.1 hAssigned).1
          have hExpected : (place.env.get? name).map Binding.ty = some binding.ty :=
            congrArg _ (writable_eq_ok.1 hWritable).1
          rw [← hExpected] at hValue
          refine ⟨?_, List.forall_mem_singleton.2 hValue, nofun⟩
          rintro _ ⟨⟩
          exact Use.met_writable hWritable nofun
  | compound name op value =>
      rw [checkStmt] at hRun
      obtain ⟨⟨⟩, mid, hAssigned, -⟩ := bind_eq_ok.1 hRun
      obtain ⟨⟨binding, hWritable⟩, hValue⟩ := checkCompound_checkedIn (infer_eq_ok.1 hAssigned).1
      refine ⟨?_, List.forall_mem_singleton.2 hValue, nofun⟩
      rintro _ ⟨⟩
      exact Use.met_writable hWritable nofun
  | forIn name source body =>
      rw [checkStmt] at hRun
      obtain ⟨sourceType, mid, hSource, hRun⟩ := bind_eq_ok.1 hRun
      obtain ⟨element, mid', hElement, hRun⟩ := bind_eq_ok.1 hRun
      obtain ⟨env₁, mid'', hBlock, -⟩ := bind_eq_ok.1 hRun
      obtain ⟨hTyped, rfl⟩ := infer_eq_ok.1 hSource
      obtain ⟨hIterated, rfl⟩ := ofExcept_eq_ok.1 hElement
      refine ⟨nofun, List.forall_mem_singleton.2 (Expr.checkedIn_of_typeOf hTyped), ?_⟩
      rintro _ _ ⟨⟩
      exact ⟨_, _, .forIn (hasType_of_typeOf source hTyped) (iterated_eq_ok.1 hIterated),
        true, returnOk, session, env₁, mid'', ⟨rfl, hResult⟩, hBlock⟩
  | whileLoop condition body =>
      rw [checkStmt] at hRun
      obtain ⟨conditionType, mid, hCondition, hRun⟩ := bind_eq_ok.1 hRun
      obtain ⟨⟨⟩, mid', hBoolean, hRun⟩ := bind_eq_ok.1 hRun
      obtain ⟨env₁, mid'', hBlock, -⟩ := bind_eq_ok.1 hRun
      obtain ⟨hTyped, rfl⟩ := infer_eq_ok.1 hCondition
      obtain rfl := (ofExcept_eq_ok.1 hBoolean).2
      refine ⟨nofun, List.forall_mem_singleton.2 (Expr.checkedIn_of_typeOf hTyped), ?_⟩
      rintro _ _ ⟨⟩
      exact ⟨_, _, .whileLoop, true, returnOk, session, env₁, mid'', ⟨rfl, hResult⟩, hBlock⟩
  | block body =>
      rw [checkStmt] at hRun
      obtain ⟨env₁, mid, hBlock, -⟩ := bind_eq_ok.1 hRun
      refine ⟨nofun, nofun, ?_⟩
      rintro _ _ ⟨⟩
      exact ⟨_, _, .block, loopOk, returnOk, session, env₁, mid, ⟨rfl, hResult⟩, hBlock⟩
  | function name parameters result body =>
      rw [checkStmt] at hRun
      obtain ⟨⟨⟩, mid, hFree, hRun⟩ := bind_eq_ok.1 hRun
      obtain ⟨inner, mid', hInner, hRun⟩ := bind_eq_ok.1 hRun
      obtain ⟨env₁, mid'', hWithin, -⟩ := bind_eq_ok.1 hRun
      obtain rfl := (infer_eq_ok.1 hFree).2
      obtain ⟨hBound, rfl⟩ := ofExcept_eq_ok.1 hInner
      obtain ⟨behind, hBlock⟩ := within_eq_ok hWithin
      have hInside : inner = (place.enter .functionParameter parameters).env := by
        rw [TypedScope.env_enter]
        exact bindFunctionParameters_bindings hBound
      rw [hInside] at hBlock
      refine ⟨nofun, nofun, ?_⟩
      rintro _ _ ⟨⟩
      exact ⟨_, _, .function, false, true, { session with results := result :: session.results },
        env₁, behind, ⟨rfl, fun _ => rfl⟩, hBlock⟩
  | returns value =>
      rw [checkStmt] at hRun
      obtain ⟨expected, mid, hExpected, hRun⟩ := bind_eq_ok.1 hRun
      obtain ⟨⟨⟩, mid', hReturned, -⟩ := bind_eq_ok.1 hRun
      obtain ⟨hReturnOk, hHead, rfl⟩ := expectedResult_eq_ok.1 hExpected
      have hValue := checkReturn_checkedIn (infer_eq_ok.1 hReturned).1
      rw [← hHead, hResult hReturnOk] at hValue
      exact ⟨nofun, List.forall_mem_singleton.2 hValue, nofun⟩
  | call callee arguments =>
      rw [checkStmt] at hRun
      obtain ⟨ty, mid, hCall, -⟩ := bind_eq_ok.1 hRun
      have hTyped : typeOf session.functions place.env (.call callee arguments) = .ok ty := by
        rw [typeOf]
        exact (infer_eq_ok.1 hCall).1
      exact ⟨nofun, List.forall_mem_singleton.2 (Expr.checkedIn_of_typeOf hTyped), nofun⟩
  | output form value =>
      rw [checkStmt] at hRun
      obtain ⟨⟨⟩, mid, hOutput, -⟩ := bind_eq_ok.1 hRun
      have hValue := checkOutput_checkedIn (infer_eq_ok.1 hOutput).1
      exact ⟨nofun, List.forall_mem_singleton.2 hValue, nofun⟩
  | _ => exact ⟨nofun, nofun, nofun⟩

/-- Every use that the walk finds in a checked statement has been checked at its
place. -/
theorem Stmt.UsesAt.met (hUses : s.UsesAt functions place result? inner use)
    (h : s.CheckedIn (tableOf functions) place.env result?) :
    use.Met (tableOf functions) inner.env := by
  induction hUses with
  | target hTarget => exact h.opened.target _ hTarget
  | value hValue hUses => exact hUses.met (h.opened.values _ hValue)
  | body hBody hBehind _ ih =>
      obtain ⟨binders, hInside, -⟩ := hBody.body?
      obtain ⟨_, _, hEncloses, hBlock⟩ := h.opened.body _ _ hInside
      obtain ⟨rfl, rfl, -⟩ := hBody.unique hEncloses
      obtain ⟨_, hMember, hChecked⟩ := hBlock.member
      obtain rfl := hBehind.unique hMember
      exact ih hChecked

/-- In a checked statement every use has a place with types. -/
theorem Stmt.Uses.usesAt (hUses : s.Uses scope target use) :
    ∀ {place : TypedScope} {result? : Option Ty}, place.scope = scope →
      s.CheckedIn (tableOf functions) place.env result? →
        ∃ inner, inner.scope = target ∧ s.UsesAt functions place result? inner use := by
  induction hUses with
  | target hTarget => exact fun hScope _ => ⟨_, hScope, .target hTarget⟩
  | value hValue hUses =>
      intro place result? hScope h
      obtain ⟨inner, hInner, hFound⟩ := hUses.usesAt hScope (h.opened.values _ hValue)
      exact ⟨inner, hInner, .value hValue hFound⟩
  | body hBody _ ih =>
      rintro place result? rfl h
      obtain ⟨inside, within?, hEncloses, hBlock⟩ := h.opened.body _ _ hBody
      obtain ⟨mid, hMember, hChecked⟩ := hBlock.member
      obtain ⟨_, hSame, hInside⟩ := hEncloses.body?
      rw [hBody] at hSame
      cases hSame
      have hMid := hMember.scope
      rw [hInside] at hMid
      obtain ⟨inner, hInner, hFound⟩ := ih hMid hChecked
      exact ⟨inner, hInner, .body hEncloses hMember hFound⟩

/-! ## Programs -/

theorem Session.functions_declaring {session : Session} (h : session.functions = tableOf functions)
    (fs : List FunctionDecl) : (session.declaring fs).functions = tableOf (functions ++ fs) := by
  rw [Session.declaring, h, tableOf, tableOf, List.map_append]

/-- A statement of an accepted program is checked behind the statements before
it, with the functions that they declare. -/
theorem checkTopLevel_member {before after : List Stmt} :
    ∀ {functions : List FunctionDecl} {place : TypedScope} {env' : Environment}
      {session left : Session}, session.functions = tableOf functions →
      checkTopLevel place.env (before ++ s :: after) session = .ok env' left →
      ∃ mid, TypedScope.Behind functions place before mid ∧
        s.CheckedIn (tableOf (functions ++ declarations before)) mid.env none := by
  induction before with
  | nil =>
      intro functions place env' session left hTable hRun
      rw [List.nil_append, checkTopLevel_cons] at hRun
      obtain ⟨next, mid, hFirst, -⟩ := bind_eq_ok.1 hRun
      rw [declarations, List.filterMap_nil, List.append_nil]
      have hSession : session.At (tableOf functions) false none :=
        ⟨hTable, fun hReturn => absurd hReturn Bool.false_ne_true⟩
      exact ⟨place, .nil, false, false, session, next, mid, hSession, hFirst⟩
  | cons first rest ih =>
      intro functions place env' session left hTable hRun
      rw [List.cons_append, checkTopLevel_cons] at hRun
      obtain ⟨env₁, mid, hFirst, hRest⟩ := bind_eq_ok.1 hRun
      have hMid : mid = session.declaring first.declaration?.toList := by
        rcases checkStmt_cases session place.env false false first with
          ⟨e, hFails⟩ | ⟨env₂, hDeclares, -⟩
        · rw [hFails] at hFirst
          cases hFirst
        · rw [hDeclares] at hFirst
          cases hFirst
          rfl
      obtain ⟨next, hLeads, rfl⟩ := leads_of_checkStmt hFirst
      rw [hTable] at hLeads
      rw [hMid] at hRest
      obtain ⟨last, hBehind, hChecked⟩ :=
        ih (Session.functions_declaring hTable first.declaration?.toList) hRest
      rw [declarations_cons, ← List.append_assoc]
      exact ⟨last, .cons hLeads hBehind, hChecked⟩

end ScriptLang
