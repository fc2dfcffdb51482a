import ScriptLang.Proofs.Typing.Premises
import ScriptLang.Proofs.Typing.Run

/-!
# How environments grow

Only two statements put a name into the environment behind them: a declaration
without a value and a declaration with one (`Stmt.introduction?`). All others
give back the environment they started from, whatever was bound inside of them.
So a block makes its own introductions one after the other (`Environment.Grows`)
and nothing else: each under a name that was free, and none is lost again.

## Main results

* `checkStmt_yields` : what one statement makes of its environment.
* `environment_growth` : what blocks and programs make of it.
-/

namespace ScriptLang

open Checker

/-! ## Introductions -/

/-- A name that a statement puts into scope behind itself. -/
structure Introduction where
  name : String
  ty? : Option Ty
  readOnly : Bool

/-- The name that a statement introduces. -/
def Stmt.introduction? : Stmt → Option Introduction
  | .declare name ty? readOnly => some ⟨name, ty?, readOnly⟩
  | .assign name _ ty? true readOnly => some ⟨name, ty?, readOnly⟩
  | _ => none

/-- The introductions of the direct members of a block. -/
def introductions (body : List Stmt) : List Introduction :=
  body.filterMap Stmt.introduction?

/-- The names that the direct members of a block introduce. -/
def introducedNames (body : List Stmt) : List String :=
  (introductions body).map Introduction.name

theorem introductions_cons (s : Stmt) (body : List Stmt) :
    introductions (s :: body) = s.introduction?.toList ++ introductions body := by
  rw [introductions, List.filterMap_cons]
  cases s.introduction? <;> rfl

mutual

/-- The names that a statement binds for what is inside of it: loop variables,
parameters, and what the statements of its bodies introduce or bind in turn. -/
def Stmt.innerNames : Stmt → List String
  | .ifThen _ thenBlock => boundNames thenBlock
  | .ifElse _ thenBlock elseBlock => boundNames thenBlock ++ boundNames elseBlock
  | .forIn name _ body => name :: boundNames body
  | .whileLoop _ body => boundNames body
  | .block body => boundNames body
  | .function _ parameters _ body => parameters.map Prod.fst ++ boundNames body
  | _ => []

/-- The names that the statements of a block introduce or bind inside. -/
def boundNames : List Stmt → List String
  | [] => []
  | s :: rest => s.introduction?.toList.map Introduction.name ++ s.innerNames ++ boundNames rest

end

/-- The names that the members of a block bind inside of themselves. -/
def innerNames (body : List Stmt) : List String := body.flatMap Stmt.innerNames

/-- An environment in which introductions have been made one after the other,
each under a free name and with its own type where it gives one. -/
inductive Environment.Grows : Environment → List Introduction → Environment → Prop
  | nil {env : Environment} : Grows env [] env
  | cons {env env' : Environment} {i : Introduction} {rest : List Introduction} {ty : Ty}
      (hFree : env.get? i.name = none) (hTy : ∀ annotated ∈ i.ty?, ty = annotated)
      (hRest : Grows (env.bind i.name ty i.readOnly) rest env') : Grows env (i :: rest) env'

variable {env env' : Environment} {name : String} {ty? : Option Ty} {readOnly : Bool}

namespace Environment.Grows

variable {i : Introduction} {made more : List Introduction} {binding : Binding}

theorem single {ty : Ty} (hFree : env.get? i.name = none)
    (hTy : ∀ annotated ∈ i.ty?, ty = annotated) :
    env.Grows [i] (env.bind i.name ty i.readOnly) :=
  .cons hFree hTy .nil

theorem append {mid : Environment} (hFirst : env.Grows made mid) (hThen : mid.Grows more env') :
    env.Grows (made ++ more) env' := by
  induction hFirst with
  | nil => exact hThen
  | cons hFree hTy _ ih => exact .cons hFree hTy (ih hThen)

/-- No binding is lost or changed. -/
theorem kept (h : env.Grows made env') (hBound : env.get? name = some binding) :
    env'.get? name = some binding := by
  induction h with
  | nil => exact hBound
  | @cons env _ i _ ty hFree _ _ ih =>
      apply ih
      rw [get?_bind, if_neg]
      · exact hBound
      · rintro rfl
        rw [hFree] at hBound
        exact absurd hBound nofun

/-- Every introduction is in the new environment, as it was made. -/
theorem bound (h : env.Grows made env') (hMade : i ∈ made) :
    ∃ ty, env'.get? i.name = some ⟨ty, i.readOnly⟩ ∧ ∀ annotated ∈ i.ty?, ty = annotated := by
  induction h with
  | nil => exact absurd hMade List.not_mem_nil
  | @cons env _ j _ ty _ hTy hRest ih =>
      rcases List.mem_cons.1 hMade with rfl | hLater
      · exact ⟨ty, hRest.kept (by rw [get?_bind, if_pos rfl]), hTy⟩
      · exact ih hLater

/-- What is not introduced is as it was. -/
theorem unchanged (h : env.Grows made env') (hOther : name ∉ made.map Introduction.name) :
    env'.get? name = env.get? name := by
  induction h with
  | nil => rfl
  | cons _ _ _ ih =>
      rw [List.map_cons, List.mem_cons, not_or] at hOther
      rw [ih hOther.2, get?_bind, if_neg (Ne.symm hOther.1)]

/-- Names are introduced that were free, and each only once. -/
theorem free (h : env.Grows made env') :
    (∀ i ∈ made, env.get? i.name = none) ∧ (made.map Introduction.name).Nodup := by
  induction h with
  | nil => exact ⟨nofun, List.nodup_nil⟩
  | @cons env _ i rest ty hFree _ _ ih =>
      have hLater : ∀ j ∈ rest, i.name ≠ j.name ∧ env.get? j.name = none := by
        intro j hj
        have hStill := ih.1 j hj
        rw [get?_bind] at hStill
        split at hStill
        · exact absurd hStill nofun
        · exact ⟨‹_›, hStill⟩
      refine ⟨List.forall_mem_cons.2 ⟨hFree, fun j hj => (hLater j hj).2⟩, ?_⟩
      rw [List.map_cons, List.nodup_cons]
      refine ⟨?_, ih.2⟩
      intro hAgain
      obtain ⟨j, hj, hEq⟩ := List.mem_map.1 hAgain
      exact (hLater j hj).1 hEq.symm

end Environment.Grows

/-! ## Statements -/

theorem checkDeclaration_eq_ok (h : checkDeclaration env name ty? readOnly = .ok env') :
    env.Grows [⟨name, ty?, readOnly⟩] env' := by
  cases ty? with
  | none => exact absurd h nofun
  | some ty =>
      rw [checkDeclaration, Environment.declare] at h
      split at h
      · exact absurd h nofun
      · next hFree =>
          cases h
          exact .single (i := ⟨name, some ty, readOnly⟩)
            (Environment.contains_eq_false.1 (Bool.eq_false_iff.2 hFree)) (by simp)

/-- A name that is free takes the type of its value, which is the given one if a type
is given. -/
theorem checkInitialized_opened {table : SignatureTable} {value : Expr}
    (h : checkInitialized table env name value ty? readOnly = .ok env') :
    env.get? name = none ∧ ∃ ty, typeOfExpected table env value ty? = .ok ty ∧
      (∀ annotated ∈ ty?, ty = annotated) ∧ env' = env.bind name ty readOnly := by
  rw [checkInitialized] at h
  split at h
  · exact absurd h nofun
  · next hFree =>
      refine ⟨Environment.contains_eq_false.1 (Bool.eq_false_iff.2 hFree), ?_⟩
      obtain ⟨ty, hValue, h⟩ := except_bind_eq_ok.1 h
      cases ty? with
      | none =>
          cases h
          exact ⟨ty, hValue, nofun, rfl⟩
      | some annotated =>
          obtain ⟨⟨⟩, hTy, ⟨⟩⟩ := except_bind_eq_ok.1 h
          obtain rfl := expectType_eq_ok.1 hTy
          refine ⟨_, hValue, ?_, rfl⟩
          rintro _ ⟨⟩
          rfl

theorem checkInitialized_eq_ok {table : SignatureTable} {value : Expr}
    (h : checkInitialized table env name value ty? readOnly = .ok env') :
    env.Grows [⟨name, ty?, readOnly⟩] env' := by
  obtain ⟨hName, ty, -, hTy, rfl⟩ := checkInitialized_opened h
  exact .single (i := ⟨name, ty?, readOnly⟩) hName hTy

/-- Behind a statement stands its own introduction, and nothing else is new. -/
theorem checkStmt_yields (s : Stmt) (env : Environment) (loopOk returnOk : Bool) :
    (checkStmt env loopOk returnOk s).Yields (env.Grows s.introduction?.toList) := by
  have hSame : (Pure.pure env : Checker Environment).Yields (env.Grows []) := .pure .nil
  cases s with
  | declare name ty? readOnly =>
      exact .ofExcept fun env' h => checkDeclaration_eq_ok h
  | assign name value ty? isNew readOnly =>
      cases isNew with
      | true =>
        rw [checkStmt]
        exact .infer fun table env' h => checkInitialized_eq_ok h
      | false => exact .behind fun _ => hSame
  | compound => exact .behind fun _ => hSame
  | ifThen => exact hSame
  | ifElse => exact hSame
  | forIn => exact .behind fun _ => .behind fun _ => .behind fun _ => hSame
  | whileLoop => exact .behind fun _ => .behind fun _ => .behind fun _ => hSame
  | block => exact .behind fun _ => hSame
  | control word =>
      rw [checkStmt]
      cases loopOk with
      | true => exact hSame
      | false => exact .throw (.controlOutsideLoop word)
  | function =>
      exact .behind fun _ => .behind fun _ => .behind fun _ => .behind fun _ => hSame
  | returns => exact .behind fun _ => .behind fun _ => hSame
  | call => exact .behind fun _ => hSame
  | step => exact hSame
  | output => exact .behind fun _ => hSame

/-! ## Blocks and programs -/

/-- A block makes the introductions of its members in order. -/
theorem checkBlock_yields (body : List Stmt) : ∀ (env : Environment) (loopOk returnOk : Bool),
    (checkBlock env loopOk returnOk body).Yields (env.Grows (introductions body)) := by
  induction body with
  | nil => exact fun env _ _ => .pure .nil
  | cons s rest ih =>
      intro env loopOk returnOk
      cases hDeclares : s.declaration? with
      | none =>
          rw [checkBlock_cons hDeclares, introductions_cons]
          refine .bind (checkStmt_yields s env loopOk returnOk) ?_
          intro mid hFirst session left env' hRun
          exact hFirst.append (ih mid loopOk returnOk hRun)
      | some f =>
          rw [checkBlock_declaration hDeclares]
          exact .throw _

/-- So does a program. -/
theorem checkTopLevel_yields (p : Program) : ∀ env : Environment,
    (checkTopLevel env p).Yields (env.Grows (introductions p)) := by
  induction p with
  | nil => exact fun env => .pure .nil
  | cons s rest ih =>
      intro env
      rw [checkTopLevel_cons, introductions_cons]
      refine .bind (checkStmt_yields s env false false) ?_
      intro mid hFirst session left env' hRun
      exact hFirst.append (ih mid hRun)

/-! ## What is in scope behind a block -/

/-- The environment behind a block: everything that was there before, and the
introductions of the members of the block. -/
structure Environment.GrownBy (env : Environment) (body : List Stmt) (env' : Environment) :
    Prop where
  /-- Every binding is still there, with its type and its flag. -/
  kept : ∀ name binding, env.get? name = some binding → env'.get? name = some binding
  /-- The new names are the introduced ones, so none of these was in scope. -/
  new_iff : ∀ name, (env'.contains name = true ∧ env.contains name = false) ↔
    name ∈ introducedNames body
  /-- No name is introduced twice. -/
  distinct : (introducedNames body).Nodup
  /-- An introduction has its flag, and its type where it gives one. -/
  bound : ∀ i ∈ introductions body, ∃ ty, env'.get? i.name = some ⟨ty, i.readOnly⟩ ∧
    ∀ annotated ∈ i.ty?, ty = annotated
  /-- What the members bind only inside of themselves is not in scope behind
  them: the name means what it meant before. -/
  hidden : ∀ name ∈ innerNames body, name ∉ introducedNames body →
    env'.get? name = env.get? name

theorem Environment.Grows.grownBy {body : List Stmt}
    (h : env.Grows (introductions body) env') : env.GrownBy body env' where
  kept _ _ hBound := h.kept hBound
  new_iff name := by
    rw [Environment.contains_eq_false]
    constructor
    · rintro ⟨hNow, hFree⟩
      by_cases hMade : name ∈ introducedNames body
      · exact hMade
      · have hSame : env'.get? name = none := (h.unchanged hMade).trans hFree
        rw [Environment.contains_eq_false.2 hSame] at hNow
        exact absurd hNow Bool.false_ne_true
    · intro hMade
      obtain ⟨i, hi, rfl⟩ := List.mem_map.1 hMade
      obtain ⟨ty, hBound, -⟩ := h.bound hi
      exact ⟨(env'.contains_iff i.name).2 ⟨_, hBound⟩, h.free.1 i hi⟩
  distinct := h.free.2
  bound _ hMade := h.bound hMade
  hidden _ _ hOther := h.unchanged hOther

/-- A block that is accepted adds to its environment what its own members
introduce, and nothing else; so does a program, from the empty environment on. -/
theorem environment_growth :
    (∀ (session left : Session) (env env' : Environment) (loopOk returnOk : Bool) (body : Block),
      checkBlock env loopOk returnOk body session = .ok env' left → env.GrownBy body env') ∧
    (∀ (session left : Session) (p : Program) (env' : Environment),
      checkProgram p session = .ok env' left → Environment.empty.GrownBy p env') := by
  refine ⟨?_, ?_⟩
  · intro session left env env' loopOk returnOk body hRun
    exact (checkBlock_yields body env loopOk returnOk hRun).grownBy
  · intro session left p env' hRun
    exact (checkTopLevel_yields p .empty hRun).grownBy

/-- The statements `val first = 1`, `for (i in arrayOf(first)) { var inner: Int }`
and `var last: String`. -/
def loopBetween : Block :=
  [.assign "first" (.int 1) none true true,
    .forIn "i" (.literal .array [.var "first"]) [.declare "inner" (some .int) false],
    .declare "last" (some .string) false]

/-- Behind the block, `i` is the Boolean that it was in front of the loop, and
`inner` is out of scope. As a program it leaves `i` out of scope too. -/
theorem growth_of_loopBetween :
    (Environment.empty.bind "i" .boolean true).GrownBy loopBetween
        (((Environment.empty.bind "i" .boolean true).bind "first" .int true).bind
          "last" .string false) ∧
      Environment.empty.GrownBy loopBetween
        ((Environment.empty.bind "first" .int true).bind "last" .string false) := by
  refine ⟨environment_growth.1 .empty .empty _ _ false true loopBetween ?_,
    environment_growth.2 .empty .empty loopBetween _ ?_⟩
  · rfl
  · rfl

end ScriptLang
