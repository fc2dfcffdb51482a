import ScriptLang.Proofs.Typing.TwoRuns

/-!
# Shorthands

Two statements say nothing that others cannot say. A compound assignment `a += e`
stands for `a = a + e`. A declaration `var a: T = e` stands for `var a: T` and
`a = e`, if `a` is not a free name of `e`. They are checked by rules of their own,
in another order, and in environments in which `a` is in scope or not yet.

For the compound assignment this comes down to two tables: `compoundAllowed` accepts
exactly the operands for which `arithmeticType` has a result, and that result is the
type of the variable (`arithmeticType_compound`). So the value of `a + e` always fits
`a`, and what remains different is the operator that an error names. For the
declaration it comes down to weakening: `e` has the same type before and behind the
binding of a name that it does not mention.

## Main results

* `compound_as_assignment` : a compound assignment and what it stands for.
* `initialized_as_declared` : a declaration with a value and what it stands for.
-/

namespace ScriptLang

open Checker

variable {table : SignatureTable} {env : Environment} {name : String} {op : CompoundOp}
  {value : Expr}

/-! ## Compound assignments -/

/-- The assignment that a compound assignment stands for: `a = a + e` for `a += e`. -/
def CompoundOp.assignment (op : CompoundOp) (name : String) (value : Expr) : Stmt :=
  .assign name (.binary (.var name) (.arithmetic op.arithmetic) value) none false false

theorem CompoundOp.spelling_eq (op : CompoundOp) : op.spelling = op.arithmetic.spelling ++ "=" := by
  cases op <;> rfl

theorem CompoundOp.arithmetic_eq_plus : op.arithmetic = .plus ↔ op = .plus := by
  cases op <;> simp [arithmetic]

theorem compoundAllowed_iff {target valueTy : Ty} :
    compoundAllowed op target valueTy = true ↔
      (target = .int ∧ valueTy = .int) ∨
        (op = .plus ∧ target = .string ∧ (valueTy = .int ∨ valueTy = .string)) := by
  rw [compoundAllowed.eq_def]
  split <;> grind

/-- The two tables agree: the arithmetic of a compound assignment has a result
exactly for the operands that the assignment allows, and keeps the type of the
variable. -/
theorem arithmeticType_compound (op : CompoundOp) (target valueTy : Ty) :
    arithmeticType op.arithmetic target valueTy =
      if compoundAllowed op target valueTy then some target else none := by
  by_cases hAllowed : compoundAllowed op target valueTy = true
  · rw [if_pos hAllowed, arithmeticType_eq_some, CompoundOp.arithmetic_eq_plus]
    rcases compoundAllowed_iff.1 hAllowed with ⟨rfl, rfl⟩ | ⟨hPlus, rfl, hValue⟩
    · exact .inl ⟨rfl, rfl, rfl⟩
    · exact .inr ⟨hPlus, rfl, hValue, rfl⟩
  · rw [if_neg hAllowed, Option.eq_none_iff_forall_ne_some]
    intro ty hTy
    rw [arithmeticType_eq_some, CompoundOp.arithmetic_eq_plus] at hTy
    apply hAllowed
    rw [compoundAllowed_iff]
    rcases hTy with ⟨hLeft, hRight, -⟩ | ⟨hPlus, hLeft, hRight, -⟩
    · exact .inl ⟨hLeft, hRight⟩
    · exact .inr ⟨hPlus, hLeft, hRight⟩

/-- A compound assignment is checked as the assignment that it stands for: both
succeed, or both fail with one error, or both refuse the same operands, each under
its own operator. -/
theorem checkCompound_cases (table : SignatureTable) (env : Environment) (name : String)
    (op : CompoundOp) (value : Expr) :
    (checkCompound table env name op value = .ok () ∧
      checkAssignment table env name (.binary (.var name) (.arithmetic op.arithmetic) value) =
        .ok ()) ∨
    (∃ e, checkCompound table env name op value = .error e ∧
      checkAssignment table env name (.binary (.var name) (.arithmetic op.arithmetic) value) =
        .error e) ∨
    ∃ left right, checkCompound table env name op value =
        .error (.binaryOperator op.spelling left right) ∧
      checkAssignment table env name (.binary (.var name) (.arithmetic op.arithmetic) value) =
        .error (.binaryOperator op.arithmetic.spelling left right) := by
  rw [checkCompound, checkAssignment]
  cases hWritable : env.writable name with
  | error e => exact .inr (.inl ⟨e, rfl, rfl⟩)
  | ok binding =>
      have hVariable : typeOf table env (.var name) = .ok binding.ty := by
        rw [typeOf, typeOfVariable, (writable_eq_ok.1 hWritable).1]
      have hPlain : typeOfExpected table env
          (.binary (.var name) (.arithmetic op.arithmetic) value) (some binding.ty) =
            typeOf table env (.binary (.var name) (.arithmetic op.arithmetic) value) := rfl
      rw [except_bind_of_ok rfl, except_bind_of_ok rfl, hPlain, typeOf, hVariable,
        except_bind_of_ok rfl]
      cases typeOf table env value with
      | error e => exact .inr (.inl ⟨e, rfl, rfl⟩)
      | ok valueTy =>
          rw [except_bind_of_ok rfl, except_bind_of_ok rfl, binaryType, arithmeticType_compound]
          by_cases hAllowed : compoundAllowed op binding.ty valueTy = true
          · rw [if_pos hAllowed, if_pos hAllowed, applyOperator, except_bind_of_ok rfl]
            exact .inl ⟨rfl, expectType_eq_ok.2 rfl⟩
          · rw [if_neg hAllowed, if_neg hAllowed, applyOperator]
            exact .inr (.inr ⟨binding.ty, valueTy, rfl, rfl⟩)

theorem check_of_ok {α : Type} {f : SignatureTable → Except TypeError α} {a : α}
    {session : Session} (h : f session.functions = .ok a) (env : Environment) :
    (infer f >>= fun _ => pure env) session = .ok env session :=
  bind_of_ok (infer_eq_ok.2 ⟨h, rfl⟩)

theorem check_of_error {α : Type} {f : SignatureTable → Except TypeError α} {e : TypeError}
    {session : Session} (h : f session.functions = .error e) (env : Environment) :
    (infer f >>= fun _ => pure env) session = .error e session :=
  bind_of_error (infer_of_error h)

/-- A compound assignment and the assignment that it stands for are checked alike,
in every session and environment: both succeed and change nothing, or both fail,
and then with one error, or with the two errors that name their operators for the
same operands. -/
theorem compound_as_assignment (session : Session) (env : Environment) (loopOk returnOk : Bool)
    (name : String) (op : CompoundOp) (value : Expr) :
    op.spelling = op.arithmetic.spelling ++ "=" ∧
    ((checkStmt env loopOk returnOk (.compound name op value) session = .ok env session ∧
        checkStmt env loopOk returnOk (op.assignment name value) session = .ok env session) ∨
      (∃ e, checkStmt env loopOk returnOk (.compound name op value) session = .error e session ∧
        checkStmt env loopOk returnOk (op.assignment name value) session = .error e session) ∨
      ∃ left right,
        checkStmt env loopOk returnOk (.compound name op value) session =
          .error (.binaryOperator op.spelling left right) session ∧
        checkStmt env loopOk returnOk (op.assignment name value) session =
          .error (.binaryOperator op.arithmetic.spelling left right) session) := by
  refine ⟨op.spelling_eq, ?_⟩
  rw [CompoundOp.assignment, checkStmt, checkStmt]
  rcases checkCompound_cases session.functions env name op value with
    ⟨hCompound, hAssign⟩ | ⟨e, hCompound, hAssign⟩ | ⟨left, right, hCompound, hAssign⟩
  · exact .inl ⟨check_of_ok hCompound env, check_of_ok hAssign env⟩
  · exact .inr (.inl ⟨e, check_of_error hCompound env, check_of_error hAssign env⟩)
  · exact .inr (.inr ⟨left, right, check_of_error hCompound env, check_of_error hAssign env⟩)

/-- An integer can be added to a text behind `+=`, but a text to an integer cannot:
the error then names the operator that stands there. -/
example :
    checkStmt (Environment.empty.bind "n" .int false) false false
        (.compound "n" .plus (.text "a" [])) .empty =
      .error (.binaryOperator "+=" .int .string) .empty ∧
    checkStmt (Environment.empty.bind "n" .int false) false false
        (CompoundOp.plus.assignment "n" (.text "a" [])) .empty =
      .error (.binaryOperator "+" .int .string) .empty :=
  ⟨rfl, rfl⟩

/-! ## Declarations with a value -/

/-- Weakening: a name that the value does not mention may be bound for it. -/
theorem typeOfExpected_bind (hName : name ∉ value.freeNames) (ty : Ty) (readOnly : Bool)
    (expected? : Option Ty) :
    typeOfExpected table (env.bind name ty readOnly) value expected? =
      typeOfExpected table env value expected? :=
  (typeOfExpected_congr expected?
    (mentions_agree (agreeOn_bind env ty readOnly hName) fun _ _ _ => rfl)).symm

/-- A declaration with a value is checked as the declaration without it and the
assignment behind it. -/
theorem checkInitialized_eq (hName : name ∉ value.freeNames) (ty : Ty) :
    checkInitialized table env name value (some ty) false = (do
      let declared ← checkDeclaration env name (some ty) false
      checkAssignment table declared name value
      return declared) := by
  rw [checkInitialized, checkDeclaration, Environment.declare]
  by_cases hTaken : env.contains name = true
  · rw [if_pos hTaken, if_pos hTaken]
    rfl
  · have hWritable : (env.bind name ty false).writable name = .ok ⟨ty, false⟩ :=
      writable_eq_ok.2 ⟨by rw [Environment.get?_bind, if_pos rfl], rfl⟩
    rw [if_neg hTaken, if_neg hTaken, except_bind_of_ok rfl, checkAssignment, hWritable,
      except_bind_of_ok rfl, typeOfExpected_bind hName]
    cases typeOfExpected table env value (some ty) with
    | error e => rfl
    | ok valueTy =>
        rw [except_bind_of_ok rfl, except_bind_of_ok rfl]
        show (expectType ty valueTy >>= fun _ => pure (env.bind name valueTy false)) =
          (expectType ty valueTy >>= fun _ => pure (env.bind name ty false))
        cases hFits : expectType ty valueTy with
        | error e => rfl
        | ok _ =>
            -- Only here the two environments are the same: the value has the declared type.
            obtain rfl := expectType_eq_ok.1 hFits
            rfl

/-- The same in a session: the name is declared, and then the value is assigned to
it in the environment that follows. -/
theorem infer_initialized (hName : name ∉ value.freeNames) (env : Environment) (ty : Ty) :
    (infer fun table => checkInitialized table env name value (some ty) false) =
      (ofExcept (checkDeclaration env name (some ty) false) >>= fun declared =>
        infer (fun table => checkAssignment table declared name value) >>= fun _ =>
          pure declared) := by
  simp only [checkInitialized_eq hName]
  rw [infer_bind fun _ => checkDeclaration env name (some ty) false]
  apply bind_congr
  intro declared
  rw [infer_bind]
  rfl

/-- A declaration `var a: T = e` ends exactly as `var a: T` and `a = e` behind it,
in every session and environment, if `a` is not a free name of `e`. -/
theorem initialized_as_declared (env : Environment) (loopOk returnOk : Bool) (name : String)
    (ty : Ty) (value : Expr) (hName : name ∉ value.freeNames) :
    checkStmt env loopOk returnOk (.assign name value (some ty) true false) =
      (checkStmt env loopOk returnOk (.declare name (some ty) false) >>= fun declared =>
        checkStmt declared loopOk returnOk (.assign name value none false false)) := by
  rw [checkStmt, checkStmt, infer_initialized hName]
  apply bind_congr
  intro declared
  rw [checkStmt]

/-- The lambda `{ h -> h + f(h) }`, in which `h` is bound and `f` is not. -/
def boundInside : Expr :=
  .lambda [("h", none)] (.binary (.var "h") (.arithmetic .plus) (.call "f" [.var "h"]))

/-- In `var h: (Int) -> Int = { h -> h + f(h) }` the parameter has the name of the
variable, and takes its type from the type that is declared. -/
theorem declared_boundInside :
    "h" ∉ boundInside.freeNames ∧
      (checkStmt onlyB false false (.declare "h" (some (.function [.int] .int)) false) >>=
          fun declared => checkStmt declared false false
            (.assign "h" boundInside none false false)) ⟨oneFunction, []⟩ =
        .ok (onlyB.bind "h" (.function [.int] .int) false) ⟨oneFunction, []⟩ := by
  have hName : "h" ∉ boundInside.freeNames := by decide
  refine ⟨hName, ?_⟩
  rw [← initialized_as_declared _ _ _ _ _ _ hName]
  rfl

/-- The name must not be free in the value: behind its declaration it means
something, and before it does not. -/
example :
    checkStmt .empty false false (.assign "x" (.var "x") (some .int) true false) .empty =
        .error (.notInScope "x") .empty ∧
      (checkStmt .empty false false (.declare "x" (some .int) false) >>= fun declared =>
        checkStmt declared false false (.assign "x" (.var "x") none false false)) .empty =
        .ok (Environment.empty.bind "x" .int false) .empty :=
  ⟨rfl, rfl⟩

end ScriptLang
