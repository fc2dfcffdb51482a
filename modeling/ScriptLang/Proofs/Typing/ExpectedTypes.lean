import Mathlib.Data.List.Nodup
import ScriptLang.Proofs.Typing.Parameters
import ScriptLang.Proofs.Typing.Premises
import ScriptLang.Proofs.Typing.Run

/-!
# Expected types

A function type that is expected of a lambda does one thing: where a parameter
leaves its type open, it takes the expected type at its place. So the lambda has
the type that it has by itself once these types are written out
(`typeOfLambda_annotate`), and fails as it fails then. Whatever is not a lambda
with an open parameter has the type that it always has (`typeOfExpected_eq`).

The initializer of a collection looks at its parameter by a rule of its own. It
comes to the same: an initializer is a lambda of which one parameter is expected,
an integer (`typeOf_generate_eq_ok`).

## Main results

* `expected_types_annotate` : lambdas of which a type is expected.
* `initializer_as_lambda` : initializers of collections.
-/

namespace ScriptLang

open Checker

variable {table : SignatureTable} {env : Environment} {e : Expr} {ty : Ty}

/-! ## Annotations -/

/-- The parameters with the expected types written out: a parameter that leaves
its type open takes the one at its place, if there is one. -/
def annotateParameters (expected : List Ty) (parameters : List (String × Option Ty)) :
    List (String × Option Ty) :=
  parameters.mapIdx fun place parameter => (parameter.1, parameter.2 <|> expected[place]?)

/-- The lambda with the expected types of its parameters written out. -/
def Lambda.annotate (expected : List Ty) (fn : Lambda) : Lambda where
  parameters := annotateParameters expected fn.parameters
  body := fn.body

theorem annotateParameters_cons (expected : List Ty) (name : String) (ty? : Option Ty)
    (rest : List (String × Option Ty)) :
    annotateParameters expected ((name, ty?) :: rest) =
      (name, ty? <|> expected.head?) :: annotateParameters expected.tail rest := by
  rw [annotateParameters, annotateParameters, List.mapIdx_cons, List.head?_eq_getElem?]
  simp only [List.getElem?_tail]

/-- What is written out stays as it is. -/
theorem annotateParameters_annotated (expected : List Ty) (parameters : List (String × Option Ty)) :
    annotateParameters expected (annotateParameters expected parameters) =
      annotateParameters expected parameters := by
  induction parameters generalizing expected with
  | nil => rfl
  | cons first rest ih =>
      obtain ⟨name, ty?⟩ := first
      rw [annotateParameters_cons, annotateParameters_cons, ih]
      cases ty? <;> cases expected.head? <;> rfl

/-- There is nothing to write out where every parameter gives its type. -/
theorem annotateParameters_typed (expected : List Ty) {parameters : List (String × Option Ty)}
    (h : ∀ parameter ∈ parameters, parameter.2 ≠ none) :
    annotateParameters expected parameters = parameters := by
  induction parameters generalizing expected with
  | nil => rfl
  | cons first rest ih =>
      obtain ⟨name, ty?⟩ := first
      obtain ⟨hFirst, hRest⟩ := List.forall_mem_cons.1 h
      rw [annotateParameters_cons, ih expected.tail hRest]
      cases ty? with
      | none => exact absurd rfl hFirst
      | some ty => rfl

/-- Parameters are bound with the expected types as they are with these types
written out, and also fail at the same parameter and for the same reason. -/
theorem bindParameters_annotate (parameters : List (String × Option Ty)) :
    ∀ (env : Environment) (seen : List String) (expected : List Ty),
      bindParameters env seen [] (annotateParameters expected parameters) =
        bindParameters env seen expected parameters := by
  induction parameters with
  | nil => exact fun _ _ _ => rfl
  | cons first rest ih =>
      intro env seen expected
      obtain ⟨name, ty?⟩ := first
      have hOpen : ((ty? <|> expected.head?) <|> ([] : List Ty).head?) =
          (ty? <|> expected.head?) := by
        cases ty? <;> cases expected.head? <;> rfl
      rw [annotateParameters_cons, bindParameters, bindParameters, hOpen, List.tail_nil]
      by_cases hSeen : name ∈ seen
      · rw [if_pos hSeen, if_pos hSeen]
      · rw [if_neg hSeen, if_neg hSeen]
        cases ty? <|> expected.head? with
        | none => rfl
        | some ty =>
            show bindParameters _ _ [] (annotateParameters expected.tail rest) >>= _ = _
            rw [ih]

theorem typeOfLambda_annotate (fn : Lambda) (expected : List Ty) :
    typeOfLambda table env (fn.annotate expected) [] = typeOfLambda table env fn expected := by
  rw [typeOfLambda, typeOfLambda]
  show bindParameters env [] [] (annotateParameters expected fn.parameters) >>= _ = _
  rw [bindParameters_annotate]
  rfl

/-! ## Expressions of which a type is expected -/

/-- The types that are expected of the parameters of a lambda. Nothing is known
of them where a type other than a function type is expected, or none at all. -/
def expectedParameters : Option Ty → List Ty
  | some (.function types _) => types
  | _ => []

theorem typeOfExpected_lambda (fn : Lambda) (expected? : Option Ty) :
    typeOfExpected table env fn.toExpr expected? =
      typeOfLambda table env fn (expectedParameters expected?) := by
  rcases expected? with _ | (_ | _ | ⟨types, result⟩)
  case some.function => rfl
  all_goals exact typeOf_lambda table env fn.parameters fn.body

theorem typeOfExpected_annotate (fn : Lambda) (expected? : Option Ty) :
    typeOfExpected table env (fn.annotate (expectedParameters expected?)).toExpr expected? =
      typeOfExpected table env fn.toExpr expected? := by
  rw [typeOfExpected_lambda, typeOfExpected_lambda, ← typeOfLambda_annotate,
    ← typeOfLambda_annotate fn]
  rw [Lambda.annotate, Lambda.annotate, annotateParameters_annotated]

/-- The expression is a lambda with a parameter that leaves its type open. -/
def Expr.LeavesOpen (e : Expr) : Prop :=
  ∃ fn : Lambda, e = fn.toExpr ∧ ∃ parameter ∈ fn.parameters, parameter.2 = none

/-- Only a lambda with an open parameter makes use of an expected type. -/
theorem typeOfExpected_eq (h : ¬ e.LeavesOpen) (expected? : Option Ty) :
    typeOfExpected table env e expected? = typeOf table env e := by
  cases e with
  | lambda parameters body =>
      have hTyped : ∀ parameter ∈ parameters, parameter.2 ≠ none := by
        intro parameter hMem hNone
        exact h ⟨⟨parameters, body⟩, rfl, parameter, hMem, hNone⟩
      have hSame : Lambda.annotate (expectedParameters expected?) ⟨parameters, body⟩ =
          ⟨parameters, body⟩ := by
        rw [Lambda.annotate, annotateParameters_typed _ hTyped]
      rw [typeOf_lambda, ← hSame, typeOfLambda_annotate]
      exact typeOfExpected_lambda ⟨parameters, body⟩ expected?
  | _ => rfl

/-- A lambda with an open parameter has no type by itself. -/
theorem not_leavesOpen_of_typeOf (h : typeOf table env e = .ok ty) : ¬ e.LeavesOpen := by
  rintro ⟨fn, rfl, parameter, hMem, hOpen⟩
  rw [Lambda.toExpr, typeOf_lambda, typeOfLambda_eq_ok] at h
  obtain ⟨-, typed, hTyped, -⟩ := h
  rw [(typedParameters?_nil fn.parameters).1 hTyped] at hMem
  obtain ⟨given, -, rfl⟩ := List.mem_map.1 hMem
  cases hOpen

/-! ## Statements of which a type is expected -/

section Statements

variable (loopOk returnOk : Bool) (name : String) (fn : Lambda) (ty? : Option Ty)
  (readOnly : Bool)

theorem checkStmt_initialized_annotate (env : Environment) :
    checkStmt env loopOk returnOk
        (.assign name (fn.annotate (expectedParameters ty?)).toExpr ty? true readOnly) =
      checkStmt env loopOk returnOk (.assign name fn.toExpr ty? true readOnly) := by
  rw [checkStmt, checkStmt]
  simp only [checkInitialized, typeOfExpected_annotate]

/-- An assignment expects the type of its variable, if the variable is in scope. -/
theorem checkAssignment_annotate (table : SignatureTable) (env : Environment) :
    checkAssignment table env name
        (fn.annotate (expectedParameters ((env.get? name).map Binding.ty))).toExpr =
      checkAssignment table env name fn.toExpr := by
  rw [checkAssignment, checkAssignment]
  cases hWritable : env.writable name with
  | error e => rfl
  | ok binding =>
      rw [(writable_eq_ok.1 hWritable).1, Option.map_some, except_bind_of_ok rfl,
        except_bind_of_ok rfl, typeOfExpected_annotate]

theorem checkStmt_assigned_annotate (env : Environment) :
    checkStmt env loopOk returnOk
        (.assign name (fn.annotate (expectedParameters ((env.get? name).map Binding.ty))).toExpr
          ty? false readOnly) =
      checkStmt env loopOk returnOk (.assign name fn.toExpr ty? false readOnly) := by
  rw [checkStmt, checkStmt]
  simp only [checkAssignment_annotate]

/-- A returned value is expected to have the result type of the innermost function. -/
theorem checkStmt_returned_annotate (env : Environment) (session : Session) :
    checkStmt env loopOk returnOk
        (.returns (fn.annotate (expectedParameters session.results.head?)).toExpr) session =
      checkStmt env loopOk returnOk (.returns fn.toExpr) session := by
  rw [checkStmt, checkStmt]
  cases hExpected : expectedResult returnOk session with
  | error e left => rw [bind_of_error hExpected, bind_of_error hExpected]
  | ok result left =>
      have hResult : session.results.head? = some result := (expectedResult_eq_ok.1 hExpected).2.1
      rw [bind_of_ok hExpected, bind_of_ok hExpected]
      simp only [hResult, checkReturn, typeOfExpected_annotate]

end Statements

/-- An expected type writes out the types that a lambda leaves open, and nothing
else: what has a type by itself keeps it, and only a lambda with an open parameter
gains one. So declarations, assignments and returns treat a lambda as they treat
it with these types written out. -/
theorem expected_types_annotate :
    (∀ (table : SignatureTable) (env : Environment) (fn : Lambda) (expected : List Ty),
      typeOfLambda table env fn expected = typeOfLambda table env (fn.annotate expected) []) ∧
    (∀ (table : SignatureTable) (env : Environment) (e : Expr) (expected? : Option Ty) (ty : Ty),
      typeOf table env e = .ok ty → typeOfExpected table env e expected? = .ok ty) ∧
    (∀ (table : SignatureTable) (env : Environment) (e : Expr) (expected? : Option Ty) (ty : Ty)
        (error : TypeError),
      typeOfExpected table env e expected? = .ok ty → typeOf table env e = .error error →
        e.LeavesOpen) ∧
    (∀ (env : Environment) (loopOk returnOk : Bool) (name : String) (fn : Lambda)
        (ty? : Option Ty) (readOnly : Bool),
      checkStmt env loopOk returnOk (.assign name fn.toExpr ty? true readOnly) =
        checkStmt env loopOk returnOk
          (.assign name (fn.annotate (expectedParameters ty?)).toExpr ty? true readOnly)) ∧
    (∀ (env : Environment) (loopOk returnOk : Bool) (name : String) (fn : Lambda)
        (ty? : Option Ty) (readOnly : Bool),
      checkStmt env loopOk returnOk (.assign name fn.toExpr ty? false readOnly) =
        checkStmt env loopOk returnOk
          (.assign name (fn.annotate (expectedParameters ((env.get? name).map Binding.ty))).toExpr
            ty? false readOnly)) ∧
    (∀ (session : Session) (env : Environment) (loopOk returnOk : Bool) (fn : Lambda),
      checkStmt env loopOk returnOk (.returns fn.toExpr) session =
        checkStmt env loopOk returnOk
          (.returns (fn.annotate (expectedParameters session.results.head?)).toExpr) session) := by
  refine ⟨?_, ?_, ?_, ?_, ?_, ?_⟩
  · intro table env fn expected
    exact (typeOfLambda_annotate fn expected).symm
  · intro table env e expected? ty h
    rw [typeOfExpected_eq (not_leavesOpen_of_typeOf h)]
    exact h
  · intro table env e expected? ty error hExpected hPlain
    by_contra hTyped
    rw [typeOfExpected_eq hTyped, hPlain] at hExpected
    cases hExpected
  · intro env loopOk returnOk name fn ty? readOnly
    exact (checkStmt_initialized_annotate loopOk returnOk name fn ty? readOnly env).symm
  · intro env loopOk returnOk name fn ty? readOnly
    exact (checkStmt_assigned_annotate loopOk returnOk name fn ty? readOnly env).symm
  · intro session env loopOk returnOk fn
    exact (checkStmt_returned_annotate loopOk returnOk fn env session).symm

/-- The lambda `{ a, b: Int -> a + b }`. -/
def openSum : Lambda where
  parameters := [("a", none), ("b", some .int)]
  body := .binary (.var "a") (.arithmetic .plus) (.var "b")

/-- Of a text and a Boolean only the text is written out, since the second
parameter gives its type. It makes no difference then that an integer is
expected, while without any expectation the lambda has no type. -/
theorem annotated_openSum :
    typeOfLambda .empty .empty openSum [.string, .boolean] =
        .ok (.function [.string, .int] .string) ∧
      typeOfExpected .empty .empty (openSum.annotate [.string, .boolean]).toExpr (some .int) =
        .ok (.function [.string, .int] .string) ∧
      openSum.toExpr.LeavesOpen ∧
      checkStmt .empty false true (.returns openSum.toExpr)
          ⟨.empty, [.function [.string, .int] .string]⟩ =
        .ok .empty ⟨.empty, [.function [.string, .int] .string]⟩ := by
  obtain ⟨hLambda, hKept, hGained, -, -, hReturned⟩ := expected_types_annotate
  refine ⟨?_, ?_, ?_, ?_⟩
  · rw [hLambda]
    decide
  · exact hKept _ _ _ (some .int) _ (by decide)
  · have hExpected : typeOfExpected .empty .empty openSum.toExpr
        (some (.function [.string] .any)) = .ok (.function [.string, .int] .string) := by
      decide
    have hPlain : typeOf .empty .empty openSum.toExpr = .error (.unresolvedParameter "a") := by
      decide
    exact hGained _ _ _ _ _ _ hExpected hPlain
  · rw [hReturned]
    rfl

/-! ## Initializers of collections -/

/-- A lambda of which one parameter is expected, and that has just this one. It
gives the expected type or leaves it open. -/
theorem typeOfLambda_single_eq_ok {fn : Lambda} {result : Ty} :
    typeOfLambda table env fn [ty] = .ok (.function [ty] result) ↔
      ∃ name ty?, fn.parameters = [(name, ty?)] ∧ (ty? = none ∨ ty? = some ty) ∧
        typeOf table (env.bind name ty false) fn.body = .ok result := by
  rw [typeOfLambda_eq_ok]
  constructor
  · rintro ⟨-, typed, hTyped, inferred, hBody, hFunction⟩
    obtain ⟨hTypes, rfl⟩ := Ty.function.inj hFunction
    obtain ⟨⟨name, given⟩, rfl, rfl⟩ := List.map_eq_singleton_iff.1 hTypes.symm
    have hNames : [name] = fn.parameters.map Prod.fst :=
      names_of_typedParameters? fn.parameters hTyped
    obtain ⟨⟨_, ty?⟩, hParameters, rfl⟩ := List.map_eq_singleton_iff.1 hNames.symm
    rw [hParameters] at hTyped
    obtain ⟨taken, hTaken, _, -, hSame⟩ := typedParameters?_cons.1 hTyped
    have hGiven : taken = given := (Prod.mk.inj (List.cons.inj hSame).1).2
    refine ⟨_, ty?, hParameters, ?_, hBody⟩
    cases ty? with
    | none => exact .inl rfl
    | some other =>
        have hOther : other = taken := Option.some.inj hTaken
        exact .inr (by rw [hOther, hGiven])
  · rintro ⟨name, ty?, hParameters, hTy, hBody⟩
    rw [hParameters]
    refine ⟨List.nodup_singleton name, [(name, ty)], ?_, result, hBody, rfl⟩
    rw [typedParameters?_cons]
    refine ⟨ty, ?_, [], rfl, rfl⟩
    rcases hTy with rfl | rfl <;> rfl

theorem typeOf_generate_eq_ok {kind : Collection} {size body : Expr}
    {parameters : List (String × Option Ty)} :
    typeOf table env (.generate kind size parameters body) = .ok ty ↔
      typeOf table env size = .ok .int ∧
        ∃ name ty?, parameters = [(name, ty?)] ∧ (ty? = none ∨ ty? = some .int) ∧
          ∃ element, typeOf table (env.bind name .int false) body = .ok (.basic element) ∧
            ty = .collection kind element := by
  rw [typeOf]
  constructor
  · intro h
    obtain ⟨sizeType, hSize, h⟩ := except_bind_eq_ok.1 h
    obtain ⟨⟨⟩, hInt, h⟩ := except_bind_eq_ok.1 h
    obtain ⟨name, hName, h⟩ := except_bind_eq_ok.1 h
    obtain ⟨bodyType, hBody, h⟩ := except_bind_eq_ok.1 h
    obtain ⟨element, hElement, ⟨⟩⟩ := except_bind_eq_ok.1 h
    obtain rfl := expectType_eq_ok.1 hInt
    obtain ⟨ty?, hParameters, hTy⟩ := initializerParameter_eq_ok.1 hName
    obtain rfl := expectBasic_eq_ok.1 hElement
    exact ⟨hSize, name, ty?, hParameters, hTy, element, hBody, rfl⟩
  · rintro ⟨hSize, name, ty?, hParameters, hTy, element, hBody, rfl⟩
    have hName : initializerParameter kind.spelling parameters = .ok name :=
      initializerParameter_eq_ok.2 ⟨ty?, hParameters, hTy⟩
    rw [except_bind_of_ok hSize, except_bind_of_ok (expectType_eq_ok.2 rfl),
      except_bind_of_ok hName, except_bind_of_ok hBody,
      except_bind_of_ok (expectBasic_eq_ok.2 rfl)]
    rfl

/-- A collection that is given by its size and an initializer has a type exactly
if the size is an integer and the initializer, as a lambda of which one integer
parameter is expected, is a function of this parameter to a basic type. The type
is then the collection over this basic type. -/
theorem initializer_as_lambda (table : SignatureTable) (env : Environment) (kind : Collection)
    (size : Expr) (fn : Lambda) (ty : Ty) :
    typeOf table env (.generate kind size fn.parameters fn.body) = .ok ty ↔
      ∃ element, ty = .collection kind element ∧ typeOf table env size = .ok .int ∧
        typeOfLambda table env fn [.int] = .ok (.function [.int] (.basic element)) := by
  rw [typeOf_generate_eq_ok]
  simp only [typeOfLambda_single_eq_ok]
  constructor
  · rintro ⟨hSize, name, ty?, hParameters, hTy, element, hBody, rfl⟩
    exact ⟨element, rfl, hSize, name, ty?, hParameters, hTy, hBody⟩
  · rintro ⟨element, rfl, hSize, name, ty?, hParameters, hTy, hBody⟩
    exact ⟨hSize, name, ty?, hParameters, hTy, element, hBody, rfl⟩

end ScriptLang
