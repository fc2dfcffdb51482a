import ScriptLang.Proofs.Outcome
import ScriptLang.Typing.Checking

/-!
# Lists of bindings

Environments to which several bindings are added in order
(`Environment.bindAll`). What a function or a lambda binds for its body is such
a list, and it does not depend on the environment in which it is bound.
-/

namespace ScriptLang

namespace Environment

/-- The environment with further bindings, the last of a name in force. -/
def bindAll (env : Environment) (added : List (String × Binding)) : Environment :=
  added.foldl (fun env entry => env.bind entry.1 entry.2.ty entry.2.readOnly) env

variable {env env₁ env₂ : Environment} {name : String} {added : List (String × Binding)}

theorem bindAll_cons (env : Environment) (entry : String × Binding)
    (rest : List (String × Binding)) :
    env.bindAll (entry :: rest) = (env.bind entry.1 entry.2.ty entry.2.readOnly).bindAll rest :=
  rfl

theorem bindAll_append (env : Environment) (first later : List (String × Binding)) :
    env.bindAll (first ++ later) = (env.bindAll first).bindAll later :=
  List.foldl_append

theorem get?_bindAll_of_not_mem (h : name ∉ added.map Prod.fst) :
    (env.bindAll added).get? name = env.get? name := by
  induction added generalizing env with
  | nil => rfl
  | cons entry rest ih =>
      rw [List.map_cons, List.mem_cons, not_or] at h
      rw [bindAll_cons, ih h.2, get?_bind, if_neg (Ne.symm h.1)]

/-- With the same bindings added, two environments agree on every name on which
they agreed before, and on every name that is now bound. -/
theorem get?_bindAll_congr
    (h : name ∉ added.map Prod.fst → env₁.get? name = env₂.get? name) :
    (env₁.bindAll added).get? name = (env₂.bindAll added).get? name := by
  induction added generalizing env₁ env₂ with
  | nil => exact h List.not_mem_nil
  | cons entry rest ih =>
      rw [bindAll_cons, bindAll_cons]
      apply ih
      intro hLater
      rw [get?_bind, get?_bind]
      by_cases hHere : entry.1 = name
      · rw [if_pos hHere, if_pos hHere]
      · rw [if_neg hHere, if_neg hHere]
        apply h
        rw [List.map_cons, List.mem_cons, not_or]
        exact ⟨Ne.symm hHere, hLater⟩

/-- A name that is free behind additions was free before them. -/
theorem get?_eq_none_of_bindAll (h : (env.bindAll added).get? name = none) :
    env.get? name = none := by
  induction added generalizing env with
  | nil => exact h
  | cons entry rest ih =>
      have hNext : (env.bind entry.1 entry.2.ty entry.2.readOnly).get? name = none := ih h
      rw [get?_bind] at hNext
      split at hNext
      · exact absurd hNext nofun
      · exact hNext

/-- A binding of a name that is not among the additions can as well be made
behind them. -/
theorem bind_bindAll (ty : Ty) (readOnly : Bool) (h : name ∉ added.map Prod.fst) :
    (env.bind name ty readOnly).bindAll added = (env.bindAll added).bind name ty readOnly := by
  apply Environment.ext
  intro other
  rw [get?_bind]
  by_cases hName : name = other
  · subst hName
    rw [if_pos rfl, get?_bindAll_of_not_mem h, get?_bind, if_pos rfl]
  · rw [if_neg hName]
    apply get?_bindAll_congr
    intro _
    rw [get?_bind, if_neg hName]

end Environment

/-! ## Parameters -/

/-- The bindings of parameters in the body that they belong to. -/
def parameterBindings (readOnly : Bool) (typed : List (String × Ty)) : List (String × Binding) :=
  typed.map fun parameter => (parameter.1, ⟨parameter.2, readOnly⟩)

/-- Two outcomes of binding the parameters of a lambda in one environment each:
the same types, and the same additions under the names of the parameters. -/
def BoundAlike (names : List String) (env₁ env₂ : Environment)
    (bound₁ bound₂ : List Ty × Environment) : Prop :=
  ∃ types added, added.map Prod.fst = names ∧
    bound₁ = (types, env₁.bindAll added) ∧ bound₂ = (types, env₂.bindAll added)

theorem bindParameters_alike (parameters : List (String × Option Ty)) :
    ∀ (env₁ env₂ : Environment) (seen : List String) (expected : List Ty),
      Alike (BoundAlike (parameters.map Prod.fst) env₁ env₂)
        (bindParameters env₁ seen expected parameters)
        (bindParameters env₂ seen expected parameters) := by
  induction parameters with
  | nil => exact fun _ _ _ _ => .ok ⟨[], [], rfl, rfl, rfl⟩
  | cons first rest ih =>
      intro env₁ env₂ seen expected
      obtain ⟨name, ty?⟩ := first
      rw [bindParameters, bindParameters]
      by_cases hSeen : name ∈ seen
      · rw [if_pos hSeen, if_pos hSeen]
        exact .error _
      · rw [if_neg hSeen, if_neg hSeen]
        cases ty? <|> expected.head? with
        | none => exact .error _
        | some ty =>
            apply (ih _ _ (name :: seen) expected.tail).bind
            rintro _ _ ⟨types, added, hNames, rfl, rfl⟩
            refine .ok ⟨ty :: types, (name, ⟨ty, false⟩) :: added, ?_, rfl, rfl⟩
            rw [List.map_cons, hNames, List.map_cons]

/-- Whether the parameters of a function can be bound depends on their names
alone. -/
theorem bindFunctionParameters_alike (parameters : List (String × Ty)) :
    ∀ (env₁ env₂ : Environment) (seen : List String),
      Alike (fun inner₁ inner₂ => inner₁ = env₁.bindAll (parameterBindings true parameters) ∧
          inner₂ = env₂.bindAll (parameterBindings true parameters))
        (bindFunctionParameters env₁ seen parameters)
        (bindFunctionParameters env₂ seen parameters) := by
  induction parameters with
  | nil => exact fun _ _ _ => .ok ⟨rfl, rfl⟩
  | cons first rest ih =>
      intro env₁ env₂ seen
      obtain ⟨name, ty⟩ := first
      rw [bindFunctionParameters, bindFunctionParameters]
      by_cases hSeen : name ∈ seen
      · rw [if_pos hSeen, if_pos hSeen]
        exact .error _
      · rw [if_neg hSeen, if_neg hSeen]
        exact ih (env₁.bind name ty true) (env₂.bind name ty true) (name :: seen)

/-- The parameters that a function binds for its body. -/
theorem bindFunctionParameters_bindings {parameters : List (String × Ty)}
    {env inner : Environment} {seen : List String}
    (h : bindFunctionParameters env seen parameters = .ok inner) :
    inner = env.bindAll (parameterBindings true parameters) := by
  have hAlike := bindFunctionParameters_alike parameters env env seen
  rw [h] at hAlike
  cases hAlike with
  | ok hBoth => exact hBoth.1

end ScriptLang
