import ScriptLang.Proofs.Typing.Bindings

/-!
# Parameters of lambdas

A parameter of a lambda may leave its type open, and then takes the type that is
expected at its place. `typedParameters?` is what comes of this, apart from the
environment in which the parameters are bound: they can be bound exactly if each
of them has a type and no name is given twice (`bindParameters_eq_ok_iff`). So
the type of a lambda is that of its body under its typed parameters
(`typeOfLambda_eq_ok`).
-/

namespace ScriptLang

/-- The parameters of a lambda with their types: the type that a parameter gives,
or else the expected type at its place. -/
def typedParameters? : (expected : List Ty) → List (String × Option Ty) →
    Option (List (String × Ty))
  | _, [] => some []
  | expected, (name, ty?) :: rest => do
    let ty ← ty? <|> expected.head?
    let typed ← typedParameters? expected.tail rest
    return (name, ty) :: typed

theorem typedParameters?_cons {expected : List Ty} {name : String} {ty? : Option Ty}
    {rest : List (String × Option Ty)} {typed : List (String × Ty)} :
    typedParameters? expected ((name, ty?) :: rest) = some typed ↔
      ∃ ty, (ty? <|> expected.head?) = some ty ∧ ∃ later,
        typedParameters? expected.tail rest = some later ∧ (name, ty) :: later = typed := by
  rw [typedParameters?, Option.bind_eq_bind, Option.bind_eq_some_iff]
  simp only [Option.bind_eq_bind, Option.bind_eq_some_iff, Option.pure_def, Option.some.injEq]

/-- Whatever type a parameter gets, it keeps its name. -/
theorem names_of_typedParameters? (parameters : List (String × Option Ty)) :
    ∀ {expected : List Ty} {typed : List (String × Ty)},
      typedParameters? expected parameters = some typed →
        typed.map Prod.fst = parameters.map Prod.fst := by
  induction parameters with
  | nil =>
      rintro expected typed ⟨⟩
      rfl
  | cons first rest ih =>
      intro expected typed h
      obtain ⟨ty, -, later, hLater, rfl⟩ := typedParameters?_cons.1 h
      rw [List.map_cons, List.map_cons, ih hLater]

/-- Where nothing is expected, every parameter gives its type. -/
theorem typedParameters?_nil (parameters : List (String × Option Ty)) :
    ∀ {typed : List (String × Ty)}, typedParameters? [] parameters = some typed ↔
      parameters = typed.map fun parameter => (parameter.1, some parameter.2) := by
  induction parameters with
  | nil =>
      intro typed
      cases typed <;> simp [typedParameters?]
  | cons first rest ih =>
      intro typed
      obtain ⟨name, ty?⟩ := first
      constructor
      · intro h
        obtain ⟨ty, hTy, later, hLater, rfl⟩ := typedParameters?_cons.1 h
        cases ty? with
        | none => cases hTy
        | some given =>
            cases hTy
            rw [ih.1 hLater, List.map_cons]
      · intro h
        cases typed with
        | nil => cases h
        | cons given later =>
            obtain ⟨⟨⟩, hLater⟩ := List.cons.inj h
            exact typedParameters?_cons.2 ⟨_, rfl, later, ih.2 hLater, rfl⟩

/-- The parameters of a lambda can be bound if each has a type and no name is
given twice. -/
theorem bindParameters_eq_ok_iff (parameters : List (String × Option Ty)) :
    ∀ {env inner : Environment} {seen : List String} {expected types : List Ty},
      bindParameters env seen expected parameters = .ok (types, inner) ↔
        (parameters.map Prod.fst).Nodup ∧ (∀ name ∈ parameters.map Prod.fst, name ∉ seen) ∧
          ∃ typed, typedParameters? expected parameters = some typed ∧
            types = typed.map Prod.snd ∧ inner = env.bindAll (parameterBindings false typed) := by
  induction parameters with
  | nil =>
      intro env inner seen expected types
      simp [bindParameters, typedParameters?, parameterBindings, Environment.bindAll, eq_comm]
  | cons first rest ih =>
      intro env inner seen expected types
      obtain ⟨name, ty?⟩ := first
      rw [bindParameters, List.map_cons, List.nodup_cons, List.forall_mem_cons]
      by_cases hSeen : name ∈ seen
      · rw [if_pos hSeen]
        constructor
        · intro h
          cases h
        · rintro ⟨-, ⟨hFresh, -⟩, -⟩
          exact absurd hSeen hFresh
      · rw [if_neg hSeen]
        -- Behind this parameter its name counts as seen, so no later one may repeat it.
        have hNew : (∀ other ∈ rest.map Prod.fst, other ∉ name :: seen) ↔
            name ∉ rest.map Prod.fst ∧ ∀ other ∈ rest.map Prod.fst, other ∉ seen := by
          grind
        cases hTy : ty? <|> expected.head? with
        | none => simp [typedParameters?_cons, hTy]
        | some ty =>
            constructor
            · intro h
              obtain ⟨⟨later, behind⟩, hRest, ⟨⟩⟩ := except_bind_eq_ok.1 h
              obtain ⟨hDistinct, hFresh, typed, hTyped, rfl, rfl⟩ := ih.1 hRest
              obtain ⟨hFirst, hUnseen⟩ := hNew.1 hFresh
              exact ⟨⟨hFirst, hDistinct⟩, ⟨hSeen, hUnseen⟩, (name, ty) :: typed,
                typedParameters?_cons.2 ⟨ty, hTy, typed, hTyped, rfl⟩, rfl, rfl⟩
            · rintro ⟨⟨hFirst, hDistinct⟩, ⟨-, hUnseen⟩, typed, hTyped, rfl, rfl⟩
              obtain ⟨ty', hTy', later, hLater, rfl⟩ := typedParameters?_cons.1 hTyped
              obtain rfl : ty = ty' := Option.some.inj (hTy.symm.trans hTy')
              have hRest : bindParameters (env.bind name ty false) (name :: seen) expected.tail
                  rest = .ok (later.map Prod.snd,
                    (env.bind name ty false).bindAll (parameterBindings false later)) :=
                ih.2 ⟨hDistinct, hNew.2 ⟨hFirst, hUnseen⟩, later, hLater, rfl, rfl⟩
              exact except_bind_eq_ok.2 ⟨_, hRest, rfl⟩

variable {table : SignatureTable} {env : Environment} {fn : Lambda} {expected : List Ty} {ty : Ty}

theorem typeOf_lambda (table : SignatureTable) (env : Environment)
    (parameters : List (String × Option Ty)) (body : Expr) :
    typeOf table env (.lambda parameters body) = typeOfLambda table env ⟨parameters, body⟩ [] := by
  rw [typeOf, typeOfLambda]

/-- The type of a lambda goes from the types of its parameters to the type of its
body under them. -/
theorem typeOfLambda_eq_ok :
    typeOfLambda table env fn expected = .ok ty ↔
      (fn.parameters.map Prod.fst).Nodup ∧
        ∃ typed, typedParameters? expected fn.parameters = some typed ∧
          ∃ result,
            typeOf table (env.bindAll (parameterBindings false typed)) fn.body = .ok result ∧
            ty = .function (typed.map Prod.snd) result := by
  rw [typeOfLambda]
  constructor
  · intro h
    obtain ⟨⟨types, inner⟩, hParameters, h⟩ := except_bind_eq_ok.1 h
    obtain ⟨result, hBody, ⟨⟩⟩ := except_bind_eq_ok.1 h
    obtain ⟨hDistinct, -, typed, hTyped, rfl, rfl⟩ := (bindParameters_eq_ok_iff _).1 hParameters
    exact ⟨hDistinct, typed, hTyped, result, hBody, rfl⟩
  · rintro ⟨hDistinct, typed, hTyped, result, hBody, rfl⟩
    have hParameters : bindParameters env [] expected fn.parameters =
        .ok (typed.map Prod.snd, env.bindAll (parameterBindings false typed)) :=
      (bindParameters_eq_ok_iff fn.parameters).2
        ⟨hDistinct, fun _ _ => List.not_mem_nil, typed, hTyped, rfl, rfl⟩
    exact except_bind_eq_ok.2 ⟨_, hParameters, except_bind_eq_ok.2 ⟨result, hBody, rfl⟩⟩

end ScriptLang
