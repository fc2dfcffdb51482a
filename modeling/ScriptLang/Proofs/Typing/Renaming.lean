import Mathlib.Data.List.Nodup
import ScriptLang.Proofs.Typing.Names

/-!
# Renaming a parameter

The names of the parameters of a lambda are its own affair: if one of them is
renamed, with all its free occurrences in the body, the lambda keeps its type.

An environment is one flat map, in which a parameter overwrites what its name
meant before. The proof therefore compares two environments in which the two
names have changed places as far as the renamed body can see
(`Environment.Renamed`). Where a name is bound again, renaming stops, and from
there on the two environments agree on everything that is mentioned.

A callee is looked up among the functions first, and there a parameter has no
say. So neither name may be the name of a function.

## Main results

* `typeOf_rename` : the type of an expression and of the renamed one.
* `typeOfLambda_rename` : lambdas and their parameters.
-/

namespace ScriptLang

variable {x y name : String}

/-! ## The renamed expression -/

/-- The name that stands for `name` after `x` has been renamed to `y`. -/
def renamed (x y name : String) : String := if name = x then y else name

mutual

/-- The expression with the free occurrences of `x` renamed to `y`. Where `x` is
bound again, its occurrences are no longer free. -/
def Expr.rename (x y : String) : Expr → Expr
  | .int value => .int value
  | .boolean value => .boolean value
  | .text remainder splices => .text remainder (renameSplices x y splices)
  | .var name => .var (renamed x y name)
  | .binary left op right => .binary (left.rename x y) op (right.rename x y)
  | .not operand => .not (operand.rename x y)
  | .step name op before => .step (renamed x y name) op before
  | .ifThen condition thenBranch => .ifThen (condition.rename x y) (thenBranch.rename x y)
  | .ifElse condition thenBranch elseBranch =>
    .ifElse (condition.rename x y) (thenBranch.rename x y) (elseBranch.rename x y)
  | .range first last => .range (first.rename x y) (last.rename x y)
  | .generate kind size parameters body =>
    .generate kind (size.rename x y) parameters
      (if x ∈ parameters.map Prod.fst then body else body.rename x y)
  | .literal kind items => .literal kind (renameList x y items)
  | .lambda parameters body =>
    .lambda parameters (if x ∈ parameters.map Prod.fst then body else body.rename x y)
  | .call callee arguments => .call (renamed x y callee) (renameList x y arguments)
  | .index name index => .index (renamed x y name) (index.rename x y)

/-- Renaming in a list of expressions. -/
def renameList (x y : String) : List Expr → List Expr
  | [] => []
  | e :: rest => e.rename x y :: renameList x y rest

/-- Renaming in the splices of a text. -/
def renameSplices (x y : String) : List (Nat × Expr) → List (Nat × Expr)
  | [] => []
  | (offset, e) :: rest => (offset, e.rename x y) :: renameSplices x y rest

end

/-- The parameter, with or without a type, under its new name. -/
def renamedParameter {τ : Type} (x y : String) (parameter : String × τ) : String × τ :=
  (renamed x y parameter.1, parameter.2)

/-- The lambda with its parameter `x` renamed to `y`. -/
def Lambda.renameParameter (x y : String) (fn : Lambda) : Lambda where
  parameters := fn.parameters.map (renamedParameter x y)
  body := fn.body.rename x y

/-- No function is declared under the name. -/
def SignatureTable.Lacks (table : SignatureTable) (name : String) : Prop :=
  ∀ signature ∈ table.signatures, signature.name ≠ name

instance (table : SignatureTable) (name : String) : Decidable (table.Lacks name) :=
  inferInstanceAs (Decidable (∀ signature ∈ table.signatures, signature.name ≠ name))

theorem SignatureTable.get?_of_lacks {table : SignatureTable} (h : table.Lacks name)
    (types : List Ty) : table.get? ⟨name, types⟩ = none := by
  rw [get?, Option.map_eq_none_iff, List.find?_eq_none]
  intro entry hEntry hSame
  have hKey : entry.1 = ⟨name, types⟩ := by simpa using hSame
  exact h entry.1 (List.mem_map_of_mem hEntry) (by rw [hKey])

/-! ## Environments with the name renamed -/

variable {table : SignatureTable} {env₁ env₂ : Environment} {added : List (String × Binding)}

/-- What `x` means in the first environment, `y` means in the second. All other
names mean the same in both. -/
structure Environment.Renamed (x y : String) (env₁ env₂ : Environment) : Prop where
  here : env₁.get? x = env₂.get? y
  elsewhere : ∀ name, name ≠ x → name ≠ y → env₁.get? name = env₂.get? name

namespace Environment.Renamed

theorem get?_renamed (h : env₁.Renamed x y env₂) (hName : name ≠ y) :
    env₂.get? (renamed x y name) = env₁.get? name := by
  rw [renamed]
  by_cases hHere : name = x
  · rw [if_pos hHere, hHere, h.here]
  · rw [if_neg hHere, h.elsewhere name hHere hName]

/-- Bindings of other names change nothing. -/
theorem bindAll (h : env₁.Renamed x y env₂) (hx : x ∉ added.map Prod.fst)
    (hy : y ∉ added.map Prod.fst) : (env₁.bindAll added).Renamed x y (env₂.bindAll added) where
  here := by rw [get?_bindAll_of_not_mem hx, get?_bindAll_of_not_mem hy, h.here]
  elsewhere other hOther hNe := get?_bindAll_congr fun _ => h.elsewhere other hOther hNe

/-- Where `x` is bound again, the environments differ in `y` alone. -/
theorem typeOf_bindAll (h : env₁.Renamed x y env₂) (hx : x ∈ added.map Prod.fst) {body : Expr}
    (hFresh : ∀ m ∈ body.mentions, m.name ≠ y) :
    typeOf table (env₂.bindAll added) body = typeOf table (env₁.bindAll added) body := by
  apply typeOf_congr
  intro m hm
  refine ⟨fun _ => ?_, fun _ _ => rfl⟩
  apply get?_bindAll_congr
  intro hUnbound
  have hOther : m.name ≠ x := by
    rintro hSame
    exact hUnbound (hSame ▸ hx)
  exact (h.elsewhere m.name hOther (hFresh m hm)).symm

end Environment.Renamed

/-! ## Types -/

section Types

variable {ty : Ty}

theorem typeOfVariable_renamed (h : env₁.Renamed x y env₂) (hName : name ≠ y) :
    typeOfVariable env₂ (renamed x y name) = .ok ty ↔ typeOfVariable env₁ name = .ok ty := by
  rw [typeOfVariable_eq_ok, typeOfVariable_eq_ok, h.get?_renamed hName]

/-- Under either name of the parameter no function is found, so the call goes to
what the parameter holds. -/
theorem resolveCall_renamed (hx : table.Lacks x) (hy : table.Lacks y) (h : env₁.Renamed x y env₂)
    (hName : name ≠ y) (types : List Ty) :
    resolveCall table env₂ ⟨renamed x y name, types⟩ = .ok ty ↔
      resolveCall table env₁ ⟨name, types⟩ = .ok ty := by
  have hFunctions : table.get? ⟨renamed x y name, types⟩ = table.get? ⟨name, types⟩ := by
    rw [renamed]
    by_cases hHere : name = x
    · rw [if_pos hHere, hHere, SignatureTable.get?_of_lacks hx, SignatureTable.get?_of_lacks hy]
    · rw [if_neg hHere]
  rw [resolveCall_eq_ok, resolveCall_eq_ok, hFunctions, h.get?_renamed hName]

/-- A name that occurs neither among parameters nor in their body. -/
theorem fresh_of_scope {parameters : List String} {body : List Mention}
    (h : ∀ m ∈ Mention.scope parameters body, m.name ≠ y) :
    y ∉ parameters ∧ ∀ m ∈ body, m.name ≠ y := by
  obtain ⟨hParameters, hInside⟩ := List.forall_mem_append.1 h
  constructor
  · intro hy
    exact hParameters (.ofParameter y) (List.mem_map_of_mem hy) rfl
  · intro m hm
    exact hInside (m.under parameters) (List.mem_map_of_mem hm)

/-- A body in which `parameters` are bound, by what holds of it where `x` is not
one of them. -/
theorem typeOf_body_renamed {parameters : List (String × Option Ty)} {body : Expr}
    (h : env₁.Renamed x y env₂)
    (hFresh : ∀ m ∈ Mention.scope (parameters.map Prod.fst) body.mentions, m.name ≠ y)
    (hNames : added.map Prod.fst = parameters.map Prod.fst)
    (hBody : ∀ {inner₁ inner₂ : Environment}, inner₁.Renamed x y inner₂ →
      (∀ m ∈ body.mentions, m.name ≠ y) →
        (typeOf table inner₂ (body.rename x y) = .ok ty ↔ typeOf table inner₁ body = .ok ty)) :
    typeOf table (env₂.bindAll added)
        (if x ∈ parameters.map Prod.fst then body else body.rename x y) = .ok ty ↔
      typeOf table (env₁.bindAll added) body = .ok ty := by
  obtain ⟨hy, hFreshBody⟩ := fresh_of_scope hFresh
  by_cases hx : x ∈ parameters.map Prod.fst
  · rw [if_pos hx, h.typeOf_bindAll (hNames ▸ hx) hFreshBody]
  · rw [if_neg hx]
    exact hBody (h.bindAll (hNames ▸ hx) (hNames ▸ hy)) hFreshBody

mutual

/-- Renaming keeps the type of an expression. -/
theorem typeOf_rename (hx : table.Lacks x) (hy : table.Lacks y) :
    ∀ (e : Expr) {env₁ env₂ : Environment} {ty : Ty}, env₁.Renamed x y env₂ →
      (∀ m ∈ e.mentions, m.name ≠ y) →
        (typeOf table env₂ (e.rename x y) = .ok ty ↔ typeOf table env₁ e = .ok ty)
  | .int _, _, _, _, _, _ => by rw [Expr.rename, typeOf, typeOf]
  | .boolean _, _, _, _, _, _ => by rw [Expr.rename, typeOf, typeOf]
  | .text _ splices, _, _, _, h, hFresh => by
    rw [Expr.rename, typeOf, typeOf]
    simp only [except_bind_eq_ok, checkSplices_rename hx hy splices h hFresh]
  | .var name, _, _, _, h, hFresh => by
    rw [Expr.rename, typeOf, typeOf]
    exact typeOfVariable_renamed h (hFresh (.ofVariable name) List.mem_cons_self)
  | .binary left _ right, _, _, _, h, hFresh => by
    obtain ⟨hLeft, hRight⟩ := List.forall_mem_append.1 hFresh
    rw [Expr.rename, typeOf, typeOf]
    simp only [except_bind_eq_ok, typeOf_rename hx hy left h hLeft,
      typeOf_rename hx hy right h hRight]
  | .not operand, _, _, _, h, hFresh => by
    rw [Expr.rename, typeOf, typeOf]
    simp only [except_bind_eq_ok, typeOf_rename hx hy operand h hFresh]
  | .step name _ _, _, _, _, h, hFresh => by
    have hName : name ≠ y := hFresh (.ofVariable name) List.mem_cons_self
    rw [Expr.rename, typeOf, typeOf]
    simp only [except_bind_eq_ok, typeOfVariable_renamed h hName]
  | .ifThen condition _, _, _, _, h, hFresh => by
    obtain ⟨hCondition, -⟩ := List.forall_mem_append.1 hFresh
    rw [Expr.rename, typeOf, typeOf]
    simp only [except_bind_eq_ok, typeOf_rename hx hy condition h hCondition]
  | .ifElse condition thenBranch elseBranch, _, _, _, h, hFresh => by
    obtain ⟨hCondition, hBranches⟩ := List.forall_mem_append.1 hFresh
    obtain ⟨hThen, hElse⟩ := List.forall_mem_append.1 hBranches
    rw [Expr.rename, typeOf, typeOf]
    simp only [except_bind_eq_ok, typeOf_rename hx hy condition h hCondition,
      typeOf_rename hx hy thenBranch h hThen, typeOf_rename hx hy elseBranch h hElse]
  | .range first last, _, _, _, h, hFresh => by
    obtain ⟨hFirst, hLast⟩ := List.forall_mem_append.1 hFresh
    rw [Expr.rename, typeOf, typeOf]
    simp only [except_bind_eq_ok, typeOf_rename hx hy first h hFirst,
      typeOf_rename hx hy last h hLast]
  | .generate kind size parameters body, env₁, env₂, ty, h, hFresh => by
    obtain ⟨hSize, hScope⟩ := List.forall_mem_append.1 hFresh
    rw [Expr.rename, typeOf, typeOf]
    simp only [except_bind_eq_ok, typeOf_rename hx hy size h hSize]
    refine exists_congr fun _ => and_congr_right fun _ => exists_congr fun _ =>
      and_congr_right fun _ => exists_congr fun name => and_congr_right fun hParameter => ?_
    obtain ⟨ty?, rfl, -⟩ := initializerParameter_eq_ok.1 hParameter
    have hBody : ∀ bodyType,
        typeOf table (env₂.bind name .int false)
            (if x ∈ [(name, ty?)].map Prod.fst then body else body.rename x y) = .ok bodyType ↔
          typeOf table (env₁.bind name .int false) body = .ok bodyType := fun bodyType =>
      have hNames : [(name, (⟨.int, false⟩ : Binding))].map Prod.fst =
        [(name, ty?)].map Prod.fst := rfl
      typeOf_body_renamed h hScope hNames (typeOf_rename hx hy body)
    simp only [hBody]
  | .literal _ items, _, _, _, h, hFresh => by
    rw [Expr.rename, typeOf, typeOf]
    simp only [except_bind_eq_ok, elementsOf_rename hx hy items h hFresh]
  | .lambda parameters body, _, _, _, h, hFresh => by
    rw [Expr.rename, typeOf_lambda, typeOf_lambda, typeOfLambda_eq_ok, typeOfLambda_eq_ok]
    refine and_congr_right fun _ => exists_congr fun typed => and_congr_right fun hTyped =>
      exists_congr fun result => and_congr_left fun _ => ?_
    have hNames : (parameterBindings false typed).map Prod.fst = parameters.map Prod.fst := by
      rw [← names_of_typedParameters? parameters hTyped]
      exact List.map_map
    exact typeOf_body_renamed h hFresh hNames (typeOf_rename hx hy body)
  | .call callee arguments, _, _, _, h, hFresh => by
    obtain ⟨hFirst, hArguments⟩ := List.forall_mem_cons.1 hFresh
    have hCallee : callee ≠ y := hFirst
    rw [Expr.rename, typeOf, typeOf]
    simp only [except_bind_eq_ok, typesOf_rename hx hy arguments h hArguments,
      resolveCall_renamed hx hy h hCallee]
  | .index name _, _, _, _, h, hFresh => by
    rw [Expr.rename, typeOf, typeOf]
    exact typeOfVariable_renamed h (hFresh (.ofVariable name) List.mem_cons_self)

theorem typesOf_rename (hx : table.Lacks x) (hy : table.Lacks y) :
    ∀ (es : List Expr) {env₁ env₂ : Environment} {types : List Ty}, env₁.Renamed x y env₂ →
      (∀ m ∈ Expr.listMentions es, m.name ≠ y) →
        (typesOf table env₂ (renameList x y es) = .ok types ↔ typesOf table env₁ es = .ok types)
  | [], _, _, _, _, _ => by rw [renameList, typesOf, typesOf]
  | e :: rest, _, _, _, h, hFresh => by
    obtain ⟨hHead, hTail⟩ := List.forall_mem_append.1 hFresh
    rw [renameList, typesOf, typesOf]
    simp only [except_bind_eq_ok, typeOf_rename hx hy e h hHead,
      typesOf_rename hx hy rest h hTail]

theorem elementsOf_rename (hx : table.Lacks x) (hy : table.Lacks y) :
    ∀ (es : List Expr) {env₁ env₂ : Environment} {elements : List Basic}, env₁.Renamed x y env₂ →
      (∀ m ∈ Expr.listMentions es, m.name ≠ y) →
        (elementsOf table env₂ (renameList x y es) = .ok elements ↔
          elementsOf table env₁ es = .ok elements)
  | [], _, _, _, _, _ => by rw [renameList, elementsOf, elementsOf]
  | e :: rest, _, _, _, h, hFresh => by
    obtain ⟨hHead, hTail⟩ := List.forall_mem_append.1 hFresh
    rw [renameList, elementsOf, elementsOf]
    simp only [except_bind_eq_ok, typeOf_rename hx hy e h hHead,
      elementsOf_rename hx hy rest h hTail]

theorem checkSplices_rename (hx : table.Lacks x) (hy : table.Lacks y) :
    ∀ (splices : List (Nat × Expr)) {env₁ env₂ : Environment}, env₁.Renamed x y env₂ →
      (∀ m ∈ Expr.spliceMentions splices, m.name ≠ y) →
        (checkSplices table env₂ (renameSplices x y splices) = .ok () ↔
          checkSplices table env₁ splices = .ok ())
  | [], _, _, _, _ => by rw [renameSplices, checkSplices, checkSplices]
  | (_, e) :: rest, _, _, h, hFresh => by
    obtain ⟨hHead, hTail⟩ := List.forall_mem_append.1 hFresh
    rw [renameSplices, checkSplices, checkSplices]
    simp only [except_bind_eq_ok, typeOf_rename hx hy e h hHead,
      checkSplices_rename hx hy rest h hTail]

end

end Types

/-! ## Lambdas -/

section Lambdas

variable {fn : Lambda}

theorem renamed_inj (hName : name ≠ y) {other : String} (hOther : other ≠ y) :
    renamed x y name = renamed x y other ↔ name = other := by
  rw [renamed, renamed]
  grind

/-- Behind a parameter that is bound under its new name in the second
environment, `x` means in the first what `y` means in the second. -/
theorem Environment.renamed_of_bindAll (typed : List (String × Ty)) :
    ∀ {env₁ env₂ : Environment},
      (∀ name, name ≠ x → name ≠ y → env₁.get? name = env₂.get? name) →
      (x ∉ typed.map Prod.fst → env₁.get? x = env₂.get? y) → y ∉ typed.map Prod.fst →
        (env₁.bindAll (parameterBindings false typed)).Renamed x y
          (env₂.bindAll (parameterBindings false (typed.map (renamedParameter x y)))) := by
  induction typed with
  | nil => exact fun hElsewhere hHere _ => ⟨hHere List.not_mem_nil, hElsewhere⟩
  | cons first rest ih =>
      intro env₁ env₂ hElsewhere hHere hy
      obtain ⟨name, ty⟩ := first
      obtain ⟨hName, hRest⟩ : y ≠ name ∧ y ∉ rest.map Prod.fst := by simpa using hy
      show Renamed x y ((env₁.bind name ty false).bindAll _)
        ((env₂.bind (renamed x y name) ty false).bindAll _)
      apply ih _ _ hRest
      · intro other hOther hNe
        have hSame : renamed x y name = other ↔ name = other := by
          rw [renamed]
          grind
        rw [get?_bind, get?_bind, hElsewhere other hOther hNe]
        simp only [hSame]
      · intro hLater
        have hSame : renamed x y name = y ↔ name = x := by
          rw [renamed]
          grind
        rw [get?_bind, get?_bind]
        by_cases hBound : name = x
        · rw [if_pos hBound, if_pos (hSame.2 hBound)]
        · rw [if_neg hBound, if_neg fun h => hBound (hSame.1 h)]
          apply hHere
          simpa [Ne.symm hBound] using hLater

/-- Which type a parameter gets does not depend on its name. -/
theorem typedParameters?_rename (parameters : List (String × Option Ty)) :
    ∀ expected : List Ty,
      typedParameters? expected (parameters.map (renamedParameter x y)) =
        (typedParameters? expected parameters).map (List.map (renamedParameter x y)) := by
  induction parameters with
  | nil => exact fun _ => rfl
  | cons first rest ih =>
      intro expected
      obtain ⟨name, ty?⟩ := first
      rw [List.map_cons, renamedParameter, typedParameters?, typedParameters?, ih]
      cases ty? <|> expected.head? <;> cases typedParameters? expected.tail rest <;> rfl

/-- A fresh name repeats no parameter. -/
theorem nodup_renamedParameter {parameters : List (String × Option Ty)}
    (hy : y ∉ parameters.map Prod.fst) :
    ((parameters.map (renamedParameter x y)).map Prod.fst).Nodup ↔
      (parameters.map Prod.fst).Nodup := by
  have hNames : (parameters.map (renamedParameter x y)).map Prod.fst =
      (parameters.map Prod.fst).map (renamed x y) := by
    rw [List.map_map, List.map_map]
    rfl
  rw [hNames]
  refine ⟨List.Nodup.of_map _, List.Nodup.map_on fun name hName other hOther hSame => ?_⟩
  exact (renamed_inj (ne_of_mem_of_not_mem hName hy) (ne_of_mem_of_not_mem hOther hy)).1 hSame

/-- A lambda keeps its type, and stays without one if it has none, when one of
its parameters is renamed to a name that does not occur in it. Neither of the
two names may be that of a function. -/
theorem typeOfLambda_rename (env : Environment) (expected : List Ty) (ty : Ty)
    (hParameter : x ∈ fn.parameters.map Prod.fst) (hFresh : y ∉ fn.toExpr.names)
    (hx : table.Lacks x) (hy : table.Lacks y) :
    typeOfLambda table env (fn.renameParameter x y) expected = .ok ty ↔
      typeOfLambda table env fn expected = .ok ty := by
  have hMentions : ∀ m ∈ Mention.scope (fn.parameters.map Prod.fst) fn.body.mentions,
      m.name ≠ y := fun m hm hName => hFresh (List.mem_map.2 ⟨m, hm, hName⟩)
  obtain ⟨hNew, hBody⟩ := fresh_of_scope hMentions
  rw [typeOfLambda_eq_ok, typeOfLambda_eq_ok, Lambda.renameParameter,
    nodup_renamedParameter hNew, typedParameters?_rename]
  refine and_congr_right fun _ => ?_
  cases hTyped : typedParameters? expected fn.parameters with
  | none => simp
  | some typed =>
      have hNames : typed.map Prod.fst = fn.parameters.map Prod.fst :=
        names_of_typedParameters? fn.parameters hTyped
      have hEnv : (env.bindAll (parameterBindings false typed)).Renamed x y
          (env.bindAll (parameterBindings false (typed.map (renamedParameter x y)))) :=
        Environment.renamed_of_bindAll typed (fun _ _ _ => rfl)
          (fun h => absurd hParameter (hNames ▸ h)) (hNames ▸ hNew)
      have hTypes : (typed.map (renamedParameter x y)).map Prod.snd = typed.map Prod.snd :=
        List.map_map
      simp only [Option.map_some, Option.some.injEq, exists_eq_left', hTypes,
        typeOf_rename hx hy fn.body hEnv hBody]

/-- The lambda `{ x, f: Lambda(Int):Int -> "$x" + f({ x: Int -> x }) }`. Its first
parameter is spliced into a text, and bound again by the inner lambda. -/
def splicedAndRebound : Lambda where
  parameters := [("x", none), ("f", some (.function [.int] .int))]
  body := .binary (.text "" [(0, .var "x")]) (.arithmetic .plus)
    (.call "f" [.lambda [("x", some .int)] (.var "x")])

/-- With `y` for the outer `x`, also where `y` means something else outside. -/
theorem typeOfLambda_splicedAndRebound :
    splicedAndRebound.renameParameter "x" "y" =
        ⟨[("y", none), ("f", some (.function [.int] .int))],
          .binary (.text "" [(0, .var "y")]) (.arithmetic .plus)
            (.call "f" [.lambda [("x", some .int)] (.var "x")])⟩ ∧
      typeOfLambda .empty (Environment.empty.bind "y" .boolean true)
          (splicedAndRebound.renameParameter "x" "y") [.string] =
        .ok (.function [.string, .function [.int] .int] .string) := by
  refine ⟨rfl, ?_⟩
  have hType : typeOfLambda .empty (Environment.empty.bind "y" .boolean true)
      splicedAndRebound [.string] =
        .ok (.function [.string, .function [.int] .int] .string) := by decide
  exact (typeOfLambda_rename _ _ _ (by decide) (by decide) (by decide) (by decide)).2 hType

end Lambdas

end ScriptLang
