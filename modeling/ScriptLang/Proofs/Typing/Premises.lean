import ScriptLang.Proofs.Outcome
import ScriptLang.Typing.Inference

/-!
# What the premises of rules say

Inference and the checks of statements are put together from small rules that
accept or refuse the types before them. For each of them: what it accepts, and
the result it then gives.
-/

namespace ScriptLang

variable {ty left right operand : Ty} {env : Environment} {name : String}

/-! ## Operators -/

theorem arithmeticType_eq_some {op : ArithmeticOp} :
    arithmeticType op left right = some ty ↔
      (left = .int ∧ right = .int ∧ ty = .int) ∨
        (op = .plus ∧ left = .string ∧ (right = .int ∨ right = .string) ∧ ty = .string) := by
  rw [arithmeticType.eq_def]
  split <;> grind

theorem applyOperator_eq_ok {operator : String} {result? : Option Ty} :
    applyOperator operator left right result? = .ok ty ↔ result? = some ty := by
  cases result? <;> simp [applyOperator]

theorem expectOperand_eq_ok {operator : String} {expected : Ty} :
    expectOperand operator expected operand = .ok ty ↔ operand = expected ∧ ty = expected := by
  rw [expectOperand]
  split <;> grind

/-! ## Types -/

theorem expectType_eq_ok {expected received : Ty} :
    expectType expected received = .ok () ↔ received = expected := by
  rw [expectType]
  split <;> simp_all

theorem expectBasic_eq_ok {kind : Basic} : expectBasic ty = .ok kind ↔ ty = .basic kind := by
  cases ty <;> simp [expectBasic]

/-- The elements of a collection share its element type, or they differ and it
holds anything. -/
theorem elementType_eq_ok {constructor : String} {elements : List Basic} {element : Basic} :
    elementType constructor elements = .ok element ↔
      (elements ≠ [] ∧ ∀ other ∈ elements, other = element) ∨
        (element = .any ∧ ∃ one ∈ elements, ∃ other ∈ elements, one ≠ other) := by
  cases elements with
  | nil => simp [elementType]
  | cons first rest =>
      rw [elementType]
      have hFirst : first ∈ first :: rest := List.mem_cons_self
      by_cases hSame : ∀ other ∈ rest, other = first
      · have hAll : rest.all (· == first) = true := by simpa using hSame
        have hEvery : ∀ other ∈ first :: rest, other = first := by simpa using hSame
        rw [if_pos hAll]
        constructor
        · rintro ⟨⟩
          exact .inl ⟨nofun, hEvery⟩
        · rintro (⟨-, hElement⟩ | ⟨-, one, hOne, other, hOther, hDiffer⟩)
          · rw [hElement first hFirst]
          · exact absurd ((hEvery one hOne).trans (hEvery other hOther).symm) hDiffer
      · have hNotAll : ¬ rest.all (· == first) = true := by simpa using hSame
        rw [if_neg hNotAll]
        constructor
        · rintro ⟨⟩
          obtain ⟨other, hOther, hDiffer⟩ : ∃ other ∈ rest, other ≠ first := by
            simpa using hSame
          exact .inr ⟨rfl, other, List.mem_cons_of_mem _ hOther, first, hFirst, hDiffer⟩
        · rintro (⟨-, hElement⟩ | ⟨rfl, -⟩)
          · have hEvery : ∀ other ∈ rest, other = first := fun other hOther =>
              (hElement other (List.mem_cons_of_mem _ hOther)).trans (hElement first hFirst).symm
            exact absurd hEvery hSame
          · rfl

/-! ## Names -/

theorem Environment.contains_eq_false : env.contains name = false ↔ env.get? name = none := by
  rw [contains, Option.isSome_eq_false_iff, Option.isNone_iff_eq_none]

theorem typeOfVariable_eq_ok :
    typeOfVariable env name = .ok ty ↔
      ∃ binding, env.get? name = some binding ∧ binding.ty = ty := by
  rw [typeOfVariable]
  cases env.get? name <;> simp

theorem writable_eq_ok {binding : Binding} :
    env.writable name = .ok binding ↔
      env.get? name = some binding ∧ binding.readOnly = false := by
  rw [Environment.writable]
  cases hBound : env.get? name with
  | none => simp
  | some found =>
      by_cases hFlag : found.readOnly = true
      · simp only [if_pos hFlag]
        grind
      · simp only [if_neg hFlag]
        grind

theorem initializerParameter_eq_ok {constructor : String}
    {parameters : List (String × Option Ty)} :
    initializerParameter constructor parameters = .ok name ↔
      ∃ ty?, parameters = [(name, ty?)] ∧ (ty? = none ∨ ty? = some .int) := by
  rw [initializerParameter.eq_def]
  split <;> grind

theorem resolveCall_eq_ok {table : SignatureTable} {signature : Signature} :
    resolveCall table env signature = .ok ty ↔
      (∃ f, table.get? signature = some f ∧ f.result = ty) ∨
        (table.get? signature = none ∧ ∃ parameters readOnly,
          env.get? signature.name = some ⟨.function parameters ty, readOnly⟩) := by
  rw [resolveCall.eq_def]
  grind

end ScriptLang
