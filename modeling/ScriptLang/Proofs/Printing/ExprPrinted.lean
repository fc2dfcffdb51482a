import ScriptLang.Proofs.Printing.Canonical
import ScriptLang.Proofs.Printing.Printer
import ScriptLang.Proofs.Reading.Locality

/-!
# Printed expressions are derived

The canonical tokens of a plain expression are derived as that expression
(`Expr.derives_tokens`). Each part is derived on its own, up to the end, and
`Phrase.Derives.extend` then puts it in front of the closing token, the comma or
the `else` that the printer puts behind it.
-/

namespace ScriptLang

variable {e left right : Expr} {ts ts₁ ts₂ rest : List Token}

/-! ## Parts in brackets -/

theorem parens_append (ts rest : List Token) :
    parens ts ++ rest = .bracket .openParen :: (ts ++ .bracket .closeParen :: rest) := by
  simp [parens]

theorem derives_parens {power : Power} (h : (Phrase.expr .lowest e).Derives embedded ts [])
    (hRank : headRank rest ≤ power.rank) :
    (Phrase.expr power e).Derives embedded (parens ts ++ rest) rest := by
  rw [parens_append]
  exact .expr (.grouping (derives_enclosed h rfl)) (.stop hRank)

theorem derives_branch (h : (Phrase.expr .lowest e).Derives embedded ts [])
    (hRank : headRank rest = 0) :
    (Phrase.branch e).Derives embedded (parens ts ++ rest) rest :=
  .branchBare (by simp [parens]) (derives_parens h (Nat.le_of_eq hRank))

theorem derives_lambda {parameters : List (String × Option Ty)}
    (h : (Phrase.expr .lowest e).Derives embedded ts []) :
    (Phrase.lambda ⟨parameters, e⟩).Derives embedded (lambdaTokens parameters ts ++ rest)
      rest := by
  simp only [lambdaTokens, List.cons_append, List.append_assoc, List.nil_append]
  exact Phrase.Derives.lambdaParameters (m := 0) (derives_enclosed h rfl)

/-! ## Operators -/

/-- Behind a whole operand in parentheses stands an operator with its own. -/
theorem derives_binary {op : BinaryOp} (hLeft : (Phrase.expr .lowest left).Derives embedded ts₁ [])
    (hRight : (Phrase.expr .lowest right).Derives embedded ts₂ []) :
    (Phrase.expr .lowest (.binary left op right)).Derives embedded
      (parens ts₁ ++ .infixMark (.binary op) :: parens ts₂) [] := by
  have hRead : (Phrase.expr op.power right).Derives embedded (parens ts₂ ++ []) [] :=
    derives_parens hRight (Nat.zero_le _)
  rw [List.append_nil] at hRead
  rw [parens_append]
  exact .expr (.grouping (derives_enclosed hLeft rfl))
    (Phrase.Derives.binary (m := 0) op.power_pos hRead (.stop (Nat.le_refl _)))

theorem derives_range (hFirst : (Phrase.expr .lowest left).Derives embedded ts₁ [])
    (hLast : (Phrase.expr .lowest right).Derives embedded ts₂ []) :
    (Phrase.expr .lowest (.range left right)).Derives embedded
      (parens ts₁ ++ .symbol .dotDot :: parens ts₂) [] := by
  have hRead : (Phrase.expr .range right).Derives embedded (parens ts₂ ++ []) [] :=
    derives_parens hLast (Nat.zero_le _)
  rw [List.append_nil] at hRead
  rw [parens_append]
  exact .expr (.grouping (derives_enclosed hFirst rfl))
    (.range (by decide) hRead (.stop (Nat.le_refl _)))

/-! ## Conditionals -/

section Conditionals

variable {condition thenBranch elseBranch : Expr} {ts₃ : List Token}

theorem derives_ifThen (hCondition : (Phrase.expr .lowest condition).Derives embedded ts₁ [])
    (hThen : (Phrase.expr .lowest thenBranch).Derives embedded ts₂ []) :
    (Phrase.operand (.ifThen condition thenBranch)).Derives embedded
      (.keyword .ifWord :: (parens ts₁ ++ parens ts₂)) [] := by
  have hBranch : (Phrase.branch thenBranch).Derives embedded (parens ts₂ ++ []) [] :=
    derives_branch hThen rfl
  rw [List.append_nil] at hBranch
  rw [parens_append]
  exact Phrase.Derives.ifThen (m := 0) (derives_closeParen hCondition) hBranch not_elseAhead_nil

theorem derives_ifElse (hCondition : (Phrase.expr .lowest condition).Derives embedded ts₁ [])
    (hThen : (Phrase.expr .lowest thenBranch).Derives embedded ts₂ [])
    (hElse : (Phrase.expr .lowest elseBranch).Derives embedded ts₃ []) :
    (Phrase.operand (.ifElse condition thenBranch elseBranch)).Derives embedded
      (.keyword .ifWord :: (parens ts₁ ++ (parens ts₂ ++ .keyword .elseWord :: parens ts₃)))
      [] := by
  have hBranch : (Phrase.branch elseBranch).Derives embedded (parens ts₃ ++ []) [] :=
    derives_branch hElse rfl
  rw [List.append_nil] at hBranch
  rw [parens_append]
  exact Phrase.Derives.ifElse (m := 0) (n := 0) (k := 0) (derives_closeParen hCondition)
    (derives_branch hThen rfl) hBranch

end Conditionals

theorem derives_generate {kind : Collection} {parameters : List (String × Option Ty)}
    (hSize : (Phrase.expr .lowest left).Derives embedded ts₁ [])
    (hBody : (Phrase.expr .lowest right).Derives embedded ts₂ []) :
    (Phrase.operand (.generate kind left parameters right)).Derives embedded
      (.typeWord (.collection kind) ::
        parens (ts₁ ++ .symbol .comma :: lambdaTokens parameters ts₂)) [] := by
  have hLambda : (Phrase.lambda ⟨parameters, right⟩).Derives embedded
      (lambdaTokens parameters ts₂ ++ [.bracket .closeParen]) [.bracket .closeParen] :=
    derives_lambda hBody
  simp only [parens, List.append_assoc, List.cons_append]
  exact Phrase.Derives.generateInside (m := 0) (hSize.extend (.of_comma 0)) hLambda

/-! ## Expressions -/

mutual

/-- The canonical tokens of a plain expression are derived as that expression. -/
theorem Expr.derives_tokens :
    ∀ e : Expr, e.Plain → (Phrase.expr .lowest e).Derives embedded e.tokens []
  | .int _, _ => .expr .int (.stop (Nat.le_refl _))
  | .boolean _, _ => .expr .truth (.stop (Nat.le_refl _))
  | .text remainder splices, h => by
    obtain ⟨rfl, hPlain⟩ := h
    have hText : Template.parse embedded remainder 0 = .ok (.text remainder []) :=
      Template.parse_plain hPlain
    exact .expr (.text hText) (.stop (Nat.le_refl _))
  | .var _, _ => .expr .name (.stop (Nat.le_refl _))
  | .binary left _ right, h =>
    derives_binary (derives_tokens left h.1) (derives_tokens right h.2)
  | .not operand, h => by
    have hOperand : (Phrase.expr .unary operand).Derives embedded (parens operand.tokens ++ [])
        [] := derives_parens (derives_tokens operand h) (Nat.zero_le _)
    rw [List.append_nil] at hOperand
    exact .expr (.negation hOperand) (.stop (Nat.le_refl _))
  | .step _ _ true, _ => .expr .step (.stop (Nat.le_refl _))
  | .step _ _ false, _ => .expr .name (.stepBehind (by decide) (.stop (Nat.le_refl _)))
  | .ifThen condition thenBranch, h =>
    .expr (derives_ifThen (derives_tokens condition h.1) (derives_tokens thenBranch h.2))
      (.stop (Nat.le_refl _))
  | .ifElse condition thenBranch elseBranch, h =>
    .expr (derives_ifElse (derives_tokens condition h.1) (derives_tokens thenBranch h.2.1)
      (derives_tokens elseBranch h.2.2)) (.stop (Nat.le_refl _))
  | .range first last, h => derives_range (derives_tokens first h.1) (derives_tokens last h.2)
  | .generate _ size _ body, h =>
    .expr (derives_generate (derives_tokens size h.1) (derives_tokens body h.2))
      (.stop (Nat.le_refl _))
  | .literal _ items, h =>
    .expr (.literal (derives_listTokens items h [])) (.stop (Nat.le_refl _))
  | .lambda parameters body, h => by
    have hLambda : (Phrase.lambda ⟨parameters, body⟩).Derives embedded
        (lambdaTokens parameters body.tokens ++ []) [] := derives_lambda (derives_tokens body h)
    rw [List.append_nil] at hLambda
    exact .expr (.lambdaOperand hLambda) (.stop (Nat.le_refl _))
  | .call _ arguments, h =>
    .expr .name (.call (by decide) (derives_listTokens arguments h []) (.stop (Nat.le_refl _)))
  | .index _ inside, h =>
    .expr .name (.index (by decide) ((derives_tokens inside h).extend (.of_bracket 0 rfl))
      (.stop (Nat.le_refl _)))

theorem Expr.derives_listTokens : ∀ es : List Expr,
    EveryTextIn (fun remainder splices => splices = [] ∧ PlainText remainder) es →
    ∀ rest, (Phrase.arguments es).Derives embedded
      (listTokens es ++ .bracket .closeParen :: rest) rest
  | [], _, rest => Phrase.Derives.argumentsNone (m := 0)
  | e :: es, h, rest => by
    rw [listTokens, List.append_assoc]
    have hMore := derives_moreTokens es h.2 rest
    refine Phrase.Derives.argumentsSome (m := 0) (n := 0) ((derives_tokens e h.1).extend ?_) hMore
    cases es with
    | nil => exact .of_bracket 0 rfl
    | cons => exact .of_comma 0

theorem Expr.derives_moreTokens : ∀ es : List Expr,
    EveryTextIn (fun remainder splices => splices = [] ∧ PlainText remainder) es →
    ∀ rest, (Phrase.moreArguments es).Derives embedded
      (moreTokens es ++ .bracket .closeParen :: rest) rest
  | [], _, rest => .moreClose
  | e :: es, h, rest => by
    rw [moreTokens, List.cons_append, List.cons_append, List.append_assoc]
    have hMore := derives_moreTokens es h.2 rest
    refine Phrase.Derives.moreNext (m := 0) (n := 0) ((derives_tokens e h.1).extend ?_) hMore
    cases es with
    | nil => exact .of_bracket 0 rfl
    | cons => exact .of_comma 0

end

end ScriptLang
