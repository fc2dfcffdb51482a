import ScriptLang.Proofs.Reading.ExprGrammar

/-!
# What is read as an expression is derived

One lemma for each form of an operand and of an operator: if the parser of the
form succeeds, a rule of the grammar derives what it read. The lemmas speak of
any parser for the expressions inside that reads derived expressions only
(`ReadsDerived`); `exprAt_readsDerived` ties the knot by induction on the bound.
-/

namespace ScriptLang

open ScriptLang.Parser

/-- Every expression that the parser reads is derived. -/
def ReadsDerived (embed : String → Except ParseError Expr) (expr : Power → Parser Expr) : Prop :=
  ∀ (power : Power) (c : Cursor) (e : Expr) (c' : Cursor), expr power c = .ok e c' →
    (Phrase.expr power e).Derives embed c.rest c'.rest

section Annotations

variable {c c' : Cursor} {ty? : Option Ty} {parameters : List (String × Option Ty)}

theorem parseAnnotation?_spelled
    (hRun : OperandForm.parseAnnotation? Grammar.standard.parseType c = .ok ty? c') :
    c.rest = annotationTokens ty? ++ c'.rest := by
  simp only [OperandForm.parseAnnotation?, bind_eq_ok, isAt_eq_ok] at hRun
  obtain ⟨here, m, ⟨hHere, rfl⟩, hRun⟩ := hRun
  rcases branch_cases hRun with ⟨hThere, hRun⟩ | ⟨-, hRun⟩
  · simp only [bind_eq_ok, advance_eq_ok, pure_eq_ok] at hRun
    obtain ⟨t, c₁, ⟨hRest, -⟩, ty, c₂, hType, rfl, rfl⟩ := hRun
    have hKind := Cursor.kind_of_isAt (hHere.trans hThere) hRest
    rw [hRest, Token.kind_eq_symbol.1 hKind, parseType_spelled hType]
    rfl
  · obtain ⟨rfl, rfl⟩ := pure_eq_ok.1 hRun
    rfl

/-- Parameters are read as they are spelled, and there is at least one. -/
theorem parseParameters_spelled : ∀ (bound : Nat) (c c' : Cursor)
    (parameters : List (String × Option Ty)),
    OperandForm.parseParameters Grammar.standard.parseType bound c = .ok parameters c' →
      parameters ≠ [] ∧ c.rest = parameterListTokens parameters ++ c'.rest := by
  intro bound
  induction bound with
  | zero => exact fun c c' parameters hRun => absurd hRun unexpected_ne_ok
  | succ bound ih =>
      intro c c' parameters hRun
      simp only [OperandForm.parseParameters, bind_eq_ok, identifier_eq_ok, isAt_eq_ok] at hRun
      obtain ⟨name, c₁, ⟨hName, -⟩, ty?, c₂, hTy, here, _, ⟨hHere, rfl⟩, hRun⟩ := hRun
      have hAnnotation := parseAnnotation?_spelled hTy
      rcases branch_cases hRun with ⟨hThere, hRun⟩ | ⟨-, hRun⟩
      · simp only [bind_eq_ok, advance_eq_ok, pure_eq_ok] at hRun
        obtain ⟨t, c₃, ⟨hRest, -⟩, more, c₄, hMore, rfl, rfl⟩ := hRun
        have hKind := Cursor.kind_of_isAt (hHere.trans hThere) hRest
        obtain ⟨hNonempty, hSpelled⟩ := ih _ _ _ hMore
        obtain ⟨p, ps, rfl⟩ := List.exists_cons_of_ne_nil hNonempty
        refine ⟨List.cons_ne_nil _ _, ?_⟩
        rw [hName, hAnnotation, hRest, Token.kind_eq_symbol.1 hKind, hSpelled,
          parameterListTokens, parameterListTokens, listed_cons_cons, parameterTokens]
        simp
      · simp only [bind_eq_ok, expect_eq_ok, pure_eq_ok, Token.kind_eq_symbol] at hRun
        obtain ⟨_, c₃, ⟨rfl, hArrow, -⟩, rfl, rfl⟩ := hRun
        refine ⟨List.cons_ne_nil _ _, ?_⟩
        rw [hName, hAnnotation, hArrow]
        simp [parameterListTokens, listed, listedMore, parameterTokens]

theorem parseParameterList_spelled
    (hRun : OperandForm.parseParameterList Grammar.standard.parseType c = .ok parameters c') :
    c.rest = parameterListTokens parameters ++ c'.rest := by
  simp only [OperandForm.parseParameterList, bind_eq_ok, isAt_eq_ok] at hRun
  obtain ⟨here, m, ⟨hHere, rfl⟩, hRun⟩ := hRun
  rcases branch_cases hRun with ⟨hThere, hRun⟩ | ⟨-, hRun⟩
  · simp only [bind_eq_ok, advance_eq_ok, pure_eq_ok] at hRun
    obtain ⟨t, c₁, ⟨hRest, -⟩, rfl, rfl⟩ := hRun
    have hKind := Cursor.kind_of_isAt (hHere.trans hThere) hRest
    rw [hRest, Token.kind_eq_symbol.1 hKind]
    rfl
  · exact (parseParameters_spelled _ _ _ _ hRun).2

end Annotations

/-! ## Operands -/

section Operands

variable {embed : String → Except ParseError Expr} {expr : Power → Parser Expr}
  {c c' : Cursor} {e : Expr} {fn : Lambda} {es : List Expr}

theorem parsePrimary_derived (hRun : OperandForm.parsePrimary embed c = .ok e c') :
    (Phrase.operand e).Derives embed c.rest c'.rest := by
  simp only [OperandForm.parsePrimary, bind_eq_ok, position_eq_ok, advance_eq_ok] at hRun
  obtain ⟨n, _, ⟨hPosition, rfl⟩, t, c₁, ⟨hRest, -⟩, hRun⟩ := hRun
  rw [hRest]
  cases t with
  | int v =>
      obtain ⟨rfl, rfl⟩ := pure_eq_ok.1 hRun
      exact .int
  | name n =>
      obtain ⟨rfl, rfl⟩ := pure_eq_ok.1 hRun
      exact .name
  | text contents =>
      obtain ⟨hText, rfl⟩ := ofExcept_eq_ok.1 hRun
      exact .text hText
  | keyword word =>
      cases word with
      | truth b =>
          obtain ⟨rfl, rfl⟩ := pure_eq_ok.1 hRun
          exact .truth
      | _ => exact absurd hRun throw_ne_ok
  | _ => exact absurd hRun throw_ne_ok

theorem parseNegation_derived (hExpr : ReadsDerived embed expr)
    (hRun : OperandForm.parseNegation expr c = .ok e c') :
    (Phrase.operand e).Derives embed c.rest c'.rest := by
  simp only [OperandForm.parseNegation, bind_eq_ok, expect_eq_ok, pure_eq_ok,
    Token.kind_eq_unaryMark] at hRun
  obtain ⟨_, c₁, ⟨rfl, hMark, -⟩, operand, c₂, hOperand, rfl, rfl⟩ := hRun
  rw [hMark]
  exact .negation (hExpr _ _ _ _ hOperand)

theorem parseStep_derived (hRun : OperandForm.parseStep c = .ok e c') :
    (Phrase.operand e).Derives embed c.rest c'.rest := by
  simp only [OperandForm.parseStep, bind_eq_ok, position_eq_ok, advance_eq_ok] at hRun
  obtain ⟨n, _, ⟨hPosition, rfl⟩, t, c₁, ⟨hRest, -⟩, hRun⟩ := hRun
  rw [hRest]
  cases t with
  | unaryMark mark =>
      cases mark with
      | step op =>
          simp only [bind_eq_ok, identifier_eq_ok, pure_eq_ok] at hRun
          obtain ⟨name, c₂, ⟨hName, -⟩, rfl, rfl⟩ := hRun
          rw [hName]
          exact .step
      | not => exact absurd hRun throw_ne_ok
  | _ => exact absurd hRun throw_ne_ok

theorem parseEnclosed_derived {close : Bracket} (hExpr : ReadsDerived embed expr)
    (hRun : OperandForm.parseEnclosed expr close c = .ok e c') :
    (Phrase.enclosed close e).Derives embed c.rest c'.rest := by
  simp only [OperandForm.parseEnclosed, bind_eq_ok, skipLineBreaks_eq_ok, expect_eq_ok,
    pure_eq_ok, Token.kind_eq_bracket] at hRun
  obtain ⟨_, c₁, rfl, e, c₂, hInside, _, c₃, rfl, _, c₄, ⟨rfl, hClose, -⟩, rfl, rfl⟩ := hRun
  have hDerived := hExpr _ _ _ _ hInside
  obtain ⟨m, hBefore, -⟩ := skipLineBreaks_rest c
  obtain ⟨n, hBehind, -⟩ := skipLineBreaks_rest c₂
  rw [hBehind, hClose] at hDerived
  rw [hBefore]
  exact .enclosed hDerived

theorem parseGrouping_derived (hExpr : ReadsDerived embed expr)
    (hRun : OperandForm.parseGrouping expr c = .ok e c') :
    (Phrase.operand e).Derives embed c.rest c'.rest := by
  simp only [OperandForm.parseGrouping, bind_eq_ok, expect_eq_ok, Token.kind_eq_bracket] at hRun
  obtain ⟨_, c₁, ⟨rfl, hOpen, -⟩, hInside⟩ := hRun
  rw [hOpen]
  exact .grouping (parseEnclosed_derived hExpr hInside)

theorem parseLambda_derived (hExpr : ReadsDerived embed expr)
    (hRun : OperandForm.parseLambda expr Grammar.standard.parseType c = .ok fn c') :
    (Phrase.lambda fn).Derives embed c.rest c'.rest := by
  simp only [OperandForm.parseLambda, bind_eq_ok, skipLineBreaks_eq_ok, expect_eq_ok,
    pure_eq_ok, Token.kind_eq_bracket] at hRun
  obtain ⟨_, c₁, ⟨rfl, hOpen, -⟩, _, c₂, rfl, parameters, c₃, hParameters, body, c₄, hBody,
    rfl, rfl⟩ := hRun
  have hDerived := parseEnclosed_derived hExpr hBody
  obtain ⟨m, hBefore, -⟩ := skipLineBreaks_rest c₁
  rw [hOpen, hBefore]
  simp only [orRewind] at hParameters
  cases hList : OperandForm.parseParameterList Grammar.standard.parseType c₁.skipLineBreaks with
  | ok ps c₅ =>
      simp only [hList, EStateM.Result.ok.injEq] at hParameters
      obtain ⟨rfl, rfl⟩ := hParameters
      rw [parseParameterList_spelled hList]
      exact .lambdaParameters hDerived
  | error e c₅ =>
      simp only [hList, EStateM.Result.ok.injEq] at hParameters
      obtain ⟨rfl, rfl⟩ := hParameters
      exact .lambdaBare (hDerived.enclosed_breaks m)

theorem parseBranch_derived (hExpr : ReadsDerived embed expr)
    (hRun : OperandForm.parseBranch expr c = .ok e c') :
    (Phrase.branch e).Derives embed c.rest c'.rest := by
  simp only [OperandForm.parseBranch, bind_eq_ok, isAt_eq_ok] at hRun
  obtain ⟨here, m, ⟨hHere, rfl⟩, hRun⟩ := hRun
  rcases branch_cases hRun with ⟨hThere, hRun⟩ | ⟨hThere, hRun⟩
  · simp only [bind_eq_ok, advance_eq_ok] at hRun
    obtain ⟨t, c₁, ⟨hRest, -⟩, hInside⟩ := hRun
    have hKind := Cursor.kind_of_isAt (hHere.trans hThere) hRest
    rw [hRest, Token.kind_eq_bracket.1 hKind]
    exact .branchBraced (parseEnclosed_derived hExpr hInside)
  · have hNotAt : ¬ c.isAt (.bracket .openCurly) = true := by rwa [hHere]
    exact .branchBare (Cursor.head?_ne_of_not_isAt hNotAt rfl) (hExpr _ _ _ _ hRun)

theorem parseCondition_derived (hExpr : ReadsDerived embed expr)
    (hRun : OperandForm.parseCondition expr c = .ok e c') :
    ∃ ts, c.rest = .bracket .openParen :: ts ∧
      (Phrase.expr .lowest e).Derives embed ts (.bracket .closeParen :: c'.rest) := by
  simp only [OperandForm.parseCondition, bind_eq_ok, expect_eq_ok, pure_eq_ok,
    Token.kind_eq_bracket] at hRun
  obtain ⟨_, c₁, ⟨rfl, hOpen, -⟩, condition, c₂, hCondition, _, c₃, ⟨rfl, hClose, -⟩, rfl, rfl⟩
    := hRun
  refine ⟨_, hOpen, ?_⟩
  rw [← hClose]
  exact hExpr _ _ _ _ hCondition

theorem parseConditional_derived (hExpr : ReadsDerived embed expr)
    (hRun : OperandForm.parseConditional expr c = .ok e c') :
    (Phrase.operand e).Derives embed c.rest c'.rest := by
  simp only [OperandForm.parseConditional, bind_eq_ok, skipLineBreaks_eq_ok, expect_eq_ok,
    Token.kind_eq_keyword] at hRun
  obtain ⟨_, c₁, ⟨rfl, hIf, -⟩, condition, c₂, hCondition, _, c₃, rfl, thenBranch, c₄, hThen,
    else?, c₅, hElse, hRun⟩ := hRun
  obtain ⟨ts, hOpen, hConditionDerived⟩ := parseCondition_derived hExpr hCondition
  obtain ⟨m, hBefore, -⟩ := skipLineBreaks_rest c₂
  rw [hBefore] at hConditionDerived
  have hThenDerived := parseBranch_derived hExpr hThen
  rw [hIf, hOpen]
  rcases elseBranch?_cases hElse with ⟨rfl, hNoElse, rfl⟩ | ⟨elseBranch, n, c₆, rfl, hAhead, hElse⟩
  · obtain ⟨rfl, rfl⟩ := pure_eq_ok.1 hRun
    exact .ifThen hConditionDerived hThenDerived hNoElse
  · obtain ⟨rfl, rfl⟩ := pure_eq_ok.1 hRun
    simp only [bind_eq_ok, skipLineBreaks_eq_ok] at hElse
    obtain ⟨_, c₇, rfl, hElse⟩ := hElse
    obtain ⟨k, hBehind, -⟩ := skipLineBreaks_rest c₆
    rw [hAhead, hBehind] at hThenDerived
    exact .ifElse hConditionDerived hThenDerived (parseBranch_derived hExpr hElse)

theorem parseGenerator_derived {kind : Collection} {ts : List Token}
    (hExpr : ReadsDerived embed expr) (hHead : c.rest = .typeWord (.collection kind) :: ts)
    (hRun : OperandForm.parseGenerator expr Grammar.standard.parseType c = .ok e c') :
    (Phrase.operand e).Derives embed c.rest c'.rest := by
  simp only [OperandForm.parseGenerator, OperandForm.parseInitializer, bind_eq_ok,
    advance_eq_ok, expect_eq_ok, isAt_eq_ok, Token.kind_eq_bracket] at hRun
  obtain ⟨word, c₁, ⟨hWord, -⟩, _, c₂, ⟨rfl, hOpen, -⟩, size, c₃, hSize, fn, c₄,
    ⟨here, _, ⟨hHere, rfl⟩, hInitializer⟩, hRun⟩ := hRun
  obtain ⟨rfl, rfl⟩ := List.cons.inj (hHead.symm.trans hWord)
  have hSizeDerived := hExpr _ _ _ _ hSize
  have hMade : e = .generate kind size fn.parameters fn.body ∧ c₄ = c' := by
    cases kind <;> cases hRun <;> exact ⟨rfl, rfl⟩
  obtain ⟨rfl, rfl⟩ := hMade
  rw [hHead, hOpen]
  rcases branch_cases hInitializer with ⟨hThere, hInside⟩ | ⟨-, hBehind⟩
  · simp only [bind_eq_ok, advance_eq_ok, skipLineBreaks_eq_ok, expect_eq_ok, pure_eq_ok,
      Token.kind_eq_bracket] at hInside
    obtain ⟨t, c₅, ⟨hComma, -⟩, _, c₆, rfl, fn, c₇, hLambda, _, c₈, ⟨rfl, hClose, -⟩, rfl, rfl⟩
      := hInside
    have hKind := Cursor.kind_of_isAt (hHere.trans hThere) hComma
    obtain ⟨m, hBreaks, -⟩ := skipLineBreaks_rest c₅
    have hLambdaDerived := parseLambda_derived hExpr hLambda
    rw [hComma, Token.kind_eq_symbol.1 hKind, hBreaks] at hSizeDerived
    rw [hClose] at hLambdaDerived
    exact .generateInside hSizeDerived hLambdaDerived
  · simp only [bind_eq_ok, expect_eq_ok, Token.kind_eq_bracket] at hBehind
    obtain ⟨_, c₅, ⟨rfl, hClose, -⟩, hLambda⟩ := hBehind
    rw [hClose] at hSizeDerived
    exact .generateBehind hSizeDerived (parseLambda_derived hExpr hLambda)

/-- Line breaks that are skipped stand between the tokens before and after. -/
theorem skipLineBreaks_length (hRun : skipLineBreaks c = .ok () c') :
    c'.rest.length ≤ c.rest.length := by
  obtain ⟨n, hRest, -⟩ := skipLineBreaks_rest c
  rw [skipLineBreaks_eq_ok.1 hRun] at hRest
  rw [hRest, List.length_append]
  omega

theorem parseArguments_derived (hExpr : ReadsDerived embed expr)
    (hRun : OperandForm.parseArguments expr c = .ok es c') :
    (Phrase.arguments es).Derives embed c.rest c'.rest := by
  obtain ⟨c₁, hGap, hCases⟩ := items_cases hRun
  obtain ⟨m, hBefore, -⟩ := skipLineBreaks_rest c
  rw [skipLineBreaks_eq_ok.1 hGap] at hBefore
  rw [hBefore]
  rcases hCases with ⟨hClose, rfl⟩ | ⟨e, c₂, c₃, es, hFirst, hGap', hMore, rfl⟩
  · rw [hClose]
    exact .argumentsNone
  · obtain ⟨n, hBehind, -⟩ := skipLineBreaks_rest c₂
    rw [skipLineBreaks_eq_ok.1 hGap'] at hBehind
    have hFirstDerived := hExpr _ _ _ _ hFirst
    rw [hBehind] at hFirstDerived
    refine .argumentsSome hFirstDerived ?_
    refine moreItems_sound (fun es ts rest => (Phrase.moreArguments es).Derives embed ts rest)
      (fun rest => .moreClose) ?_ (fun _ _ h => skipLineBreaks_length h)
      (fun _ _ _ h => (hExpr _ _ _ _ h).length_le) _ _ _ _ (Nat.le_refl _) hMore
    intro c₀ c₁ c₂ c₃ e es rest hGap₁ hItem hGap₂ hRead
    obtain ⟨k, hBefore, -⟩ := skipLineBreaks_rest c₀
    obtain ⟨l, hBehind, -⟩ := skipLineBreaks_rest c₂
    rw [skipLineBreaks_eq_ok.1 hGap₁] at hBefore
    rw [skipLineBreaks_eq_ok.1 hGap₂] at hBehind
    have hDerived := hExpr _ _ _ _ hItem
    rw [hBehind] at hDerived
    rw [hBefore]
    exact .moreNext hDerived hRead

theorem parseLiteral_derived {kind : Collection} {ts : List Token}
    (hExpr : ReadsDerived embed expr) (hHead : c.rest = .keyword (.literal kind) :: ts)
    (hRun : OperandForm.parseLiteral expr c = .ok e c') :
    (Phrase.operand e).Derives embed c.rest c'.rest := by
  simp only [OperandForm.parseLiteral, bind_eq_ok, advance_eq_ok, expect_eq_ok,
    Token.kind_eq_bracket] at hRun
  obtain ⟨word, c₁, ⟨hWord, -⟩, _, c₂, ⟨rfl, hOpen, -⟩, es, c₃, hItems, hRun⟩ := hRun
  obtain ⟨rfl, rfl⟩ := List.cons.inj (hHead.symm.trans hWord)
  have hMade : e = .literal kind es ∧ c₃ = c' := by
    cases kind <;> cases hRun <;> exact ⟨rfl, rfl⟩
  obtain ⟨rfl, rfl⟩ := hMade
  rw [hHead, hOpen]
  exact .literal (parseArguments_derived hExpr hItems)

/-- The form that the grammar gives for a token reads an operand. -/
theorem parseOperand_derived (hExpr : ReadsDerived embed expr)
    (hRun : Grammar.standard.parseOperand embed expr c = .ok e c') :
    (Phrase.operand e).Derives embed c.rest c'.rest := by
  rcases c with ⟨n, _ | ⟨t, ts⟩⟩
  · exact absurd hRun unexpected_ne_ok
  simp only [Grammar.parseOperand, Cursor.kind?_cons] at hRun
  cases hForm : Grammar.standard.operand t.kind with
  | none =>
      rw [hForm] at hRun
      exact absurd hRun unexpected_ne_ok
  | some form =>
      rw [hForm] at hRun
      cases form with
      | primary => exact parsePrimary_derived hRun
      | negation => exact parseNegation_derived hExpr hRun
      | step => exact parseStep_derived hRun
      | grouping => exact parseGrouping_derived hExpr hRun
      | lambda =>
          simp only [OperandForm.parse, bind_eq_ok, pure_eq_ok] at hRun
          obtain ⟨fn, c₁, hLambda, rfl, rfl⟩ := hRun
          exact .lambdaOperand (parseLambda_derived hExpr hLambda)
      | conditional => exact parseConditional_derived hExpr hRun
      | generator =>
          obtain ⟨kind, hKind⟩ := operand_eq_some.1 hForm
          rw [Token.kind_eq_typeWord] at hKind
          exact parseGenerator_derived hExpr (by rw [hKind]) hRun
      | literal =>
          obtain ⟨kind, hKind⟩ := operand_eq_some.1 hForm
          rw [Token.kind_eq_keyword] at hKind
          exact parseLiteral_derived hExpr (by rw [hKind]) hRun

end Operands

/-! ## Operators -/

section Operators

variable {embed : String → Except ParseError Expr} {expr : Power → Parser Expr}
  {c c' : Cursor} {left left' : Expr} {level : Power}

/-- An operator of a level takes tokens, and the climb goes on behind it with
what it made of its left operand. -/
structure Extends (embed : String → Except ParseError Expr) (level : Power) (left : Expr)
    (ts : List Token) (left' : Expr) (ts' : List Token) : Prop where
  length_lt : ts'.length < ts.length
  climb : ∀ (power : Power) (e : Expr) (rest : List Token), power.rank < level.rank →
    (Phrase.climb power left' e).Derives embed ts' rest →
    (Phrase.climb power left e).Derives embed ts rest

theorem parseBinary_extends (hExpr : ReadsDerived embed expr)
    (hLevel : ∀ t ts, c.rest = t :: ts → Grammar.standard.powerOf t.kind = level)
    (hRun : OperatorForm.parseBinary expr left level c = .ok left' c') :
    Extends embed level left c.rest left' c'.rest := by
  simp only [OperatorForm.parseBinary, bind_eq_ok, position_eq_ok, advance_eq_ok,
    skipLineBreaks_eq_ok] at hRun
  obtain ⟨n, _, ⟨-, rfl⟩, t, c₁, ⟨hMark, -⟩, _, c₂, rfl, right, c₃, hRight, hRun⟩ := hRun
  obtain ⟨m, hBreaks, -⟩ := skipLineBreaks_rest c₁
  have hDerived := hExpr _ _ _ _ hRight
  have hLe := hDerived.length_le
  have hPower := hLevel _ _ hMark
  cases t with
  | infixMark mark =>
      cases mark with
      | binary op =>
          obtain ⟨rfl, rfl⟩ := pure_eq_ok.1 hRun
          have hLevelOp : op.power = level := hPower
          subst hLevelOp
          rw [hMark, hBreaks]
          constructor
          · simp only [List.length_cons, List.length_append]
            omega
          · exact fun power e rest hRank hClimb => .binary hRank hDerived hClimb
      | _ => exact absurd hRun throw_ne_ok
  | _ => exact absurd hRun throw_ne_ok

theorem parseRange_extends (hExpr : ReadsDerived embed expr)
    (hRun : OperatorForm.parseRange expr left .range c = .ok left' c') :
    Extends embed .range left c.rest left' c'.rest := by
  simp only [OperatorForm.parseRange, bind_eq_ok, expect_eq_ok, pure_eq_ok,
    Token.kind_eq_symbol] at hRun
  obtain ⟨_, c₁, ⟨rfl, hMark, -⟩, last, c₂, hLast, rfl, rfl⟩ := hRun
  have hDerived := hExpr _ _ _ _ hLast
  have hLe := hDerived.length_le
  rw [hMark]
  constructor
  · rw [List.length_cons]
    omega
  · exact fun power e rest hRank hClimb => .range hRank hDerived hClimb

theorem parseStep_extends (hRun : OperatorForm.parseStep left c = .ok left' c') :
    Extends embed .trailing left c.rest left' c'.rest := by
  simp only [OperatorForm.parseStep, bind_eq_ok, position_eq_ok, advance_eq_ok] at hRun
  obtain ⟨n, _, ⟨-, rfl⟩, t, c₁, ⟨hMark, -⟩, hRun⟩ := hRun
  split at hRun
  · obtain ⟨rfl, rfl⟩ := pure_eq_ok.1 hRun
    rw [hMark]
    constructor
    · rw [List.length_cons]
      omega
    · exact fun power e rest hRank hClimb => .stepBehind hRank hClimb
  · exact absurd hRun throw_ne_ok

theorem parseCall_extends (hExpr : ReadsDerived embed expr)
    (hRun : OperatorForm.parseCall expr left c = .ok left' c') :
    Extends embed .call left c.rest left' c'.rest := by
  cases left with
  | var callee =>
      simp only [OperatorForm.parseCall, bind_eq_ok, expect_eq_ok, pure_eq_ok,
        Token.kind_eq_bracket] at hRun
      obtain ⟨_, c₁, ⟨rfl, hOpen, -⟩, es, c₂, hArguments, rfl, rfl⟩ := hRun
      have hDerived := parseArguments_derived hExpr hArguments
      have hLe := hDerived.length_le
      rw [hOpen]
      constructor
      · rw [List.length_cons]
        omega
      · exact fun power e rest hRank hClimb => .call hRank hDerived hClimb
  | _ => exact absurd hRun unexpected_ne_ok

theorem parseIndex_extends (hExpr : ReadsDerived embed expr)
    (hRun : OperatorForm.parseIndex expr left c = .ok left' c') :
    Extends embed .call left c.rest left' c'.rest := by
  cases left with
  | var name =>
      simp only [OperatorForm.parseIndex, bind_eq_ok, expect_eq_ok, pure_eq_ok,
        Token.kind_eq_bracket] at hRun
      obtain ⟨_, c₁, ⟨rfl, hOpen, -⟩, i, c₂, hIndex, _, c₃, ⟨rfl, hClose, -⟩, rfl, rfl⟩ := hRun
      have hDerived := hExpr _ _ _ _ hIndex
      have hLe := hDerived.length_le
      rw [hClose] at hDerived hLe
      rw [hOpen]
      constructor
      · rw [List.length_cons] at hLe ⊢
        omega
      · exact fun power e rest hRank hClimb => .index hRank hDerived hClimb
  | _ => exact absurd hRun unexpected_ne_ok

/-- The form that the grammar gives for a token reads an operator of its level. -/
theorem operatorForm_extends {form : OperatorForm} {t : Token} {ts : List Token}
    (hExpr : ReadsDerived embed expr) (hHead : c.rest = t :: ts)
    (hForm : Grammar.standard.operator t.kind = some form)
    (hRun : form.parse expr left (Grammar.standard.powerOf t.kind) c = .ok left' c') :
    Extends embed (Grammar.standard.powerOf t.kind) left c.rest left' c'.rest := by
  cases form with
  | binary =>
      refine parseBinary_extends hExpr ?_ hRun
      intro s ss hRest
      rw [(List.cons.inj (hHead.symm.trans hRest)).1]
  | range =>
      have hKind : t.kind = .symbol .dotDot := operator_eq_some.1 hForm
      rw [hKind] at hRun ⊢
      exact parseRange_extends hExpr hRun
  | step =>
      obtain ⟨op, hKind⟩ := operator_eq_some.1 hForm
      rw [hKind] at hRun ⊢
      exact parseStep_extends hRun
  | call =>
      have hKind : t.kind = .bracket .openParen := operator_eq_some.1 hForm
      rw [hKind] at hRun ⊢
      exact parseCall_extends hExpr hRun
  | index =>
      have hKind : t.kind = .bracket .openSquare := operator_eq_some.1 hForm
      rw [hKind] at hRun ⊢
      exact parseIndex_extends hExpr hRun

/-- Climbing is derived. The bound covers all tokens that are left, so it never
ends the climb. -/
theorem climb_derived (hExpr : ReadsDerived embed expr) (power : Power) :
    ∀ (bound : Nat) (left : Expr) (c : Cursor) (e : Expr) (c' : Cursor), c.rest.length ≤ bound →
      Grammar.standard.climb expr power bound left c = .ok e c' →
      (Phrase.climb power left e).Derives embed c.rest c'.rest := by
  intro bound
  induction bound with
  | zero =>
      intro left c e c' hBound hRun
      obtain ⟨rfl, rfl⟩ := pure_eq_ok.1 hRun
      rw [List.eq_nil_of_length_eq_zero (Nat.le_zero.1 hBound)]
      exact .stop (Nat.zero_le _)
  | succ bound ih =>
      intro left c e c' hBound hRun
      rcases c with ⟨n, _ | ⟨t, ts⟩⟩
      · cases hRun
        exact .stop (Nat.zero_le _)
      simp only [Grammar.climb, Cursor.kind?_cons] at hRun
      by_cases hRank : (Grammar.standard.powerOf t.kind).rank ≤ power.rank
      · rw [if_pos hRank] at hRun
        cases hRun
        exact .stop hRank
      · rw [if_neg hRank] at hRun
        cases hForm : Grammar.standard.operator t.kind with
        | none =>
            rw [hForm] at hRun
            exact absurd hRun unexpected_ne_ok
        | some form =>
            simp only [hForm, bind_eq_ok] at hRun
            obtain ⟨left', c₁, hOperator, hClimb⟩ := hRun
            have hExtends := operatorForm_extends hExpr rfl hForm hOperator
            have hShorter : c₁.rest.length ≤ bound := by
              have hLt := hExtends.length_lt
              rw [List.length_cons] at hBound hLt
              omega
            exact hExtends.climb _ _ _ (Nat.lt_of_not_le hRank) (ih _ _ _ _ hShorter hClimb)

end Operators

/-! ## Expressions -/

/-- What is read as an expression is derived, whatever the bound. -/
theorem exprAt_readsDerived (embed : String → Except ParseError Expr) :
    ∀ bound : Nat, ReadsDerived embed (Grammar.standard.exprAt embed bound) := by
  intro bound
  induction bound with
  | zero => exact fun power c e c' hRun => absurd hRun unexpected_ne_ok
  | succ bound ih =>
      intro power c e c' hRun
      obtain ⟨left, c₁, hOperand, hClimb⟩ := bind_eq_ok.1 hRun
      exact .expr (parseOperand_derived ih hOperand)
        (climb_derived ih power _ _ _ _ _ (Nat.le_refl _) hClimb)

theorem parseExpr_readsDerived : ReadsDerived embedded Grammar.standard.parseExpr :=
  fun power c e c' hRun => exprAt_readsDerived embedded c.rest.length power c e c' hRun

end ScriptLang
