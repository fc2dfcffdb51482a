import ScriptLang.Proofs.Reading.ExprDerived
import ScriptLang.Proofs.Reading.StmtGrammar

/-!
# What is read as a statement is derived

One lemma for each form of a statement, over any parser for the statements
inside that reads derived statements only (`ReadsStmtsDerived`).
`stmtAt_readsDerived` ties the knot by induction on the bound.
-/

namespace ScriptLang

open ScriptLang.Parser

/-- Every statement that the parser reads is derived. -/
def ReadsStmtsDerived (stmt : Parser Stmt) : Prop :=
  ∀ (c : Cursor) (s : Stmt) (c' : Cursor), stmt c = .ok s c' →
    (Clause.stmt s).Derives c.rest c'.rest

variable {stmt : Parser Stmt} {c c' : Cursor} {s : Stmt} {ss : List Stmt} {body : Block}
  {ts : List Token}

/-! ## Sequences and blocks -/

theorem atEnd_iff {terminator? : Option Kind} :
    Sequence.atEnd terminator? c = true ↔
      c.rest = [] ∨ ∃ k, terminator? = some k ∧ c.isAt k = true := by
  simp [Sequence.atEnd, Cursor.hasTokens, Option.any_eq_true]

/-- Behind a statement stands a separator, or the sequence ends. -/
theorem parseSeparator_cases {terminator? : Option Kind}
    (hRun : Sequence.parseSeparator terminator? c = .ok () c') :
    c' = c.skipSeparators ∧
      ((∃ t ts, c.rest = t :: ts ∧ t.isSeparator = true) ∨
        (c'.rest = c.rest ∧ Sequence.atEnd terminator? c' = true)) := by
  obtain ⟨separated, c₁, hSkip, hRun⟩ := bind_eq_ok.1 hRun
  simp only [skipSeparators, EStateM.Result.ok.injEq] at hSkip
  obtain ⟨hSeparated, rfl⟩ := hSkip
  by_cases hEnd : (separated || Sequence.atEnd terminator? c.skipSeparators) = true
  · rw [if_pos hEnd] at hRun
    cases hRun
    refine ⟨rfl, ?_⟩
    rcases c with ⟨n, _ | ⟨t, ts⟩⟩
    · right
      exact ⟨rfl, atEnd_iff.2 (.inl rfl)⟩
    · cases hHead : t.isSeparator with
      | true => exact .inl ⟨t, ts, rfl, hHead⟩
      | false =>
          right
          have hStay : (Cursor.mk n (t :: ts)).skipSeparators = ⟨n, t :: ts⟩ := by
            simp [Cursor.skipSeparators, Cursor.skipWhile, hHead]
          rw [hStay] at hSeparated hEnd ⊢
          refine ⟨rfl, ?_⟩
          simpa [← hSeparated] using hEnd
  · rw [if_neg hEnd] at hRun
    cases hRun

/-- Skipping separators leaves the tokens behind them. -/
theorem skipSeparators_rest (c : Cursor) :
    ∃ q, c.rest = q ++ c.skipSeparators.rest ∧ Separators q ∧ NoSeparator c.skipSeparators.rest :=
  exists_separators c.rest

/-- A sequence that has ended reads nothing. -/
theorem parseFrom_atEnd {terminator? : Option Kind} {bound : Nat}
    (hEnd : Sequence.atEnd terminator? c = true)
    (hRun : Sequence.parseFrom stmt terminator? bound c = .ok ss c') : ss = [] ∧ c = c' := by
  cases bound with
  | zero =>
      obtain ⟨rfl, rfl⟩ := pure_eq_ok.1 hRun
      exact ⟨rfl, rfl⟩
  | succ bound =>
      simp only [Sequence.parseFrom] at hRun
      rw [if_pos hEnd] at hRun
      cases hRun
      exact ⟨rfl, rfl⟩

theorem parseFrom_derived (hStmt : ReadsStmtsDerived stmt) (terminator? : Option Kind) :
    ∀ (bound : Nat) (c : Cursor) (ss : List Stmt) (c' : Cursor),
      Sequence.parseFrom stmt terminator? bound c = .ok ss c' →
      (Clause.sequence ss).Derives c.rest c'.rest := by
  intro bound
  induction bound with
  | zero =>
      intro c ss c' hRun
      obtain ⟨rfl, rfl⟩ := pure_eq_ok.1 hRun
      exact .empty (q := []) nofun
  | succ bound ih =>
      intro c ss c' hRun
      simp only [Sequence.parseFrom] at hRun
      by_cases hEnd : Sequence.atEnd terminator? c = true
      · rw [if_pos hEnd] at hRun
        cases hRun
        exact .empty (q := []) nofun
      · rw [if_neg hEnd] at hRun
        simp only [bind_eq_ok, pure_eq_ok] at hRun
        obtain ⟨s, c₁, hFirst, _, c₂, hSeparator, ss, c₃, hMore, rfl, rfl⟩ := hRun
        have hDerived := hStmt _ _ _ hFirst
        obtain ⟨hSkip, ⟨t, ts, hRest, hHead⟩ | ⟨hStay, hEnd'⟩⟩ := parseSeparator_cases hSeparator
        · obtain ⟨q, hBehind, hSeparators, -⟩ := skipSeparators_rest c₁
          rw [← hSkip, hRest] at hBehind
          rw [hRest] at hDerived
          cases q with
          | nil =>
              obtain ⟨q, hBehind', -, hNone⟩ := skipSeparators_rest c₁
              rw [← hSkip, ← List.nil_append c₂.rest, ← hBehind] at hNone
              rw [hNone t rfl] at hHead
              exact absurd hHead nofun
          | cons u q =>
              rw [List.cons_append, List.cons.injEq] at hBehind
              rw [hBehind.2] at hDerived
              have hAll : Separators q := fun v hv => hSeparators v (by simp [hv])
              exact .next (q := []) nofun hDerived hHead ((ih _ _ _ hMore).sequence_separators hAll)
        · obtain ⟨rfl, rfl⟩ := parseFrom_atEnd hEnd' hMore
          rw [hStay]
          exact .last (q := []) nofun hDerived

theorem sequence_derived {terminator? : Option Kind} (hStmt : ReadsStmtsDerived stmt)
    (hRun : Sequence.parse stmt terminator? c = .ok ss c') :
    (Clause.sequence ss).Derives c.rest c'.rest := by
  obtain ⟨separated, c₁, hSkip, hRun⟩ := bind_eq_ok.1 hRun
  simp only [skipSeparators, EStateM.Result.ok.injEq] at hSkip
  obtain ⟨q, hBefore, hSeparators, -⟩ := skipSeparators_rest c
  rw [hBefore, hSkip.2]
  exact (parseFrom_derived hStmt _ _ _ _ _ hRun).sequence_separators hSeparators

theorem parseBlock_derived (hStmt : ReadsStmtsDerived stmt)
    (hRun : StmtForm.parseBlock stmt c = .ok body c') :
    (Clause.block body).Derives c.rest c'.rest := by
  simp only [StmtForm.parseBlock, bind_eq_ok, expect_eq_ok, pure_eq_ok,
    Token.kind_eq_bracket] at hRun
  obtain ⟨_, c₁, ⟨rfl, hOpen, -⟩, body, c₂, hInside, _, c₃, ⟨rfl, hClose, -⟩, rfl, rfl⟩ := hRun
  have hDerived := sequence_derived hStmt hInside
  rw [hClose] at hDerived
  rw [hOpen]
  exact .braces hDerived

theorem parseBody_derived (hStmt : ReadsStmtsDerived stmt)
    (hRun : StmtForm.parseBody stmt c = .ok body c') :
    (Clause.body body).Derives c.rest c'.rest := by
  simp only [StmtForm.parseBody, bind_eq_ok, skipLineBreaks_eq_ok, isAt_eq_ok] at hRun
  obtain ⟨_, c₁, rfl, here, _, ⟨hHere, rfl⟩, hRun⟩ := hRun
  obtain ⟨m, hBefore, -⟩ := skipLineBreaks_rest c
  rw [hBefore]
  rcases branch_cases hRun with ⟨-, hRun⟩ | ⟨hThere, hRun⟩
  · exact .bodyBlock (parseBlock_derived hStmt hRun)
  · simp only [bind_eq_ok, pure_eq_ok] at hRun
    obtain ⟨s, c₁, hSingle, rfl, rfl⟩ := hRun
    have hNotAt : ¬ c.skipLineBreaks.isAt (.bracket .openCurly) = true := by rwa [hHere]
    exact .bodySingle (Cursor.head?_ne_of_not_isAt hNotAt rfl) (hStmt _ _ _ hSingle)

/-! ## Declarations and assignments -/

theorem parseValue_derived {value : Expr}
    (hRun : StmtForm.parseValue Grammar.standard.parseExpr c = .ok value c') :
    ∃ t m ts, c.rest = t :: (breaks m ++ ts) ∧
      (Phrase.expr .lowest value).Derives embedded ts c'.rest := by
  simp only [StmtForm.parseValue, bind_eq_ok, advance_eq_ok, skipLineBreaks_eq_ok] at hRun
  obtain ⟨t, c₁, ⟨hMark, -⟩, _, c₂, rfl, hValue⟩ := hRun
  obtain ⟨m, hBreaks, -⟩ := skipLineBreaks_rest c₁
  exact ⟨t, m, _, by rw [hMark, ← hBreaks], parseExpr_readsDerived _ _ _ _ hValue⟩

theorem parseDeclaredName_eq_ok {name : String} :
    StmtForm.parseDeclaredName c = .ok name c' →
      c.rest = .name name :: c'.rest := by
  intro hRun
  unfold StmtForm.parseDeclaredName at hRun
  split at hRun
  · exact (identifier_eq_ok.1 hRun).1
  · exact absurd hRun unexpected_ne_ok

theorem atStatementEnd_iff : StmtForm.atStatementEnd c = true ↔ AtStatementEnd c.rest := by
  rcases c with ⟨n, _ | ⟨t, ts⟩⟩
  · exact ⟨fun _ => nofun, fun _ => rfl⟩
  · simp [StmtForm.atStatementEnd, AtStatementEnd, Cursor.current?]

theorem parseDeclaration_derived {readOnly : Bool}
    (hHead : c.rest = .keyword (.declaration readOnly) :: ts)
    (hRun : StmtForm.parseDeclaration Grammar.standard.parseExpr Grammar.standard.parseType c =
      .ok s c') : (Clause.stmt s).Derives c.rest c'.rest := by
  simp only [StmtForm.parseDeclaration, bind_eq_ok, advance_eq_ok, isAt_eq_ok] at hRun
  obtain ⟨word, c₁, ⟨hWord, -⟩, name, c₂, hName, ty?, c₃, hTy, here, _, ⟨hHere, rfl⟩, hRun⟩ :=
    hRun
  obtain ⟨rfl, rfl⟩ := List.cons.inj (hHead.symm.trans hWord)
  have hReadOnly : (Token.keyword (.declaration readOnly) ==
      Token.keyword (.declaration true)) = readOnly := by cases readOnly <;> rfl
  rw [hReadOnly] at hRun
  rw [hHead, parseDeclaredName_eq_ok hName, parseAnnotation?_spelled hTy]
  rcases branch_cases hRun with ⟨hThere, hRun⟩ | ⟨-, hRun⟩
  · simp only [bind_eq_ok, pure_eq_ok] at hRun
    obtain ⟨value, c₄, hValue, rfl, rfl⟩ := hRun
    obtain ⟨t, m, ts, hMark, hDerived⟩ := parseValue_derived hValue
    have hKind := Cursor.kind_of_isAt (hHere.trans hThere) hMark
    rw [hMark, Token.kind_eq_infixMark.1 hKind]
    exact .init hDerived
  · by_cases hEnd : StmtForm.atStatementEnd c₃ = true
    · obtain ⟨rfl, rfl⟩ : s = .declare name ty? readOnly ∧ c₃ = c' := by
        simpa [hEnd, eq_comm] using hRun
      exact .declare (atStatementEnd_iff.1 hEnd)
    · exact absurd hRun (by simp [hEnd, Parser.unexpected])

/-- A call or a step that starts like a statement is one. -/
theorem parseExpression_derived (hHead : ExpressionHead c.rest)
    (hRun : StmtForm.parseExpression Grammar.standard.parseExpr c = .ok s c') :
    (Clause.stmt s).Derives c.rest c'.rest := by
  simp only [StmtForm.parseExpression, bind_eq_ok] at hRun
  obtain ⟨e, c₁, hExpr, hRun⟩ := hRun
  have hDerived := parseExpr_readsDerived _ _ _ _ hExpr
  cases e with
  | call callee es =>
      obtain ⟨rfl, rfl⟩ := pure_eq_ok.1 hRun
      exact .call hHead hDerived
  | step n op before =>
      obtain ⟨rfl, rfl⟩ := pure_eq_ok.1 hRun
      exact .step hHead hDerived
  | _ => exact absurd hRun throw_ne_ok

theorem parseNamed_derived {n : String} (hHead : c.rest = .name n :: ts)
    (hRun : StmtForm.parseNamed Grammar.standard.parseExpr c = .ok s c') :
    (Clause.stmt s).Derives c.rest c'.rest := by
  have hNext : c.peekKind? 1 = ts.head?.map Token.kind := by
    rw [Cursor.peekKind?, hHead]
    cases ts <;> rfl
  unfold StmtForm.parseNamed at hRun
  split at hRun
  · rename_i hKind
    simp only [bind_eq_ok, identifier_eq_ok, pure_eq_ok] at hRun
    obtain ⟨name, c₁, ⟨hName, -⟩, value, c₂, hValue, rfl, rfl⟩ := hRun
    obtain ⟨t, m, us, hMark, hDerived⟩ := parseValue_derived hValue
    obtain ⟨-, rfl⟩ := List.cons.inj (hHead.symm.trans hName)
    rw [hNext, hMark, List.head?_cons, Option.map_some, Option.some.injEq] at hKind
    rw [hName, hMark, Token.kind_eq_infixMark.1 hKind]
    exact .assign hDerived
  · rename_i op hKind
    simp only [bind_eq_ok, identifier_eq_ok, pure_eq_ok] at hRun
    obtain ⟨name, c₁, ⟨hName, -⟩, value, c₂, hValue, rfl, rfl⟩ := hRun
    obtain ⟨t, m, us, hMark, hDerived⟩ := parseValue_derived hValue
    obtain ⟨-, rfl⟩ := List.cons.inj (hHead.symm.trans hName)
    rw [hNext, hMark, List.head?_cons, Option.map_some, Option.some.injEq] at hKind
    rw [hName, hMark, Token.kind_eq_infixMark.1 hKind]
    exact .compound hDerived
  · exact parseExpression_derived (.inl ⟨n, ts, hHead⟩) hRun

/-! ## Control flow -/

theorem parseConditionalStmt_derived (hStmt : ReadsStmtsDerived stmt)
    (hRun : StmtForm.parseConditional Grammar.standard.parseExpr stmt c = .ok s c') :
    (Clause.stmt s).Derives c.rest c'.rest := by
  simp only [StmtForm.parseConditional, bind_eq_ok, expect_eq_ok, Token.kind_eq_keyword] at hRun
  obtain ⟨_, c₁, ⟨rfl, hIf, -⟩, condition, c₂, hCondition, thenBlock, c₃, hThen, else?, c₄, hElse,
    hRun⟩ := hRun
  obtain ⟨ts, hOpen, hConditionDerived⟩ := parseCondition_derived parseExpr_readsDerived hCondition
  have hThenDerived := parseBody_derived hStmt hThen
  rw [hIf, hOpen]
  rcases elseBranch?_cases hElse with ⟨rfl, hNoElse, rfl⟩ | ⟨elseBlock, n, c₅, rfl, hAhead, hElse⟩
  · obtain ⟨rfl, rfl⟩ := pure_eq_ok.1 hRun
    exact .ifThen hConditionDerived hThenDerived hNoElse
  · obtain ⟨rfl, rfl⟩ := pure_eq_ok.1 hRun
    rw [hAhead] at hThenDerived
    exact .ifElse hConditionDerived hThenDerived (parseBody_derived hStmt hElse)

theorem parseFor_derived (hStmt : ReadsStmtsDerived stmt)
    (hRun : StmtForm.parseFor Grammar.standard.parseExpr stmt c = .ok s c') :
    (Clause.stmt s).Derives c.rest c'.rest := by
  simp only [StmtForm.parseFor, bind_eq_ok, expect_eq_ok, identifier_eq_ok, pure_eq_ok,
    Token.kind_eq_keyword, Token.kind_eq_bracket] at hRun
  obtain ⟨_, c₁, ⟨rfl, hFor, -⟩, _, c₂, ⟨rfl, hOpen, -⟩, n, c₃, ⟨hName, -⟩, _, c₄,
    ⟨rfl, hIn, -⟩, source, c₅, hSource, _, c₆, ⟨rfl, hClose, -⟩, body, c₇, hBody, rfl, rfl⟩ := hRun
  have hDerived := parseExpr_readsDerived _ _ _ _ hSource
  rw [hClose] at hDerived
  rw [hFor, hOpen, hName, hIn]
  exact .forIn hDerived (parseBody_derived hStmt hBody)

theorem parseWhile_derived (hStmt : ReadsStmtsDerived stmt)
    (hRun : StmtForm.parseWhile Grammar.standard.parseExpr stmt c = .ok s c') :
    (Clause.stmt s).Derives c.rest c'.rest := by
  simp only [StmtForm.parseWhile, bind_eq_ok, expect_eq_ok, pure_eq_ok,
    Token.kind_eq_keyword] at hRun
  obtain ⟨_, c₁, ⟨rfl, hWhile, -⟩, condition, c₂, hCondition, body, c₃, hBody, rfl, rfl⟩ := hRun
  obtain ⟨ts, hOpen, hDerived⟩ := parseCondition_derived parseExpr_readsDerived hCondition
  rw [hWhile, hOpen]
  exact .whileLoop hDerived (parseBody_derived hStmt hBody)

theorem parseControl_derived {control : LoopControl}
    (hHead : c.rest = .keyword (.control control) :: ts)
    (hRun : StmtForm.parseControl c = .ok s c') : (Clause.stmt s).Derives c.rest c'.rest := by
  simp only [StmtForm.parseControl, bind_eq_ok, advance_eq_ok] at hRun
  obtain ⟨word, c₁, ⟨hWord, -⟩, hRun⟩ := hRun
  obtain ⟨rfl, rfl⟩ := List.cons.inj (hHead.symm.trans hWord)
  have hMade : s = .control control ∧ c₁ = c' := by
    cases control <;> cases hRun <;> exact ⟨rfl, rfl⟩
  obtain ⟨rfl, rfl⟩ := hMade
  rw [hHead]
  exact .control

/-! ## Functions and output -/

theorem parseParameter_spelled {parameter : String × Ty}
    (hRun : StmtForm.parseParameter Grammar.standard.parseType c = .ok parameter c') :
    c.rest = functionParameterTokens parameter ++ c'.rest := by
  simp only [StmtForm.parseParameter, bind_eq_ok, identifier_eq_ok, expect_eq_ok, pure_eq_ok,
    Token.kind_eq_symbol] at hRun
  obtain ⟨name, c₁, ⟨hName, -⟩, _, c₂, ⟨rfl, hColon, -⟩, ty, c₃, hTy, rfl, rfl⟩ := hRun
  rw [hName, hColon, parseType_spelled hTy]
  rfl

theorem parseFunctionStmt_derived (hStmt : ReadsStmtsDerived stmt)
    (hRun : StmtForm.parseFunction Grammar.standard.parseType stmt c = .ok s c') :
    (Clause.stmt s).Derives c.rest c'.rest := by
  simp only [StmtForm.parseFunction, bind_eq_ok, expect_eq_ok, identifier_eq_ok,
    skipLineBreaks_eq_ok, pure_eq_ok, Token.kind_eq_keyword, Token.kind_eq_bracket,
    Token.kind_eq_symbol] at hRun
  obtain ⟨_, c₁, ⟨rfl, hFun, -⟩, name, c₂, ⟨hName, -⟩, _, c₃, ⟨rfl, hOpen, -⟩, parameters, c₄,
    hItems, _, c₅, ⟨rfl, hColon, -⟩, result, c₆, hResult, _, c₇, rfl, body, c₈, hBody, rfl, rfl⟩
    := hRun
  obtain ⟨m, hBreaks, -⟩ := skipLineBreaks_rest c₆
  rw [hFun, hName, hOpen, items_listed (fun _ _ _ h => parseParameter_spelled h) hItems, hColon,
    parseType_spelled hResult, hBreaks]
  exact .function (parseBlock_derived hStmt hBody)

theorem parseReturn_derived
    (hRun : StmtForm.parseReturn Grammar.standard.parseExpr c = .ok s c') :
    (Clause.stmt s).Derives c.rest c'.rest := by
  simp only [StmtForm.parseReturn, bind_eq_ok, expect_eq_ok, pure_eq_ok,
    Token.kind_eq_keyword] at hRun
  obtain ⟨_, c₁, ⟨rfl, hReturn, -⟩, value, c₂, hValue, rfl, rfl⟩ := hRun
  rw [hReturn]
  exact .returns (parseExpr_readsDerived _ _ _ _ hValue)

theorem parseOutput_derived {form : Output} (hHead : c.rest = .keyword (.output form) :: ts)
    (hRun : StmtForm.parseOutput Grammar.standard.parseExpr c = .ok s c') :
    (Clause.stmt s).Derives c.rest c'.rest := by
  simp only [StmtForm.parseOutput, OperandForm.parseGrouping, bind_eq_ok, advance_eq_ok,
    expect_eq_ok, Token.kind_eq_bracket] at hRun
  obtain ⟨word, c₁, ⟨hWord, -⟩, value, c₂, ⟨_, c₃, ⟨rfl, hOpen, -⟩, hValue⟩, hRun⟩ := hRun
  obtain ⟨rfl, rfl⟩ := List.cons.inj (hHead.symm.trans hWord)
  have hMade : s = .output form value ∧ c₂ = c' := by
    cases form <;> cases hRun <;> exact ⟨rfl, rfl⟩
  obtain ⟨rfl, rfl⟩ := hMade
  rw [hHead, hOpen]
  exact .output (parseEnclosed_derived parseExpr_readsDerived hValue)

/-! ## Statements -/

/-- The form that the grammar gives for a token reads a statement. -/
theorem stmtForm_derived {form : StmtForm} {t : Token} (hStmt : ReadsStmtsDerived stmt)
    (hHead : c.rest = t :: ts) (hForm : Grammar.standard.statement t.kind = some form)
    (hRun : form.parse Grammar.standard.parseExpr Grammar.standard.parseType stmt c = .ok s c') :
    (Clause.stmt s).Derives c.rest c'.rest := by
  cases form with
  | declaration =>
      obtain ⟨readOnly, hKind⟩ := statement_eq_some.1 hForm
      rw [Token.kind_eq_keyword.1 hKind] at hHead
      exact parseDeclaration_derived hHead hRun
  | named =>
      obtain ⟨n, rfl⟩ := Token.kind_eq_name.1 (statement_eq_some.1 hForm)
      exact parseNamed_derived hHead hRun
  | expression =>
      obtain ⟨op, hKind⟩ := statement_eq_some.1 hForm
      rw [Token.kind_eq_unaryMark.1 hKind] at hHead
      exact parseExpression_derived (.inr ⟨op, ts, hHead⟩) hRun
  | conditional => exact parseConditionalStmt_derived hStmt hRun
  | forLoop => exact parseFor_derived hStmt hRun
  | whileLoop => exact parseWhile_derived hStmt hRun
  | control =>
      obtain ⟨control, hKind⟩ := statement_eq_some.1 hForm
      rw [Token.kind_eq_keyword.1 hKind] at hHead
      exact parseControl_derived hHead hRun
  | function => exact parseFunctionStmt_derived hStmt hRun
  | returns => exact parseReturn_derived hRun
  | output =>
      obtain ⟨form, hKind⟩ := statement_eq_some.1 hForm
      rw [Token.kind_eq_keyword.1 hKind] at hHead
      exact parseOutput_derived hHead hRun
  | block =>
      simp only [StmtForm.parse, bind_eq_ok, pure_eq_ok] at hRun
      obtain ⟨body, c₁, hBlock, rfl, rfl⟩ := hRun
      exact .block (parseBlock_derived hStmt hBlock)
  | any => exact (statement_eq_some.1 hForm).elim

/-- What is read as a statement is derived, whatever the bound. -/
theorem stmtAt_readsDerived : ∀ bound : Nat, ReadsStmtsDerived (Grammar.standard.stmtAt bound) := by
  intro bound
  induction bound with
  | zero => exact fun c s c' hRun => absurd hRun unexpected_ne_ok
  | succ bound ih =>
      intro c s c' hRun
      rcases c with ⟨n, _ | ⟨t, ts⟩⟩
      · exact absurd hRun unexpected_ne_ok
      simp only [Grammar.stmtAt, Cursor.kind?_cons, Option.bind_some] at hRun
      cases hForm : Grammar.standard.statement t.kind with
      | none =>
          rw [hForm] at hRun
          exact absurd hRun unexpected_ne_ok
      | some form =>
          rw [hForm] at hRun
          exact stmtForm_derived ih rfl hForm hRun

theorem parseStmt_readsDerived : ReadsStmtsDerived Grammar.standard.parseStmt :=
  fun c s c' hRun => stmtAt_readsDerived c.rest.length c s c' hRun

end ScriptLang
