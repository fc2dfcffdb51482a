import ScriptLang.Proofs.Reading.ExprRead
import ScriptLang.Proofs.Reading.StmtDerived

/-!
# What is derived is read as a statement

The converse for statements: one lemma for each form says that the parser of
the form reads what a rule derives, given a parser that reads all shorter
derived statements (`ReadsStmtsUpTo`). `reads_stmtAt` ties the knot by induction
on the bound.
-/

namespace ScriptLang

open ScriptLang.Parser

/-- Every derived statement of at most `bound` tokens before it ends is read. -/
def ReadsStmtsUpTo (bound : Nat) (stmt : Parser Stmt) : Prop :=
  ∀ (s : Stmt) (ts rest : List Token), ts.length ≤ bound →
    (Clause.stmt s).Derives ts rest → stmt.Reads ts s rest

variable {bound : Nat} {stmt : Parser Stmt} {s : Stmt} {ss : List Stmt} {body : Block}
  {q ts rest : List Token} {terminator? : Option Kind}

/-! ## Sequences and blocks -/

theorem reads_skipSeparators (hq : Separators q) (hRest : NoSeparator rest) :
    Parser.skipSeparators.Reads (q ++ rest) (!q.isEmpty) rest := by
  intro n
  have hTake : ((q ++ rest).takeWhile Token.isSeparator).length = q.length := by
    have hAll := congrArg List.length
      (List.takeWhile_append_dropWhile (p := Token.isSeparator) (l := q ++ rest))
    rw [dropWhile_separators hq hRest, List.length_append, List.length_append] at hAll
    omega
  refine ⟨n + q.length, ?_⟩
  simp only [Parser.skipSeparators, Cursor.skipSeparators, Cursor.skipWhile, hTake,
    dropWhile_separators hq hRest]
  cases q <;> simp

theorem reads_separator (hq : Separators q) (hRest : NoSeparator rest)
    (hBetween : q ≠ [] ∨ ∀ n, Sequence.atEnd terminator? ⟨n, rest⟩ = true) :
    (Sequence.parseSeparator terminator?).Reads (q ++ rest) () rest := by
  apply Reads.bind (reads_skipSeparators hq hRest)
  intro n
  refine ⟨n, if_pos ?_⟩
  rcases hBetween with hNonempty | hEnd
  · simp [hNonempty]
  · simp [hEnd n]

theorem reads_from_end (hEnd : ∀ n, Sequence.atEnd terminator? ⟨n, rest⟩ = true) (k : Nat) :
    (Sequence.parseFrom stmt terminator? k).Reads rest [] rest := by
  intro n
  refine ⟨n, ?_⟩
  cases k with
  | zero => rfl
  | succ k =>
      simp only [Sequence.parseFrom]
      exact if_pos (hEnd n)

theorem reads_from_step {k : Nat} {ts₁ ts₂ : List Token}
    (hOpen : ∀ n, ¬ Sequence.atEnd terminator? ⟨n, ts⟩ = true) (hFirst : stmt.Reads ts s ts₁)
    (hSeparator : (Sequence.parseSeparator terminator?).Reads ts₁ () ts₂)
    (hMore : (Sequence.parseFrom stmt terminator? k).Reads ts₂ ss rest) :
    (Sequence.parseFrom stmt terminator? (k + 1)).Reads ts (s :: ss) rest := by
  have hAll : (stmt >>= fun s => Sequence.parseSeparator terminator? >>= fun _ =>
      Sequence.parseFrom stmt terminator? k >>= fun ss => Pure.pure (s :: ss)).Reads ts (s :: ss)
        rest :=
    .bind hFirst (.bind hSeparator (.bind hMore .pure))
  intro n
  obtain ⟨m, hRun⟩ := hAll n
  refine ⟨m, ?_⟩
  simp only [Sequence.parseFrom]
  rw [if_neg (hOpen n)]
  exact hRun

/-- A sequence that starts with a statement has not ended, if its terminator
starts no statement. -/
theorem not_atEnd_stmt (hTerminator : ∀ k, terminator? = some k →
      Grammar.standard.statement k = none)
    (h : (Clause.stmt s).Derives ts rest) (n : Nat) :
    ¬ Sequence.atEnd terminator? ⟨n, ts⟩ = true := by
  obtain ⟨t, ts', rfl, hSome⟩ := h.stmt_head
  rw [atEnd_iff]
  rintro (hNil | ⟨k, hTerm, hAt⟩)
  · exact absurd hNil nofun
  · rw [Cursor.kind_of_isAt hAt rfl, hTerminator k hTerm] at hSome
    exact absurd hSome nofun

/-- Behind its leading separators, a derived sequence is read up to its end. -/
theorem reads_from (hStmt : ReadsStmtsUpTo bound stmt)
    (hTerminator : ∀ k, terminator? = some k → Grammar.standard.statement k = none)
    (hEnd : ∀ n, Sequence.atEnd terminator? ⟨n, rest⟩ = true) (hRest : NoSeparator rest) :
    ∀ (k : Nat) (ss : List Stmt) (ts : List Token),
      (ts.dropWhile Token.isSeparator).length ≤ k → ts.length ≤ bound →
      (Clause.sequence ss).Derives ts rest →
      (Sequence.parseFrom stmt terminator? k).Reads (ts.dropWhile Token.isSeparator) ss rest := by
  intro k
  induction k with
  | zero =>
      intro ss ts hShort _ h
      cases h with
      | empty hBefore =>
          rw [dropWhile_separators hBefore hRest]
          exact reads_from_end hEnd 0
      | last hBefore hFirst | next hBefore hFirst =>
          have hLt := hFirst.stmt_length_lt
          rw [dropWhile_separators hBefore hFirst.stmt_noSeparator] at hShort
          omega
  | succ k ih =>
      intro ss ts hShort hBound h
      cases h with
      | empty hBefore =>
          rw [dropWhile_separators hBefore hRest]
          exact reads_from_end hEnd _
      | last hBefore hFirst =>
          rw [dropWhile_separators hBefore hFirst.stmt_noSeparator]
          rw [List.length_append] at hBound
          exact reads_from_step (not_atEnd_stmt hTerminator hFirst)
            (hStmt _ _ _ (by omega) hFirst)
            (reads_separator (q := []) nofun hRest (.inr hEnd)) (reads_from_end hEnd k)
      | @next _ s ss t _ ts₁ _ hBefore hFirst hBetween hMore =>
          rw [dropWhile_separators hBefore hFirst.stmt_noSeparator] at hShort ⊢
          have hLt := hFirst.stmt_length_lt
          have hLe := (List.dropWhile_suffix Token.isSeparator (l := ts₁)).length_le
          rw [List.length_append] at hBound
          rw [List.length_cons] at hLt
          obtain ⟨q, hTokens, hSeparators, hNone⟩ := exists_separators ts₁
          have hSeparator : (Sequence.parseSeparator terminator?).Reads (t :: ts₁) ()
              (ts₁.dropWhile Token.isSeparator) := by
            have hAll : Separators (t :: q) := by
              intro u hu
              cases List.mem_cons.1 hu with
              | inl hEq => rwa [hEq]
              | inr hMem => exact hSeparators u hMem
            have hRead : (Sequence.parseSeparator terminator?).Reads _ _ _ :=
              reads_separator hAll hNone (.inl nofun)
            rwa [List.cons_append, ← hTokens] at hRead
          exact reads_from_step (not_atEnd_stmt hTerminator hFirst)
            (hStmt _ _ _ (by omega) hFirst) hSeparator (ih _ _ (by omega) (by omega) hMore)

/-- A derived sequence is read up to its end. -/
theorem reads_sequence (hStmt : ReadsStmtsUpTo bound stmt) (hBound : ts.length ≤ bound)
    (hTerminator : ∀ k, terminator? = some k → Grammar.standard.statement k = none)
    (hEnd : ∀ n, Sequence.atEnd terminator? ⟨n, rest⟩ = true) (hRest : NoSeparator rest)
    (h : (Clause.sequence ss).Derives ts rest) :
    (Sequence.parse stmt terminator?).Reads ts ss rest := by
  obtain ⟨q, hTokens, hSeparators, hNone⟩ := exists_separators ts
  have hSkip : Parser.skipSeparators.Reads ts (!q.isEmpty) (ts.dropWhile Token.isSeparator) := by
    have hRead := reads_skipSeparators hSeparators hNone
    rwa [← hTokens] at hRead
  apply Reads.bind hSkip
  exact fun n => reads_from hStmt hTerminator hEnd hRest _ _ _ (Nat.le_refl _) hBound h n

theorem reads_block (hStmt : ReadsStmtsUpTo bound stmt) (hBound : ts.length ≤ bound + 1)
    (h : (Clause.block body).Derives ts rest) : (StmtForm.parseBlock stmt).Reads ts body rest := by
  cases h with
  | braces hInside =>
      rw [List.length_cons] at hBound
      apply Reads.bind (.expect (.bracket .openCurly))
      refine .bind (reads_sequence hStmt (by omega) ?_ ?_ ?_ hInside) ?_
      · intro k hk
        rw [← Option.some.inj hk]
        rfl
      · exact fun n => rfl
      · intro t ht
        rw [← Option.some.inj ht]
        rfl
      · exact .bind (.expect (.bracket .closeCurly)) .pure

theorem reads_body (hStmt : ReadsStmtsUpTo bound stmt) (hBound : ts.length ≤ bound)
    (h : (Clause.body body).Derives ts rest) : (StmtForm.parseBody stmt).Reads ts body rest := by
  cases h with
  | bodyBlock hBlock =>
      rw [List.length_append] at hBound
      have hRun := reads_block hStmt (by omega) hBlock
      obtain ⟨ts, rfl⟩ := hBlock.block_head
      exact .bind (.skipLineBreaks nofun) (.isAt_then rfl hRun)
  | bodySingle hHead hSingle =>
      rw [List.length_append] at hBound
      have hRun := hStmt _ _ _ (by omega) hSingle
      apply Reads.bind (.skipLineBreaks hSingle.stmt_noSeparator.noBreak)
      refine .isAt_else ?_ (.bind hRun .pure)
      intro t ht hKind
      rw [Token.kind_eq_bracket.1 hKind] at ht
      exact hHead ht

/-! ## Declarations and assignments -/

section Values

variable {value : Expr} {m : Nat} {t : Token} {n : String}

theorem reads_value (h : (Phrase.expr .lowest value).Derives embedded ts rest) :
    (StmtForm.parseValue Grammar.standard.parseExpr).Reads (t :: (breaks m ++ ts)) value rest :=
  .bind .advance (.bind (.skipLineBreaks h.expr_noBreak) (reads_expr h))

theorem reads_declaredName : StmtForm.parseDeclaredName.Reads (.name n :: rest) n rest :=
  fun k => ⟨k + 1, rfl⟩

/-- Neither a colon nor an `=` may stand where a statement ends. -/
theorem AtStatementEnd.head?_ne (hEnd : AtStatementEnd rest) (hSeparator : t.isSeparator = false)
    (hNe : t ≠ .bracket .closeCurly) : rest.head? ≠ some t := by
  intro hHead
  rcases hEnd t hHead with hTrue | hEq
  · rw [hSeparator] at hTrue
    exact absurd hTrue nofun
  · exact hNe hEq

theorem reads_declaration {readOnly : Bool} {ty? : Option Ty} (hEnd : AtStatementEnd rest) :
    (StmtForm.parseDeclaration Grammar.standard.parseExpr Grammar.standard.parseType).Reads
      (.keyword (.declaration readOnly) :: .name n :: (annotationTokens ty? ++ rest))
      (.declare n ty? readOnly) rest := by
  apply Reads.bind .advance
  apply Reads.bind reads_declaredName
  apply Reads.bind (reads_annotation? (hEnd.head?_ne rfl nofun))
  refine .isAt_else ?_ ?_
  · intro t ht hKind
    rw [Token.kind_eq_infixMark.1 hKind] at ht
    exact hEnd.head?_ne (t := .infixMark .assign) rfl nofun ht
  · intro k
    have hHere : StmtForm.atStatementEnd ⟨k, rest⟩ = true := atStatementEnd_iff.2 hEnd
    refine ⟨k, (if_pos hHere).trans ?_⟩
    cases readOnly <;> rfl

theorem reads_init {readOnly : Bool} {ty? : Option Ty}
    (h : (Phrase.expr .lowest value).Derives embedded ts rest) :
    (StmtForm.parseDeclaration Grammar.standard.parseExpr Grammar.standard.parseType).Reads
      (.keyword (.declaration readOnly) :: .name n ::
        (annotationTokens ty? ++ .infixMark .assign :: (breaks m ++ ts)))
      (.assign n value ty? true readOnly) rest := by
  apply Reads.bind .advance
  apply Reads.bind reads_declaredName
  refine .bind (reads_annotation? nofun) ?_
  refine .isAt_then rfl ?_
  apply Reads.bind (reads_value h)
  cases readOnly <;> exact .pure

theorem reads_assign (h : (Phrase.expr .lowest value).Derives embedded ts rest) :
    (StmtForm.parseNamed Grammar.standard.parseExpr).Reads
      (.name n :: .infixMark .assign :: (breaks m ++ ts)) (.assign n value none false false)
      rest := by
  have hRun : (Parser.identifier >>= fun name =>
      StmtForm.parseValue Grammar.standard.parseExpr >>= fun value =>
      Pure.pure (Stmt.assign name value none false false)).Reads
      (.name n :: .infixMark .assign :: (breaks m ++ ts)) (.assign n value none false false)
      rest := .bind .identifier (.bind (reads_value h) .pure)
  exact fun k => hRun k

theorem reads_compound {op : CompoundOp}
    (h : (Phrase.expr .lowest value).Derives embedded ts rest) :
    (StmtForm.parseNamed Grammar.standard.parseExpr).Reads
      (.name n :: .infixMark (.compound op) :: (breaks m ++ ts)) (.compound n op value) rest := by
  have hRun : (Parser.identifier >>= fun name =>
      StmtForm.parseValue Grammar.standard.parseExpr >>= fun value =>
      Pure.pure (Stmt.compound name op value)).Reads
      (.name n :: .infixMark (.compound op) :: (breaks m ++ ts)) (.compound n op value) rest :=
    .bind .identifier (.bind (reads_value h) .pure)
  exact fun k => hRun k

end Values

/-! ## Expressions as statements -/

/-- The statement that an expression stands for, if it has a use. -/
def Stmt.ofExpr? : Expr → Option Stmt
  | .call callee arguments => some (.call callee arguments)
  | .step n op before => some (.step n op before)
  | _ => none

section Expressions

variable {e : Expr} {n : String}

theorem reads_expressionStmt (hMade : Stmt.ofExpr? e = some s)
    (hExpr : (Phrase.expr .lowest e).Derives embedded ts rest) :
    (StmtForm.parseExpression Grammar.standard.parseExpr).Reads ts s rest := by
  intro k
  obtain ⟨m, hRun⟩ := reads_expr hExpr k
  refine ⟨m, bind_eq_ok.2 ⟨e, _, hRun, ?_⟩⟩
  cases e <;> cases hMade <;> rfl

/-- Behind the name that starts a call or a step, the next token binds as an
operator. -/
theorem headRank_pos_of_named (hMade : Stmt.ofExpr? e = some s)
    (hExpr : (Phrase.expr .lowest e).Derives embedded (.name n :: ts) rest) :
    0 < headRank ts := by
  cases hExpr with
  | expr hLeft hClimb =>
      cases hLeft with
      | name =>
          refine Nat.lt_of_not_le fun hRank => ?_
          obtain ⟨rfl, -⟩ := hClimb.climb_stops hRank
          exact absurd hMade nofun
      | lambdaOperand hLambda =>
          obtain ⟨_, hBrace⟩ := hLambda.lambda_head
          exact absurd hBrace nofun

theorem peekKind?_second (k : Nat) (t : Token) (ts : List Token) :
    (Cursor.mk k (t :: ts)).peekKind? 1 = ts.head?.map Token.kind := by
  cases ts <;> rfl

theorem reads_namedExpression (hMade : Stmt.ofExpr? e = some s)
    (hExpr : (Phrase.expr .lowest e).Derives embedded (.name n :: ts) rest) :
    (StmtForm.parseNamed Grammar.standard.parseExpr).Reads (.name n :: ts) s rest := by
  obtain ⟨t, ts, rfl⟩ : ∃ t ts', ts = t :: ts' := by
    cases ts with
    | nil => exact absurd (headRank_pos_of_named hMade hExpr) (Nat.lt_irrefl 0)
    | cons t ts => exact ⟨t, ts, rfl⟩
  have hRank : 0 < (Grammar.standard.powerOf t.kind).rank := headRank_pos_of_named hMade hExpr
  intro k
  obtain ⟨m, hRun⟩ := reads_expressionStmt hMade hExpr k
  refine ⟨m, ?_⟩
  have hNext : (Cursor.mk k (.name n :: t :: ts)).peekKind? 1 = some t.kind :=
    peekKind?_second k _ _
  unfold StmtForm.parseNamed
  rw [hNext]
  -- An `=` and a compound mark bind loosest, so neither stands behind the name.
  split
  · rename_i hKind
    rw [Option.some.inj hKind] at hRank
    exact absurd hRank (Nat.lt_irrefl 0)
  · rename_i hKind
    rw [Option.some.inj hKind] at hRank
    exact absurd hRank (Nat.lt_irrefl 0)
  · exact hRun

/-- A call or a step is read by the form of its first token. -/
theorem reads_expressionHead (hHead : ExpressionHead ts) (hMade : Stmt.ofExpr? e = some s)
    (hExpr : (Phrase.expr .lowest e).Derives embedded ts rest) :
    ∃ t ts' form, ts = t :: ts' ∧ Grammar.standard.statement t.kind = some form ∧
      (form.parse Grammar.standard.parseExpr Grammar.standard.parseType stmt).Reads ts s rest := by
  rcases hHead with ⟨n, ts', rfl⟩ | ⟨op, ts', rfl⟩
  · exact ⟨_, _, .named, rfl, rfl, reads_namedExpression hMade hExpr⟩
  · exact ⟨_, _, .expression, rfl, rfl, reads_expressionStmt hMade hExpr⟩

end Expressions

/-! ## Control flow -/

section Control

variable {condition : Expr} {alternative : Option Block} {ts₁ ts₂ : List Token} {n : String}

theorem reads_conditionalStmt (hStmt : ReadsStmtsUpTo bound stmt) (hBound : ts₁.length ≤ bound)
    (hCondition : (Phrase.expr .lowest condition).Derives embedded ts
      (.bracket .closeParen :: ts₁))
    (hThen : (Clause.body body).Derives ts₁ ts₂)
    (hElse : (elseBranch? (StmtForm.parseBody stmt)).Reads ts₂ alternative rest) :
    (StmtForm.parseConditional Grammar.standard.parseExpr stmt).Reads
      (.keyword .ifWord :: .bracket .openParen :: ts)
      (match alternative with
        | some elseBlock => .ifElse condition body elseBlock
        | none => .ifThen condition body) rest := by
  apply Reads.bind (.expect (.keyword .ifWord))
  apply Reads.bind (reads_condition readsUpTo_parseExpr (Nat.le_refl _) hCondition)
  apply Reads.bind (reads_body hStmt hBound hThen)
  apply Reads.bind hElse
  cases alternative <;> exact .pure

theorem reads_for {source : Expr} (hStmt : ReadsStmtsUpTo bound stmt)
    (hBound : ts₁.length ≤ bound)
    (hSource : (Phrase.expr .lowest source).Derives embedded ts (.bracket .closeParen :: ts₁))
    (hBody : (Clause.body body).Derives ts₁ rest) :
    (StmtForm.parseFor Grammar.standard.parseExpr stmt).Reads
      (.keyword .forWord :: .bracket .openParen :: .name n :: .keyword .inWord :: ts)
      (.forIn n source body) rest := by
  apply Reads.bind (.expect (.keyword .forWord))
  apply Reads.bind (.expect (.bracket .openParen))
  apply Reads.bind .identifier
  apply Reads.bind (.expect (.keyword .inWord))
  apply Reads.bind (reads_expr hSource)
  apply Reads.bind (.expect (.bracket .closeParen))
  exact .bind (reads_body hStmt hBound hBody) .pure

theorem reads_while (hStmt : ReadsStmtsUpTo bound stmt) (hBound : ts₁.length ≤ bound)
    (hCondition : (Phrase.expr .lowest condition).Derives embedded ts
      (.bracket .closeParen :: ts₁))
    (hBody : (Clause.body body).Derives ts₁ rest) :
    (StmtForm.parseWhile Grammar.standard.parseExpr stmt).Reads
      (.keyword .whileWord :: .bracket .openParen :: ts) (.whileLoop condition body) rest := by
  apply Reads.bind (.expect (.keyword .whileWord))
  apply Reads.bind (reads_condition readsUpTo_parseExpr (Nat.le_refl _) hCondition)
  exact .bind (reads_body hStmt hBound hBody) .pure

theorem reads_control {control : LoopControl} :
    StmtForm.parseControl.Reads (.keyword (.control control) :: rest) (.control control) rest := by
  apply Reads.bind .advance
  cases control <;> exact .pure

end Control

/-! ## Functions and output -/

section Functions

variable {value : Expr} {ts₁ : List Token}

theorem reads_functionParameter (parameter : String × Ty) (rest : List Token) :
    (StmtForm.parseParameter Grammar.standard.parseType).Reads
      (functionParameterTokens parameter ++ rest) parameter rest := by
  apply Reads.bind .identifier
  apply Reads.bind (.expect (.symbol .colon))
  exact .bind (reads_type _ rest) .pure

theorem reads_function {name : String} {parameters : List (String × Ty)} {result : Ty} {m : Nat}
    (hStmt : ReadsStmtsUpTo bound stmt) (hBound : ts.length ≤ bound + 1)
    (hBody : (Clause.block body).Derives ts rest) :
    (StmtForm.parseFunction Grammar.standard.parseType stmt).Reads
      (.keyword .funWord :: .name name :: .bracket .openParen ::
        (listed functionParameterTokens parameters ++ .bracket .closeParen :: .symbol .colon ::
          (result.tokens ++ (breaks m ++ ts))))
      (.function name parameters result body) rest := by
  have hItems : (items (StmtForm.parseParameter Grammar.standard.parseType) (Pure.pure ())).Reads
      (listed functionParameterTokens parameters ++ .bracket .closeParen :: .symbol .colon ::
        (result.tokens ++ (breaks m ++ ts)))
      parameters (.symbol .colon :: (result.tokens ++ (breaks m ++ ts))) :=
    .items_listed (fun p _ rest' => reads_functionParameter p rest')
      (fun p _ => ⟨_, _, rfl, nofun⟩)
  have hBlock := reads_block hStmt hBound hBody
  obtain ⟨ts, rfl⟩ := hBody.block_head
  apply Reads.bind (.expect (.keyword .funWord))
  apply Reads.bind .identifier
  apply Reads.bind (.expect (.bracket .openParen))
  apply Reads.bind hItems
  apply Reads.bind (.expect (.symbol .colon))
  apply Reads.bind (reads_type _ _)
  refine .bind (.skipLineBreaks nofun) ?_
  exact .bind hBlock .pure

theorem reads_return (hValue : (Phrase.expr .lowest value).Derives embedded ts rest) :
    (StmtForm.parseReturn Grammar.standard.parseExpr).Reads (.keyword .returnWord :: ts)
      (.returns value) rest :=
  .bind (.expect (.keyword .returnWord)) (.bind (reads_expr hValue) .pure)

theorem reads_output {form : Output}
    (hValue : (Phrase.enclosed .closeParen value).Derives embedded ts rest) :
    (StmtForm.parseOutput Grammar.standard.parseExpr).Reads
      (.keyword (.output form) :: .bracket .openParen :: ts) (.output form value) rest := by
  apply Reads.bind .advance
  apply Reads.bind (reads_grouping readsUpTo_parseExpr (Nat.le_refl _) hValue)
  cases form <;> exact .pure

end Functions

/-! ## Statements -/

/-- A derived statement is read in the form that the grammar gives for its
first token. -/
theorem reads_stmtForm (hStmt : ReadsStmtsUpTo bound stmt) (hBound : ts.length ≤ bound + 1)
    (h : (Clause.stmt s).Derives ts rest) :
    ∃ t ts' form, ts = t :: ts' ∧ Grammar.standard.statement t.kind = some form ∧
      (form.parse Grammar.standard.parseExpr Grammar.standard.parseType stmt).Reads ts s rest := by
  cases h with
  | declare hEnd => exact ⟨_, _, .declaration, rfl, rfl, reads_declaration hEnd⟩
  | init hValue => exact ⟨_, _, .declaration, rfl, rfl, reads_init hValue⟩
  | assign hValue => exact ⟨_, _, .named, rfl, rfl, reads_assign hValue⟩
  | compound hValue => exact ⟨_, _, .named, rfl, rfl, reads_compound hValue⟩
  | call hHead hExpr => exact reads_expressionHead hHead rfl hExpr
  | step hHead hExpr => exact reads_expressionHead hHead rfl hExpr
  | ifThen hCondition hThen hNoElse =>
      have hLe := hCondition.length_le
      simp only [List.length_cons] at hBound hLe
      exact ⟨_, _, .conditional, rfl, rfl, reads_conditionalStmt hStmt (by omega) hCondition hThen
        (.elseBranch?_none hNoElse)⟩
  | ifElse hCondition hThen hElse =>
      have hLe := hCondition.length_le
      have hLe' := hThen.length_le
      simp only [List.length_cons, List.length_append] at hBound hLe hLe'
      exact ⟨_, _, .conditional, rfl, rfl, reads_conditionalStmt hStmt (by omega) hCondition hThen
        (.elseBranch?_some (reads_body hStmt (by omega) hElse))⟩
  | forIn hSource hBody =>
      have hLe := hSource.length_le
      simp only [List.length_cons] at hBound hLe
      exact ⟨_, _, .forLoop, rfl, rfl, reads_for hStmt (by omega) hSource hBody⟩
  | whileLoop hCondition hBody =>
      have hLe := hCondition.length_le
      simp only [List.length_cons] at hBound hLe
      exact ⟨_, _, .whileLoop, rfl, rfl, reads_while hStmt (by omega) hCondition hBody⟩
  | control => exact ⟨_, _, .control, rfl, rfl, reads_control⟩
  | function hBody =>
      simp only [List.length_cons, List.length_append] at hBound
      exact ⟨_, _, .function, rfl, rfl, reads_function hStmt (by omega) hBody⟩
  | returns hValue => exact ⟨_, _, .returns, rfl, rfl, reads_return hValue⟩
  | output hValue => exact ⟨_, _, .output, rfl, rfl, reads_output hValue⟩
  | block hBlock =>
      have hRun := reads_block hStmt hBound hBlock
      obtain ⟨ts, rfl⟩ := hBlock.block_head
      exact ⟨_, _, .block, rfl, rfl, .bind hRun .pure⟩

/-- Every derived statement is read, if the bound covers its tokens. -/
theorem reads_stmtAt : ∀ bound : Nat, ReadsStmtsUpTo bound (Grammar.standard.stmtAt bound) := by
  intro bound
  induction bound with
  | zero =>
      intro s ts rest hBound h
      have hLt := h.stmt_length_lt
      omega
  | succ bound ih =>
      intro s ts rest hBound h
      obtain ⟨t, ts', form, rfl, hForm, hRun⟩ := reads_stmtForm ih hBound h
      intro n
      obtain ⟨m, hRun⟩ := hRun n
      refine ⟨m, ?_⟩
      simp only [Grammar.stmtAt, Cursor.kind?_cons, Option.bind_some, hForm]
      exact hRun

theorem reads_stmt (h : (Clause.stmt s).Derives ts rest) :
    Grammar.standard.parseStmt.Reads ts s rest :=
  fun n => reads_stmtAt ts.length s ts rest (Nat.le_refl _) h n

end ScriptLang
