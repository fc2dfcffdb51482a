import ScriptLang.Proofs.Outcome
import ScriptLang.Proofs.Reading.ExprDerived

/-!
# What is derived is read as an expression

The converse: one lemma for each form says that the parser of the form reads
what a rule derives, given a parser that reads all shorter derived expressions
(`ReadsUpTo`). `reads_exprAt` ties the knot by induction on the bound.
-/

namespace ScriptLang

open ScriptLang.Parser

/-- Every derived expression of at most `bound` tokens before it ends is read. -/
def ReadsUpTo (embed : String → Except ParseError Expr) (bound : Nat)
    (expr : Power → Parser Expr) : Prop :=
  ∀ (power : Power) (e : Expr) (ts rest : List Token), ts.length ≤ bound →
    (Phrase.expr power e).Derives embed ts rest → (expr power).Reads ts e rest

/-! ## Annotations and parameters -/

theorem reads_annotation? {ty? : Option Ty} {rest : List Token}
    (hRest : rest.head? ≠ some (.symbol .colon)) :
    (OperandForm.parseAnnotation? Grammar.standard.parseType).Reads
      (annotationTokens ty? ++ rest) ty? rest := by
  cases ty? with
  | none =>
      refine .isAt_else ?_ .pure
      intro t ht hKind
      rw [Token.kind_eq_symbol.1 hKind] at ht
      exact hRest ht
  | some ty =>
      rw [annotationTokens, List.cons_append]
      exact .isAt_then rfl (.bind .advance (.bind (reads_type ty rest) .pure))

theorem reads_parameters : ∀ (bound : Nat) (p : String × Option Ty)
    (ps : List (String × Option Ty)) (rest : List Token), ps.length < bound →
    (OperandForm.parseParameters Grammar.standard.parseType bound).Reads
      (parameterListTokens (p :: ps) ++ rest) (p :: ps) rest := by
  intro bound
  induction bound with
  | zero => exact fun p ps rest hBound => absurd hBound (Nat.not_lt_zero _)
  | succ bound ih =>
      intro p ps rest hBound
      cases ps with
      | nil =>
          have hTokens : parameterListTokens [p] ++ rest =
              .name p.1 :: (annotationTokens p.2 ++ .symbol .arrow :: rest) := by
            simp [parameterListTokens, listed, listedMore, parameterTokens]
          rw [hTokens]
          apply Reads.bind .identifier
          apply Reads.bind (reads_annotation? (by simp))
          refine .isAt_else ?_ ?_
          · intro t ht
            rw [← Option.some.inj ht]
            decide
          · exact .bind (.expect (.symbol .arrow)) .pure
      | cons q qs =>
          have hTokens : parameterListTokens (p :: q :: qs) ++ rest =
              .name p.1 :: (annotationTokens p.2 ++
                .symbol .comma :: (parameterListTokens (q :: qs) ++ rest)) := by
            simp [parameterListTokens, listed_cons_cons, parameterTokens]
          rw [hTokens]
          have hMore := ih q qs rest (by simpa using hBound)
          apply Reads.bind .identifier
          apply Reads.bind (reads_annotation? (by simp))
          refine .isAt_then rfl ?_
          exact .bind .advance (.bind hMore .pure)

/-- A parameter list that is spelled out is read, whatever stands behind it. -/
theorem reads_parameterList (parameters : List (String × Option Ty)) (rest : List Token) :
    (OperandForm.parseParameterList Grammar.standard.parseType).Reads
      (parameterListTokens parameters ++ rest) parameters rest := by
  cases parameters with
  | nil => exact .isAt_then rfl (.bind .advance .pure)
  | cons p ps =>
      refine .isAt_else ?_ ?_
      · intro t ht
        rw [← Option.some.inj ht]
        exact nofun
      · have hLe := length_le_listedMore parameterTokens ps
        refine fun n => reads_parameters _ p ps rest ?_ n
        simp only [parameterListTokens, listed, parameterTokens, List.length_append,
          List.length_cons]
        omega

theorem parameterListTokens_noBreak (parameters : List (String × Option Ty))
    (rest : List Token) : NoBreak (parameterListTokens parameters ++ rest) := by
  cases parameters with
  | nil => exact nofun
  | cons p ps => exact nofun

/-- Behind the name of a first parameter stands a colon, a comma or an arrow. -/
theorem parameterListTokens_cons (p : String × Option Ty) (ps : List (String × Option Ty))
    (rest : List Token) :
    ∃ t ts, parameterListTokens (p :: ps) ++ rest = .name p.1 :: t :: ts ∧
      (t = .symbol .colon ∨ t = .symbol .comma ∨ t = .symbol .arrow) := by
  obtain ⟨name, _ | ty⟩ := p
  · cases ps with
    | nil => exact ⟨_, _, rfl, .inr (.inr rfl)⟩
    | cons q qs => exact ⟨_, _, rfl, .inr (.inl rfl)⟩
  · exact ⟨_, _, rfl, .inl rfl⟩

/-- The body of a lambda is never mistaken for its parameters: behind a name
that starts both, neither a colon nor a comma nor an arrow continues an
expression. -/
theorem expr_ne_parameters {embed : String → Except ParseError Expr} {e : Expr}
    {parameters : List (String × Option Ty)} {n : Nat} {ts rest : List Token}
    (h : (Phrase.expr .lowest e).Derives embed ts (breaks n ++ .bracket .closeCurly :: rest))
    (tail : List Token) : ts ≠ parameterListTokens parameters ++ tail := by
  intro hTokens
  cases parameters with
  | nil =>
      refine h.expr_head_ne (t := .symbol .arrow) rfl ?_
      rw [hTokens]
      rfl
  | cons p ps =>
      obtain ⟨t, ts', hCons, hNext⟩ := parameterListTokens_cons p ps tail
      rw [hTokens, hCons] at h
      cases h with
      | expr hLeft hClimb =>
          cases hLeft with
          | name =>
              have hRank : headRank (t :: ts') ≤ Power.lowest.rank := by
                rcases hNext with rfl | rfl | rfl <;> exact Nat.le_refl 0
              have hStop := (hClimb.climb_stops hRank).2
              cases n with
              | zero =>
                  rw [breaks_zero, List.nil_append, List.cons.injEq] at hStop
                  rcases hNext with rfl | rfl | rfl <;> exact absurd hStop.1 nofun
              | succ n =>
                  rw [breaks_succ, List.cons_append, List.cons.injEq] at hStop
                  rcases hNext with rfl | rfl | rfl <;> exact absurd hStop.1 nofun
          | lambdaOperand hLambda =>
              obtain ⟨_, hBrace⟩ := hLambda.lambda_head
              exact absurd hBrace nofun

/-! ## Operands -/

section Operands

variable {embed : String → Except ParseError Expr} {bound : Nat} {expr : Power → Parser Expr}
  {e : Expr} {fn : Lambda} {es : List Expr} {ts rest : List Token}

theorem reads_enclosed {close : Bracket} (hExpr : ReadsUpTo embed bound expr)
    (hBound : ts.length ≤ bound) (h : (Phrase.enclosed close e).Derives embed ts rest) :
    (OperandForm.parseEnclosed expr close).Reads ts e rest := by
  cases h with
  | enclosed hInside =>
      rw [List.length_append] at hBound
      apply Reads.bind (.skipLineBreaks hInside.expr_noBreak)
      apply Reads.bind (hExpr _ _ _ _ (by omega) hInside)
      refine .bind (.skipLineBreaks nofun) ?_
      exact .bind (.expect (.bracket close)) .pure

theorem reads_lambda (hExpr : ReadsUpTo embed bound expr) (hBound : ts.length ≤ bound + 1)
    (h : (Phrase.lambda fn).Derives embed ts rest) :
    (OperandForm.parseLambda expr Grammar.standard.parseType).Reads ts fn rest := by
  cases h with
  | lambdaParameters hBody =>
      simp only [List.length_cons, List.length_append] at hBound
      have hRead := reads_enclosed hExpr (by omega) hBody
      apply Reads.bind (.expect (.bracket .openCurly))
      apply Reads.bind (.skipLineBreaks (parameterListTokens_noBreak _ _))
      apply Reads.bind (.orRewind (reads_parameterList _ _))
      exact .bind hRead .pure
  | lambdaBare hBody =>
      cases hBody with
      | enclosed hInside =>
          simp only [List.length_cons, List.length_append] at hBound
          have hBody := Phrase.Derives.enclosed (m := 0) hInside
          rw [breaks_zero, List.nil_append] at hBody
          have hRead := reads_enclosed hExpr (by omega) hBody
          apply Reads.bind (.expect (.bracket .openCurly))
          apply Reads.bind (.skipLineBreaks hInside.expr_noBreak)
          refine .bind (.orRewind_fallback ?_) (.bind hRead .pure)
          intro n parameters c' hRun
          exact expr_ne_parameters hInside _ (parseParameterList_spelled hRun)

theorem reads_branch (hExpr : ReadsUpTo embed bound expr) (hBound : ts.length ≤ bound)
    (h : (Phrase.branch e).Derives embed ts rest) :
    (OperandForm.parseBranch expr).Reads ts e rest := by
  cases h with
  | branchBraced hInside =>
      rw [List.length_cons] at hBound
      exact .isAt_then rfl (.bind .advance (reads_enclosed hExpr (by omega) hInside))
  | branchBare hHead hBare =>
      refine .isAt_else ?_ (hExpr _ _ _ _ hBound hBare)
      intro t ht hKind
      rw [Token.kind_eq_bracket.1 hKind] at ht
      exact hHead ht

theorem reads_condition {ts₁ : List Token} (hExpr : ReadsUpTo embed bound expr)
    (hBound : ts.length ≤ bound)
    (h : (Phrase.expr .lowest e).Derives embed ts (.bracket .closeParen :: ts₁)) :
    (OperandForm.parseCondition expr).Reads (.bracket .openParen :: ts) e ts₁ := by
  apply Reads.bind (.expect (.bracket .openParen))
  apply Reads.bind (hExpr _ _ _ _ hBound h)
  exact .bind (.expect (.bracket .closeParen)) .pure

/-- Further arguments start with a comma or the closing parenthesis. -/
theorem moreArguments_noBreak (h : (Phrase.moreArguments es).Derives embed ts rest) :
    NoBreak ts := by
  cases h <;> exact nofun

theorem reads_moreArguments (hExpr : ReadsUpTo embed bound expr) : ∀ (k : Nat) (es : List Expr)
    (ts : List Token), ts.length ≤ k → ts.length ≤ bound →
    (Phrase.moreArguments es).Derives embed ts rest →
    (moreItems (expr .lowest) skipLineBreaks k).Reads ts es rest := by
  intro k
  induction k with
  | zero =>
      intro es ts hShort _ h
      have hLe : 1 + rest.length ≤ ts.length := h.least_add_length_le
      omega
  | succ k ih =>
      intro es ts hShort hBound h
      cases h with
      | moreClose => exact .moreItems_close
      | moreNext hFirst hMore =>
          have hLt := hFirst.length_le
          simp only [List.length_cons, List.length_append, length_breaks] at hShort hBound hLt
          exact .moreItems_next (.skipLineBreaks hFirst.expr_noBreak)
            (hExpr _ _ _ _ (by omega) hFirst) (.skipLineBreaks (moreArguments_noBreak hMore))
            (ih _ _ (by omega) (by omega) hMore)

theorem reads_arguments (hExpr : ReadsUpTo embed bound expr) (hBound : ts.length ≤ bound)
    (h : (Phrase.arguments es).Derives embed ts rest) :
    (OperandForm.parseArguments expr).Reads ts es rest := by
  cases h with
  | argumentsNone => exact .items_none (.skipLineBreaks nofun)
  | argumentsSome hFirst hMore =>
      have hLe := hFirst.length_le
      simp only [List.length_append, length_breaks] at hBound hLe
      exact .items_some (.skipLineBreaks hFirst.expr_noBreak) (hFirst.expr_head_ne rfl)
        (hExpr _ _ _ _ (by omega) hFirst) (.skipLineBreaks (moreArguments_noBreak hMore))
        (reads_moreArguments hExpr _ _ _ (Nat.le_refl _) (by omega) hMore)

/-- Where a text stands matters to its errors only. -/
theorem assemble_position (literal : String) (p q : Nat) :
    ∀ (pieces : List Template.Piece) (offset : Nat) (r : List Char × List (Nat × Expr)),
      Template.assemble embed literal p offset pieces = .ok r →
      Template.assemble embed literal q offset pieces = .ok r := by
  intro pieces
  induction pieces with
  | nil => exact fun offset r h => h
  | cons piece pieces ih =>
      intro offset r h
      cases piece with
      | plain | dollar | name =>
          obtain ⟨r', hRest, hMade⟩ := except_bind_eq_ok.1 h
          exact except_bind_eq_ok.2 ⟨r', ih _ _ hRest, hMade⟩
      | source text =>
          obtain ⟨e, hSource, h⟩ := except_bind_eq_ok.1 h
          obtain ⟨r', hRest, hMade⟩ := except_bind_eq_ok.1 h
          refine except_bind_eq_ok.2 ⟨e, ?_, except_bind_eq_ok.2 ⟨r', ih _ _ hRest, hMade⟩⟩
          unfold Template.readSource at hSource ⊢
          cases hEmbed : embed (String.ofList text) with
          | ok e' => rwa [hEmbed] at hSource
          | error fault =>
              rw [hEmbed] at hSource
              exact absurd hSource nofun
      | unclosed => exact absurd h nofun

theorem template_position {literal : String} {p : Nat}
    (h : Template.parse embed literal p = .ok e) (q : Nat) :
    Template.parse embed literal q = .ok e := by
  obtain ⟨r, hAssemble, hMade⟩ := except_bind_eq_ok.1 h
  exact except_bind_eq_ok.2 ⟨r, assemble_position literal p q _ _ _ hAssemble, hMade⟩

theorem reads_text {contents : String} {position : Nat}
    (h : Template.parse embed contents position = .ok e) :
    (OperandForm.parsePrimary embed).Reads (.text contents :: rest) e rest := by
  refine .position_bind fun n => .bind .advance ?_
  exact fun m => ⟨m, ofExcept_eq_ok.2 ⟨template_position h n, rfl⟩⟩

theorem reads_negation (hExpr : ReadsUpTo embed bound expr) (hBound : ts.length ≤ bound)
    (h : (Phrase.expr .unary e).Derives embed ts rest) :
    (OperandForm.parseNegation expr).Reads (.unaryMark .not :: ts) (.not e) rest :=
  .bind (.expect (.unaryMark .not)) (.bind (hExpr _ _ _ _ hBound h) .pure)

theorem reads_grouping (hExpr : ReadsUpTo embed bound expr) (hBound : ts.length ≤ bound)
    (h : (Phrase.enclosed .closeParen e).Derives embed ts rest) :
    (OperandForm.parseGrouping expr).Reads (.bracket .openParen :: ts) e rest :=
  .bind (.expect (.bracket .openParen)) (reads_enclosed hExpr hBound h)

theorem reads_conditional {condition thenBranch : Expr} {alternative : Option Expr} {m : Nat}
    {ts₁ ts₂ : List Token} (hExpr : ReadsUpTo embed bound expr) (hBound : ts.length ≤ bound)
    (hCondition : (Phrase.expr .lowest condition).Derives embed ts
      (.bracket .closeParen :: (breaks m ++ ts₁)))
    (hThen : (Phrase.branch thenBranch).Derives embed ts₁ ts₂)
    (hElse : (elseBranch? (do skipLineBreaks; OperandForm.parseBranch expr)).Reads ts₂
      alternative rest) :
    (OperandForm.parseConditional expr).Reads (.keyword .ifWord :: .bracket .openParen :: ts)
      (match alternative with
        | some elseBranch => .ifElse condition thenBranch elseBranch
        | none => .ifThen condition thenBranch) rest := by
  have hLe := hCondition.length_le
  simp only [List.length_cons, List.length_append] at hLe
  apply Reads.bind (.expect (.keyword .ifWord))
  apply Reads.bind (reads_condition hExpr hBound hCondition)
  apply Reads.bind (.skipLineBreaks hThen.branch_noBreak)
  apply Reads.bind (reads_branch hExpr (by omega) hThen)
  apply Reads.bind hElse
  cases alternative <;> exact .pure

theorem reads_generator {kind : Collection} {size : Expr} {ts₁ : List Token}
    (hExpr : ReadsUpTo embed bound expr) (hBound : ts.length ≤ bound)
    (hSize : (Phrase.expr .lowest size).Derives embed ts ts₁)
    (hInitializer : (OperandForm.parseInitializer expr Grammar.standard.parseType).Reads ts₁ fn
      rest) :
    (OperandForm.parseGenerator expr Grammar.standard.parseType).Reads
      (.typeWord (.collection kind) :: .bracket .openParen :: ts)
      (.generate kind size fn.parameters fn.body) rest := by
  apply Reads.bind .advance
  apply Reads.bind (.expect (.bracket .openParen))
  apply Reads.bind (hExpr _ _ _ _ hBound hSize)
  apply Reads.bind hInitializer
  cases kind <;> exact .pure

theorem reads_literal {kind : Collection} (hExpr : ReadsUpTo embed bound expr)
    (hBound : ts.length ≤ bound) (hItems : (Phrase.arguments es).Derives embed ts rest) :
    (OperandForm.parseLiteral expr).Reads (.keyword (.literal kind) :: .bracket .openParen :: ts)
      (.literal kind es) rest := by
  apply Reads.bind .advance
  apply Reads.bind (.expect (.bracket .openParen))
  apply Reads.bind (reads_arguments hExpr hBound hItems)
  cases kind <;> exact .pure

/-- An operand is read in the form that the grammar gives for its first token. -/
theorem reads_operand (hExpr : ReadsUpTo embed bound expr) (hBound : ts.length ≤ bound + 1)
    (h : (Phrase.operand e).Derives embed ts rest) :
    (Grammar.standard.parseOperand embed expr).Reads ts e rest := by
  cases h with
  | int => exact fun n => ⟨n + 1, rfl⟩
  | truth => exact fun n => ⟨n + 1, rfl⟩
  | name => exact fun n => ⟨n + 1, rfl⟩
  | step => exact fun n => ⟨n + 2, rfl⟩
  | text hText => exact fun n => reads_text hText n
  | negation hOperand =>
      rw [List.length_cons] at hBound
      exact fun n => reads_negation hExpr (by omega) hOperand n
  | grouping hInside =>
      rw [List.length_cons] at hBound
      exact fun n => reads_grouping hExpr (by omega) hInside n
  | @lambdaOperand fn _ _ hLambda =>
      obtain ⟨ts, rfl⟩ := hLambda.lambda_head
      have hRun : (OperandForm.parseLambda expr Grammar.standard.parseType >>= fun fn =>
          Pure.pure fn.toExpr).Reads (.bracket .openCurly :: ts) fn.toExpr rest :=
        .bind (reads_lambda hExpr hBound hLambda) .pure
      exact fun n => hRun n
  | ifThen hCondition hThen hNoElse =>
      simp only [List.length_cons] at hBound
      exact fun n => reads_conditional hExpr (by omega) hCondition hThen
        (.elseBranch?_none hNoElse) n
  | ifElse hCondition hThen hElse =>
      have hLe := hCondition.length_le
      have hLe' := hThen.length_le
      simp only [List.length_cons, List.length_append] at hBound hLe hLe'
      have hAlternative := reads_branch hExpr (by omega) hElse
      exact fun n => reads_conditional hExpr (by omega) hCondition hThen
        (.elseBranch?_some (.bind (.skipLineBreaks hElse.branch_noBreak) hAlternative)) n
  | generateInside hSize hLambda =>
      have hLe := hSize.length_le
      simp only [List.length_cons, List.length_append] at hBound hLe
      have hRead := reads_lambda hExpr (by omega) hLambda
      obtain ⟨ts, rfl⟩ := hLambda.lambda_head
      refine fun n => reads_generator hExpr (by omega) hSize (.isAt_then rfl ?_) n
      apply Reads.bind .advance
      refine .bind (.skipLineBreaks nofun) ?_
      apply Reads.bind hRead
      exact .bind (.expect (.bracket .closeParen)) .pure
  | generateBehind hSize hLambda =>
      have hLe := hSize.length_le
      simp only [List.length_cons] at hBound hLe
      refine fun n => reads_generator hExpr (by omega) hSize (.isAt_else ?_
        (.bind (.expect (.bracket .closeParen)) (reads_lambda hExpr (by omega) hLambda))) n
      intro t ht
      rw [← Option.some.inj ht]
      exact nofun
  | literal hItems =>
      simp only [List.length_cons] at hBound
      exact fun n => reads_literal hExpr (by omega) hItems n

end Operands

/-! ## Operators -/

section Operators

variable {embed : String → Except ParseError Expr} {bound k : Nat}
  {expr : Power → Parser Expr} {power : Power} {left left' e : Expr} {ts ts' rest : List Token}

theorem reads_climb_stop (hRank : headRank ts ≤ power.rank) :
    (Grammar.standard.climb expr power k e).Reads ts e ts := by
  intro n
  refine ⟨n, ?_⟩
  cases k with
  | zero => rfl
  | succ k =>
      cases ts with
      | nil => rfl
      | cons t ts =>
          simp only [Grammar.climb, Cursor.kind?_cons]
          exact if_pos hRank

theorem reads_climb_step {t : Token} {form : OperatorForm}
    (hRank : power.rank < (Grammar.standard.powerOf t.kind).rank)
    (hForm : Grammar.standard.operator t.kind = some form)
    (hOperator : (form.parse expr left (Grammar.standard.powerOf t.kind)).Reads (t :: ts) left'
      ts')
    (hClimb : (Grammar.standard.climb expr power k left').Reads ts' e rest) :
    (Grammar.standard.climb expr power (k + 1) left).Reads (t :: ts) e rest := by
  intro n
  obtain ⟨m, hRun⟩ := Reads.bind hOperator hClimb n
  refine ⟨m, ?_⟩
  simp only [Grammar.climb, Cursor.kind?_cons, hForm]
  rw [if_neg (Nat.not_le.2 hRank)]
  exact hRun

/-- A climb is read operator by operator; each is at least one token. -/
theorem reads_climb (hExpr : ReadsUpTo embed bound expr) (power : Power) :
    ∀ (k : Nat) (left : Expr) (ts : List Token), ts.length ≤ k → ts.length ≤ bound →
      (Phrase.climb power left e).Derives embed ts rest →
      (Grammar.standard.climb expr power k left).Reads ts e rest := by
  intro k
  induction k with
  | zero =>
      intro left ts hShort _ h
      rw [List.eq_nil_of_length_eq_zero (Nat.le_zero.1 hShort)] at h
      have hRank : headRank [] ≤ power.rank := Nat.zero_le _
      obtain ⟨rfl, rfl⟩ := h.climb_stops hRank
      rw [List.eq_nil_of_length_eq_zero (Nat.le_zero.1 hShort)]
      exact reads_climb_stop hRank
  | succ k ih =>
      intro left ts hShort hBound h
      cases h with
      | stop hRank => exact reads_climb_stop hRank
      | binary hRank hRight hClimb =>
          have hLe := hRight.length_le
          simp only [List.length_cons, List.length_append] at hShort hBound
          have hMore := ih _ _ (by omega) (by omega) hClimb
          refine reads_climb_step hRank rfl (.position_bind fun _ => ?_) hMore
          apply Reads.bind .advance
          apply Reads.bind (.skipLineBreaks hRight.expr_noBreak)
          exact .bind (hExpr _ _ _ _ (by omega) hRight) .pure
      | range hRank hLast hClimb =>
          have hLe := hLast.length_le
          simp only [List.length_cons] at hShort hBound
          have hMore := ih _ _ (by omega) (by omega) hClimb
          refine reads_climb_step hRank rfl ?_ hMore
          apply Reads.bind (.expect (.symbol .dotDot))
          exact .bind (hExpr _ _ _ _ (by omega) hLast) .pure
      | stepBehind hRank hClimb =>
          simp only [List.length_cons] at hShort hBound
          have hMore := ih _ _ (by omega) (by omega) hClimb
          exact reads_climb_step hRank rfl (.position_bind fun _ => .bind .advance .pure) hMore
      | call hRank hArguments hClimb =>
          have hLe := hArguments.length_le
          simp only [List.length_cons] at hShort hBound
          have hMore := ih _ _ (by omega) (by omega) hClimb
          refine reads_climb_step hRank rfl ?_ hMore
          apply Reads.bind (.expect (.bracket .openParen))
          exact .bind (reads_arguments hExpr (by omega) hArguments) .pure
      | index hRank hIndex hClimb =>
          have hLe := hIndex.length_le
          simp only [List.length_cons] at hShort hBound hLe
          have hMore := ih _ _ (by omega) (by omega) hClimb
          refine reads_climb_step hRank rfl ?_ hMore
          apply Reads.bind (.expect (.bracket .openSquare))
          apply Reads.bind (hExpr _ _ _ _ (by omega) hIndex)
          exact .bind (.expect (.bracket .closeSquare)) .pure

end Operators

/-! ## Expressions -/

/-- Every derived expression is read, if the bound covers its tokens. -/
theorem reads_exprAt (embed : String → Except ParseError Expr) :
    ∀ bound : Nat, ReadsUpTo embed bound (Grammar.standard.exprAt embed bound) := by
  intro bound
  induction bound with
  | zero =>
      intro power e ts rest hBound h
      have hLt := h.expr_length_lt
      omega
  | succ bound ih =>
      intro power e ts rest hBound h
      cases h with
      | expr hLeft hClimb =>
          have hLt : 1 + _ ≤ _ := hLeft.least_add_length_le
          apply Reads.bind (reads_operand ih hBound hLeft)
          exact fun n => reads_climb ih power _ _ _ (Nat.le_refl _) (by omega) hClimb n

theorem reads_expr {power : Power} {e : Expr} {ts rest : List Token}
    (h : (Phrase.expr power e).Derives embedded ts rest) :
    (Grammar.standard.parseExpr power).Reads ts e rest :=
  fun n => reads_exprAt embedded ts.length power e ts rest (Nat.le_refl _) h n

/-- The parser of expressions reads whatever is derived, of any length. -/
theorem readsUpTo_parseExpr {bound : Nat} :
    ReadsUpTo embedded bound Grammar.standard.parseExpr :=
  fun _ _ _ _ _ h => reads_expr h

end ScriptLang
