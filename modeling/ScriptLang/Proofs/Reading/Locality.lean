import ScriptLang.Proofs.Reading.StmtGrammar

/-!
# Locality

What is read depends on the tokens that it takes and, of what stands behind
them, on very little: how tightly the next token binds, whether an `else` is
ahead, and for statements whether one may end there. `Replaces rest rest'` says
that `rest'` may stand in place of `rest` as far as an expression is concerned,
`StmtReplaces` that it may for a statement.

A relation is `Local` at a place if it takes tokens there and takes them again
in front of any replacement. Locality is put together part by part, in reading
order (`Local.before`, `Local.bind`, `Local.here`), which gives
`Phrase.Derives.locality` and `Clause.Derives.locality`.

The end of the tokens may replace anything (`StmtReplaces.nil`): a derived
phrase can always be cut out.
-/

namespace ScriptLang

variable {rest rest' : List Token}

/-! ## What may stand behind -/

/-- An expression that ends in front of `rest` also ends in front of `rest'`. -/
structure Replaces (rest rest' : List Token) : Prop where
  rank : headRank rest' ≤ headRank rest
  elseAhead : ElseAhead rest' → ElseAhead rest

/-- A statement that ends in front of `rest` also ends in front of `rest'`. -/
structure StmtReplaces (rest rest' : List Token) : Prop extends Replaces rest rest' where
  atEnd : AtStatementEnd rest → AtStatementEnd rest'

theorem not_elseAhead_nil : ¬ ElseAhead [] := by
  rintro ⟨n, ts, hTokens⟩
  have hLength := congrArg List.length hTokens
  simp at hLength

/-- Behind a token an `else` is ahead if the token is one, or is a line break
with an `else` ahead behind it. -/
theorem elseAhead_cons {t : Token} {ts : List Token} : ElseAhead (t :: ts) ↔
    t = .keyword .elseWord ∨ (t = .symbol .lineBreak ∧ ElseAhead ts) := by
  constructor
  · rintro ⟨n, ts', hTokens⟩
    cases n with
    | zero => exact .inl (List.cons.inj hTokens).1
    | succ n =>
        rw [breaks_succ, List.cons_append, List.cons.injEq] at hTokens
        exact .inr ⟨hTokens.1, n, ts', hTokens.2⟩
  · rintro (rfl | ⟨rfl, n, ts', rfl⟩)
    · exact ⟨0, ts, rfl⟩
    · exact ⟨n + 1, ts', rfl⟩

/-- No `else` is ahead of another token, even behind line breaks. -/
theorem not_elseAhead_breaks {t : Token} {ts : List Token} (n : Nat)
    (hElse : t ≠ .keyword .elseWord) (hBreak : t ≠ .symbol .lineBreak) :
    ¬ ElseAhead (breaks n ++ t :: ts) := by
  induction n with
  | zero =>
      rw [breaks_zero, List.nil_append, elseAhead_cons]
      exact fun h => h.elim hElse fun hBoth => hBreak hBoth.1
  | succ n ih =>
      rw [breaks_succ, List.cons_append, elseAhead_cons]
      exact fun h => h.elim nofun fun hBoth => ih hBoth.2

namespace Replaces

/-- A token that continues nothing may stand in place of the end, also behind
line breaks. -/
theorem of_end {t : Token} {ts : List Token} (n : Nat)
    (hRank : (Grammar.standard.powerOf t.kind).rank = 0) (hElse : t ≠ .keyword .elseWord)
    (hBreak : t ≠ .symbol .lineBreak) : Replaces [] (breaks n ++ t :: ts) where
  rank := by
    cases n with
    | zero => exact Nat.le_of_eq hRank
    | succ n => exact Nat.le_refl 0
  elseAhead h := absurd h (not_elseAhead_breaks n hElse hBreak)

theorem of_bracket {close : Bracket} {ts : List Token} (n : Nat)
    (hRank : (Grammar.standard.powerOf (.bracket close)).rank = 0) :
    Replaces [] (breaks n ++ .bracket close :: ts) :=
  of_end n hRank nofun nofun

theorem of_comma {ts : List Token} (n : Nat) : Replaces [] (breaks n ++ .symbol .comma :: ts) :=
  of_end n rfl nofun nofun

theorem cons (h : Replaces rest rest') (t : Token) : Replaces (t :: rest) (t :: rest') where
  rank := Nat.le_refl _
  elseAhead hElse := by
    rw [elseAhead_cons] at hElse ⊢
    exact hElse.imp_right fun hBreak => ⟨hBreak.1, h.elseAhead hBreak.2⟩

/-- Tokens that stay in front keep one rest replaceable by another. -/
theorem append (h : Replaces rest rest') (u : List Token) : Replaces (u ++ rest) (u ++ rest') := by
  induction u with
  | nil => exact h
  | cons t u ih => exact ih.cons t

end Replaces

namespace StmtReplaces

theorem cons (h : StmtReplaces rest rest') (t : Token) :
    StmtReplaces (t :: rest) (t :: rest') where
  toReplaces := h.toReplaces.cons t
  atEnd hEnd := hEnd

theorem append (h : StmtReplaces rest rest') (u : List Token) :
    StmtReplaces (u ++ rest) (u ++ rest') := by
  induction u with
  | nil => exact h
  | cons t u ih => exact ih.cons t

/-- The end of the tokens may replace anything. -/
theorem nil (rest : List Token) : StmtReplaces rest [] where
  rank := Nat.zero_le _
  elseAhead hElse := absurd hElse not_elseAhead_nil
  atEnd _ := nofun

end StmtReplaces

/-! ## What is taken -/

/-- What relates `ts` to `rest` takes tokens from the front, and takes them
again in front of anything that may replace `rest`. -/
def Local (May Rel : List Token → List Token → Prop) (ts rest : List Token) : Prop :=
  ∃ u, ts = u ++ rest ∧ ∀ rest', May rest rest' → Rel (u ++ rest') rest'

namespace Local

variable {May May' Rel First : List Token → List Token → Prop} {ts mid : List Token}

/-- Where nothing is taken. -/
theorem here (hRel : ∀ rest', May rest rest' → Rel rest' rest') : Local May Rel rest rest :=
  ⟨[], rfl, hRel⟩

/-- Tokens that are taken first. -/
theorem before (v : List Token) (h : Local May (fun ts rest => Rel (v ++ ts) rest) ts rest) :
    Local May Rel (v ++ ts) rest := by
  obtain ⟨u, rfl, hu⟩ := h
  refine ⟨v ++ u, (List.append_assoc v u rest).symm, ?_⟩
  intro rest' hRest
  rw [List.append_assoc]
  exact hu rest' hRest

theorem imp (h : Local May First ts rest)
    (hImp : ∀ ts rest', May rest rest' → First ts rest' → Rel ts rest') :
    Local May Rel ts rest := by
  obtain ⟨u, hTokens, hu⟩ := h
  exact ⟨u, hTokens, fun rest' hRest => hImp _ rest' hRest (hu rest' hRest)⟩

theorem mono (h : Local May' Rel ts rest) (hMay : ∀ rest', May rest rest' → May' rest rest') :
    Local May Rel ts rest := by
  obtain ⟨u, hTokens, hu⟩ := h
  exact ⟨u, hTokens, fun rest' hRest => hu rest' (hMay rest' hRest)⟩

/-- One part after the other. What the second part takes stays in front of the
replaced rest, so it must keep that rest replaceable. -/
theorem bind (hFirst : Local May First ts mid)
    (hMay : ∀ {rest rest'}, May rest rest' → ∀ u, May (u ++ rest) (u ++ rest'))
    (hMore : Local May (fun mid rest => ∀ ts, First ts mid → Rel ts rest) mid rest) :
    Local May Rel ts rest := by
  obtain ⟨u₁, rfl, hu₁⟩ := hFirst
  obtain ⟨u₂, rfl, hu₂⟩ := hMore
  refine ⟨u₁ ++ u₂, (List.append_assoc u₁ u₂ rest).symm, ?_⟩
  intro rest' hRest
  rw [List.append_assoc]
  exact hu₂ rest' hRest _ (hu₁ _ (hMay hRest u₂))

end Local

/-- The first token of a phrase that takes one does not depend on what stands
behind it. -/
theorem head?_append_of_length_lt {u : List Token} (h : rest.length < (u ++ rest).length)
    (rest' : List Token) : (u ++ rest').head? = (u ++ rest).head? := by
  cases u with
  | nil => exact absurd h (Nat.lt_irrefl _)
  | cons t u => rfl

theorem ExpressionHead.append_of_length_lt {u : List Token} (hHead : ExpressionHead (u ++ rest))
    (h : rest.length < (u ++ rest).length) : ExpressionHead (u ++ rest') := by
  cases u with
  | nil => exact absurd h (Nat.lt_irrefl _)
  | cons t u =>
      rcases hHead with ⟨n, ts, hTokens⟩ | ⟨op, ts, hTokens⟩
      · exact .inl ⟨n, u ++ rest', by rw [(List.cons.inj hTokens).1]; rfl⟩
      · exact .inr ⟨op, u ++ rest', by rw [(List.cons.inj hTokens).1]; rfl⟩

/-! ## Expressions -/

namespace Phrase.Derives

variable {embed : String → Except ParseError Expr} {ph : Phrase} {ts : List Token}

/-- A derived phrase takes its tokens again in front of anything that may
replace what stood behind it. -/
theorem locality (h : ph.Derives embed ts rest) : Local Replaces (ph.Derives embed) ts rest := by
  induction h with
  | int => exact .before [_] (.here fun _ _ => .int)
  | truth => exact .before [_] (.here fun _ _ => .truth)
  | name => exact .before [_] (.here fun _ _ => .name)
  | text hText => exact .before [_] (.here fun _ _ => .text hText)
  | step => exact .before [_, _] (.here fun _ _ => .step)
  | negation _ ih => exact .before [_] (ih.imp fun _ _ _ h => .negation h)
  | grouping _ ih => exact .before [_] (ih.imp fun _ _ _ h => .grouping h)
  | lambdaOperand _ ih => exact ih.imp fun _ _ _ h => .lambdaOperand h
  | ifThen _ _ hNoElse ihCondition ihThen =>
      apply Local.before [.keyword .ifWord, .bracket .openParen]
      apply ihCondition.bind Replaces.append
      apply Local.before [.bracket .closeParen]
      apply Local.before (breaks _)
      exact ihThen.imp fun _ _ hRest hThen _ hCondition =>
        .ifThen hCondition hThen fun hElse => hNoElse (hRest.elseAhead hElse)
  | ifElse _ _ _ ihCondition ihThen ihElse =>
      apply Local.before [.keyword .ifWord, .bracket .openParen]
      apply ihCondition.bind Replaces.append
      apply Local.before [.bracket .closeParen]
      apply Local.before (breaks _)
      apply ihThen.bind Replaces.append
      apply Local.before (breaks _)
      apply Local.before [.keyword .elseWord]
      apply Local.before (breaks _)
      exact ihElse.imp fun _ _ _ hElse _ hThen _ hCondition => .ifElse hCondition hThen hElse
  | generateInside _ _ ihSize ihLambda =>
      apply Local.before [.typeWord (.collection _), .bracket .openParen]
      apply ihSize.bind Replaces.append
      apply Local.before [.symbol .comma]
      apply Local.before (breaks _)
      apply ihLambda.bind Replaces.append
      apply Local.before [.bracket .closeParen]
      exact .here fun _ _ _ hLambda _ hSize => .generateInside hSize hLambda
  | generateBehind _ _ ihSize ihLambda =>
      apply Local.before [.typeWord (.collection _), .bracket .openParen]
      apply ihSize.bind Replaces.append
      apply Local.before [.bracket .closeParen]
      exact ihLambda.imp fun _ _ _ hLambda _ hSize => .generateBehind hSize hLambda
  | literal _ ih => exact .before [_, _] (ih.imp fun _ _ _ h => .literal h)
  | enclosed _ ih =>
      apply Local.before (breaks _)
      apply ih.bind Replaces.append
      apply Local.before (breaks _)
      apply Local.before [.bracket _]
      exact .here fun _ _ _ h => .enclosed h
  | lambdaParameters _ ih =>
      apply Local.before [.bracket .openCurly]
      apply Local.before (breaks _)
      apply Local.before (parameterListTokens _)
      exact ih.imp fun _ _ _ h => .lambdaParameters h
  | lambdaBare _ ih => exact .before [_] (ih.imp fun _ _ _ h => .lambdaBare h)
  | branchBraced _ ih => exact .before [_] (ih.imp fun _ _ _ h => .branchBraced h)
  | branchBare hHead hExpr ih =>
      obtain ⟨u, rfl, hu⟩ := ih
      refine ⟨u, rfl, fun rest' hRest => .branchBare ?_ (hu rest' hRest)⟩
      rwa [head?_append_of_length_lt hExpr.expr_length_lt]
  | argumentsNone =>
      apply Local.before (breaks _)
      exact .before [_] (.here fun _ _ => .argumentsNone)
  | argumentsSome _ _ ihFirst ihMore =>
      apply Local.before (breaks _)
      apply ihFirst.bind Replaces.append
      apply Local.before (breaks _)
      exact ihMore.imp fun _ _ _ hMore _ hFirst => .argumentsSome hFirst hMore
  | moreClose => exact .before [_] (.here fun _ _ => .moreClose)
  | moreNext _ _ ihFirst ihMore =>
      apply Local.before [.symbol .comma]
      apply Local.before (breaks _)
      apply ihFirst.bind Replaces.append
      apply Local.before (breaks _)
      exact ihMore.imp fun _ _ _ hMore _ hFirst => .moreNext hFirst hMore
  | expr _ _ ihLeft ihClimb =>
      apply ihLeft.bind Replaces.append
      exact ihClimb.imp fun _ _ _ hClimb _ hLeft => .expr hLeft hClimb
  | stop hRank => exact .here fun _ hRest => .stop (Nat.le_trans hRest.rank hRank)
  | binary hRank _ _ ihRight ihClimb =>
      apply Local.before [.infixMark (.binary _)]
      apply Local.before (breaks _)
      apply ihRight.bind Replaces.append
      exact ihClimb.imp fun _ _ _ hClimb _ hRight => .binary hRank hRight hClimb
  | range hRank _ _ ihLast ihClimb =>
      apply Local.before [.symbol .dotDot]
      apply ihLast.bind Replaces.append
      exact ihClimb.imp fun _ _ _ hClimb _ hLast => .range hRank hLast hClimb
  | stepBehind hRank _ ih => exact .before [_] (ih.imp fun _ _ _ h => .stepBehind hRank h)
  | call hRank _ _ ihArguments ihClimb =>
      apply Local.before [.bracket .openParen]
      apply ihArguments.bind Replaces.append
      exact ihClimb.imp fun _ _ _ hClimb _ hArguments => .call hRank hArguments hClimb
  | index hRank _ _ ihIndex ihClimb =>
      apply Local.before [.bracket .openSquare]
      apply ihIndex.bind Replaces.append
      apply Local.before [.bracket .closeSquare]
      exact ihClimb.imp fun _ _ _ hClimb _ hIndex => .index hRank hIndex hClimb

theorem stmtLocality (h : ph.Derives embed ts rest) :
    Local StmtReplaces (ph.Derives embed) ts rest :=
  h.locality.mono fun _ hRest => hRest.toReplaces

/-- A phrase that takes all tokens is derived in front of whatever may replace
the end. -/
theorem extend (h : ph.Derives embed ts []) (hRest : Replaces [] rest) :
    ph.Derives embed (ts ++ rest) rest := by
  obtain ⟨u, rfl, hu⟩ := h.locality
  rw [List.append_nil]
  exact hu rest hRest

end Phrase.Derives

/-! ## Statements -/

namespace Clause.Derives

variable {cl : Clause} {ts : List Token}

/-- The same for statements, blocks and sequences. -/
theorem locality (h : cl.Derives ts rest) : Local StmtReplaces cl.Derives ts rest := by
  induction h with
  | declare hEnd =>
      apply Local.before [.keyword (.declaration _), .name _]
      apply Local.before (annotationTokens _)
      exact .here fun _ hRest => .declare (hRest.atEnd hEnd)
  | init hValue =>
      apply Local.before [.keyword (.declaration _), .name _]
      apply Local.before (annotationTokens _)
      apply Local.before [.infixMark .assign]
      apply Local.before (breaks _)
      exact hValue.stmtLocality.imp fun _ _ _ h => .init h
  | assign hValue =>
      apply Local.before [.name _, .infixMark .assign]
      apply Local.before (breaks _)
      exact hValue.stmtLocality.imp fun _ _ _ h => .assign h
  | compound hValue =>
      apply Local.before [.name _, .infixMark (.compound _)]
      apply Local.before (breaks _)
      exact hValue.stmtLocality.imp fun _ _ _ h => .compound h
  | call hHead hExpr =>
      obtain ⟨u, rfl, hu⟩ := hExpr.stmtLocality
      exact ⟨u, rfl, fun rest' hRest =>
        .call (hHead.append_of_length_lt hExpr.expr_length_lt) (hu rest' hRest)⟩
  | step hHead hExpr =>
      obtain ⟨u, rfl, hu⟩ := hExpr.stmtLocality
      exact ⟨u, rfl, fun rest' hRest =>
        .step (hHead.append_of_length_lt hExpr.expr_length_lt) (hu rest' hRest)⟩
  | ifThen hCondition _ hNoElse ih =>
      apply Local.before [.keyword .ifWord, .bracket .openParen]
      apply hCondition.stmtLocality.bind StmtReplaces.append
      apply Local.before [.bracket .closeParen]
      exact ih.imp fun _ _ hRest hThen _ hCondition =>
        .ifThen hCondition hThen fun hElse => hNoElse (hRest.elseAhead hElse)
  | ifElse hCondition _ _ ihThen ihElse =>
      apply Local.before [.keyword .ifWord, .bracket .openParen]
      apply hCondition.stmtLocality.bind StmtReplaces.append
      apply Local.before [.bracket .closeParen]
      apply ihThen.bind StmtReplaces.append
      apply Local.before (breaks _)
      apply Local.before [.keyword .elseWord]
      exact ihElse.imp fun _ _ _ hElse _ hThen _ hCondition => .ifElse hCondition hThen hElse
  | forIn hSource _ ih =>
      apply Local.before [.keyword .forWord, .bracket .openParen, .name _, .keyword .inWord]
      apply hSource.stmtLocality.bind StmtReplaces.append
      apply Local.before [.bracket .closeParen]
      exact ih.imp fun _ _ _ hBody _ hSource => .forIn hSource hBody
  | whileLoop hCondition _ ih =>
      apply Local.before [.keyword .whileWord, .bracket .openParen]
      apply hCondition.stmtLocality.bind StmtReplaces.append
      apply Local.before [.bracket .closeParen]
      exact ih.imp fun _ _ _ hBody _ hCondition => .whileLoop hCondition hBody
  | control => exact .before [_] (.here fun _ _ => .control)
  | function _ ih =>
      apply Local.before [.keyword .funWord, .name _, .bracket .openParen]
      apply Local.before (listed functionParameterTokens _)
      apply Local.before [.bracket .closeParen, .symbol .colon]
      apply Local.before (Ty.tokens _)
      apply Local.before (breaks _)
      exact ih.imp fun _ _ _ h => .function h
  | returns hValue => exact .before [_] (hValue.stmtLocality.imp fun _ _ _ h => .returns h)
  | output hValue => exact .before [_, _] (hValue.stmtLocality.imp fun _ _ _ h => .output h)
  | block _ ih => exact ih.imp fun _ _ _ h => .block h
  | braces _ ih =>
      apply Local.before [.bracket .openCurly]
      apply ih.bind StmtReplaces.append
      apply Local.before [.bracket .closeCurly]
      exact .here fun _ _ _ h => .braces h
  | bodyBlock _ ih => exact .before (breaks _) (ih.imp fun _ _ _ h => .bodyBlock h)
  | bodySingle hHead hStmt ih =>
      apply Local.before (breaks _)
      obtain ⟨u, rfl, hu⟩ := ih
      refine ⟨u, rfl, fun rest' hRest => .bodySingle ?_ (hu rest' hRest)⟩
      rwa [head?_append_of_length_lt hStmt.stmt_length_lt]
  | empty hBefore => exact .before _ (.here fun _ _ => .empty hBefore)
  | last hBefore _ ih => exact .before _ (ih.imp fun _ _ _ h => .last hBefore h)
  | next hBefore _ hBetween _ ihFirst ihMore =>
      apply Local.before _
      apply ihFirst.bind StmtReplaces.append
      apply Local.before [_]
      exact ihMore.imp fun _ _ _ hMore _ hFirst => .next hBefore hFirst hBetween hMore

/-- A clause that takes all tokens is derived in front of whatever may replace
the end. -/
theorem extend (h : cl.Derives ts []) (hRest : StmtReplaces [] rest) :
    cl.Derives (ts ++ rest) rest := by
  obtain ⟨u, rfl, hu⟩ := h.locality
  rw [List.append_nil]
  exact hu rest hRest

end Clause.Derives

/-! ## Parts in brackets -/

section Brackets

variable {e : Expr} {body : List Stmt} {ts : List Token}

theorem derives_closeParen (h : (Phrase.expr .lowest e).Derives embedded ts []) :
    (Phrase.expr .lowest e).Derives embedded (ts ++ .bracket .closeParen :: rest)
      (.bracket .closeParen :: rest) :=
  h.extend (.of_bracket 0 rfl)

theorem derives_enclosed {close : Bracket} (h : (Phrase.expr .lowest e).Derives embedded ts [])
    (hRank : (Grammar.standard.powerOf (.bracket close)).rank = 0) :
    (Phrase.enclosed close e).Derives embedded (ts ++ .bracket close :: rest) rest :=
  Phrase.Derives.enclosed (m := 0) (n := 0) (h.extend (.of_bracket 0 hRank))

/-- A closing brace may stand in place of the end. -/
theorem stmtReplaces_closeCurly : StmtReplaces [] (.bracket .closeCurly :: rest) where
  toReplaces := .of_bracket 0 rfl
  atEnd _ _ ht := .inr (Option.some.inj ht).symm

theorem derives_block (h : (Clause.sequence body).Derives ts []) :
    (Clause.block body).Derives (.bracket .openCurly :: (ts ++ .bracket .closeCurly :: rest))
      rest :=
  .braces (h.extend stmtReplaces_closeCurly)

end Brackets

end ScriptLang
