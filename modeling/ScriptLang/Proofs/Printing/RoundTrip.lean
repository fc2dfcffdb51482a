import ScriptLang.Proofs.Printing.StmtPrinted

/-!
# Printing and reading

Reading inverts printing. A plain expression and a canonical program are read
back from their canonical tokens, and every program that was read without
splices is canonical: the rules make no other assignments, and a literal is read
without splices only if it is plain.

## Main results

* `Phrase.Derives.everyText`, `Clause.Derives.every` : what is derived is plain
  wherever it has no splice.
* `parse_canonicalTokens` : the round trip, for expressions and for programs.
-/

namespace ScriptLang

/-! ## What is derived is plain -/

/-- A string node without splices has a plain text. -/
def PlainUnlessSpliced (text : String) (splices : List (Nat × Expr)) : Prop :=
  splices = [] → PlainText text

/-- A property of every string node of a part of an expression. Climbing keeps
it. -/
def Phrase.EveryText (P : String → List (Nat × Expr) → Prop) : Phrase → Prop
  | .operand e | .expr _ e | .enclosed _ e | .branch e => e.EveryText P
  | .climb _ left e => left.EveryText P → e.EveryText P
  | .lambda fn => fn.body.EveryText P
  | .arguments es | .moreArguments es => Expr.EveryTextIn P es

/-- Every text that is derived is plain, unless something is spliced in. -/
theorem Phrase.Derives.everyText {embed : String → Except ParseError Expr} {ph : Phrase}
    {ts rest : List Token} (h : ph.Derives embed ts rest) : ph.EveryText PlainUnlessSpliced := by
  induction h with
  | int | truth | name | step | argumentsNone | moreClose => trivial
  | text hText =>
      obtain ⟨text, splices, rfl, hPlain⟩ := Template.text_of_parse hText
      exact hPlain
  | negation _ ih | grouping _ ih | lambdaOperand _ ih | literal _ ih | enclosed _ ih
  | lambdaParameters _ ih | lambdaBare _ ih | branchBraced _ ih | branchBare _ _ ih => exact ih
  | ifThen _ _ _ ihCondition ihThen => exact ⟨ihCondition, ihThen⟩
  | ifElse _ _ _ ihCondition ihThen ihElse => exact ⟨ihCondition, ihThen, ihElse⟩
  | generateInside _ _ ihSize ihLambda | generateBehind _ _ ihSize ihLambda =>
      exact ⟨ihSize, ihLambda⟩
  | argumentsSome _ _ ihFirst ihMore | moreNext _ _ ihFirst ihMore => exact ⟨ihFirst, ihMore⟩
  | expr _ _ ihLeft ihClimb => exact ihClimb ihLeft
  | stop => exact id
  | binary _ _ _ ihRight ihClimb | range _ _ _ ihRight ihClimb =>
      exact fun hLeft => ihClimb ⟨hLeft, ihRight⟩
  | stepBehind _ _ ihClimb => exact fun _ => ihClimb trivial
  | call _ _ _ ihInside ihClimb | index _ _ _ ihInside ihClimb => exact fun _ => ihClimb ihInside

/-- A property of every statement in a part of a program. -/
def Clause.Every (P : Stmt → Prop) : Clause → Prop
  | .stmt s => s.Every P
  | .block ss | .body ss | .sequence ss => Stmt.EveryIn P ss

/-- The statement's own texts are plain, unless something is spliced in, and it
is plain as an assignment. -/
def Stmt.ReadHere (s : Stmt) : Prop :=
  (∀ e ∈ s.expressions, e.EveryText PlainUnlessSpliced) ∧ s.PlainAssign

theorem everyText_of_singleton {e : Expr} (h : e.EveryText PlainUnlessSpliced) :
    ∀ e' ∈ [e], e'.EveryText PlainUnlessSpliced := by
  intro e' hMem
  rw [List.mem_singleton.1 hMem]
  exact h

/-- Every statement that is derived is plain where it has no splice. -/
theorem Clause.Derives.every {cl : Clause} {ts rest : List Token} (h : cl.Derives ts rest) :
    cl.Every Stmt.ReadHere := by
  induction h with
  | declare | control | step => exact ⟨nofun, trivial⟩
  | init hValue => exact ⟨everyText_of_singleton hValue.everyText, .inl rfl⟩
  | assign hValue => exact ⟨everyText_of_singleton hValue.everyText, .inr ⟨rfl, rfl⟩⟩
  | compound hValue | returns hValue | output hValue =>
      exact ⟨everyText_of_singleton hValue.everyText, trivial⟩
  | call _ hExpr => exact ⟨Expr.everyTextIn_iff.1 hExpr.everyText, trivial⟩
  | ifThen hCondition _ _ ih | whileLoop hCondition _ ih | forIn hCondition _ ih =>
      exact ⟨⟨everyText_of_singleton hCondition.everyText, trivial⟩, ih⟩
  | ifElse hCondition _ _ ihThen ihElse =>
      exact ⟨⟨everyText_of_singleton hCondition.everyText, trivial⟩, ihThen, ihElse⟩
  | function _ ih | block _ ih => exact ⟨⟨nofun, trivial⟩, ih⟩
  | braces _ ih | bodyBlock _ ih => exact ih
  | bodySingle _ _ ih | last _ _ ih => exact ⟨ih, trivial⟩
  | empty => trivial
  | next _ _ _ _ ihFirst ihMore => exact ⟨ihFirst, ihMore⟩

/-- What was read without splices can be printed. -/
theorem canonical_of_parseProgram {ts : List Token} {p : Program}
    (hParse : parseProgram ts = .ok p) (hNone : NoSplices p) : Canonical p := by
  have hRead : Stmt.EveryIn Stmt.ReadHere p := (parseProgram_eq_ok.1 hParse).2.every
  refine Stmt.everyIn_of ?_ p hNone hRead
  rintro s hNoSplices ⟨hTexts, hAssign⟩
  refine ⟨fun e he => ?_, hAssign⟩
  exact Expr.everyText_of (fun _ _ hEmpty hPlain => ⟨hEmpty, hPlain hEmpty⟩) e (hNoSplices e he)
    (hTexts e he)

/-! ## The round trip -/

theorem parseExpression_tokens {e : Expr} (h : e.Plain) : parseExpression e.tokens = .ok e :=
  parseExpression_eq_ok.2 (e.derives_tokens h)

theorem parseProgram_sequenceTokens {p : Program} (hNonempty : p ≠ []) (h : Canonical p) :
    parseProgram (sequenceTokens p) = .ok p :=
  parseProgram_eq_ok.2 ⟨hNonempty, Stmt.derives_sequenceTokens p h⟩

/-- Plain expressions and canonical programs are read back from their canonical
tokens, and whatever program is read without splices is canonical. -/
theorem parse_canonicalTokens :
    (∀ e : Expr, e.Plain → parseExpression e.tokens = .ok e) ∧
    (∀ p : Program, p ≠ [] → Canonical p → parseProgram (sequenceTokens p) = .ok p) ∧
    (∀ (ts : List Token) (p : Program), parseProgram ts = .ok p → NoSplices p →
      Canonical p ∧ parseProgram (sequenceTokens p) = .ok p) := by
  refine ⟨fun e h => parseExpression_tokens h,
    fun p hNonempty h => parseProgram_sequenceTokens hNonempty h, ?_⟩
  intro ts p hParse hNone
  have hCanonical := canonical_of_parseProgram hParse hNone
  exact ⟨hCanonical, parseProgram_sequenceTokens (parseProgram_eq_ok.1 hParse).1 hCanonical⟩

/-- A lone `$` is printed and read back, in an expression and in a program, and
a program that was read behind a semicolon is canonical. -/
theorem read_back_cost :
    parseExpression (Expr.ifThen (.var "ok") (.text "$ 5" [])).tokens =
        .ok (.ifThen (.var "ok") (.text "$ 5" [])) ∧
      parseProgram (sequenceTokens [.assign "cost" (.text "$ 5" []) none false false,
          .output .print (.var "cost")]) =
        .ok [.assign "cost" (.text "$ 5" []) none false false, .output .print (.var "cost")] ∧
      Canonical [.returns (.int 1)] := by
  have hPlain : PlainText "$ 5" := by
    simp [PlainText, plainChars_cons, plainChars_nil, Text.isWordStart]
  refine ⟨parse_canonicalTokens.1 _ ⟨trivial, rfl, hPlain⟩,
    parse_canonicalTokens.2.1 _ (List.cons_ne_nil _ _) ?_, ?_⟩
  · simp [Canonical, Stmt.EveryIn, Stmt.Every, Stmt.PlainHere, Stmt.expressions, Expr.Plain,
      Expr.EveryText, Stmt.PlainAssign, hPlain]
  · refine (parse_canonicalTokens.2.2 [.symbol .semicolon, .keyword .returnWord, .int 1] _ rfl
      ?_).1
    simp [NoSplices, Stmt.EveryIn, Stmt.Every, Stmt.NoSplicesHere, Stmt.expressions,
      Expr.NoSplices, Expr.EveryText]

end ScriptLang
