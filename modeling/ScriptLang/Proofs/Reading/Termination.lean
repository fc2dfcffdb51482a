import ScriptLang.Grammar.Program
import ScriptLang.Proofs.Reading.FormAgreement
import ScriptLang.Proofs.Scanning.Lengths
import ScriptLang.Proofs.Template.Pieces

/-!
# Reading comes to an end

Every recursion and every loop of the reading ends: its body, unfolded as often
as there are tokens left and once more, is never asked for what stands below
(`Grammar.ReadingEnds`). This is more than that a bound plays no part once it is
large enough: a table that leads back to itself has the same outcome under every
bound, and yet `typeStep_not_ends`.

What makes the recursions end is that whatever is read takes a token
(`Grammar.ReadingProgresses`). The source of a splice is a text of its own, so
there the measure starts anew; it is shorter than the text that it was cut from,
and that text is shorter than the source it was scanned from
(`SplicesEnd`).
-/

namespace ScriptLang

open ScriptLang.Parser (Agree)

variable {α ι : Type} {g : Grammar}

/-! ## From one token less to an end -/

namespace Parser

/-- The parser with the body `step` goes no deeper than there are tokens left. -/
def Ends (step : Parser α → Parser α) (p : Parser α) : Prop :=
  Recursion (fun c : Cursor => c.rest.length) step p

/-- The same for a parser with a parameter. -/
def FamilyEnds (step : (ι → Parser α) → ι → Parser α) (p : ι → Parser α) : Prop :=
  Recursion (fun k : ι × Cursor => k.2.rest.length)
    (fun x => Function.uncurry (step (Function.curry x))) (Function.uncurry p)

/-- A success takes a token, and leaves the cursor within the tokens. -/
def Progresses (p : Parser α) : Prop :=
  ∀ tokens position a c', position ≤ tokens.length → p (.ofTokens tokens position) = .ok a c' →
    ∃ position', position < position' ∧ position' ≤ tokens.length ∧
      c' = .ofTokens tokens position'

variable {k : Nat} {p : Parser α}

/-- Agreement wherever few tokens are left, whatever they are. -/
abbrev AgreeAll (least bound : Nat) (p q : Parser α) : Prop :=
  Agree (fun _ => True) least bound p q

theorem progresses_of_agree (h : ∀ n, AgreeAll 1 n p p) : p.Progresses := by
  intro tokens position a c' hPosition hRun
  have hTaken := (h _ (.ofTokens tokens position) (Nat.lt_succ_self _) fun _ _ => trivial).2
  obtain ⟨us, hLeast, hRest, hMoved⟩ := hTaken a c' hRun
  have hDropped : tokens.drop position = us ++ c'.rest := hRest
  have hBehind : c'.position = position + us.length := hMoved
  have hLength := congrArg List.length hDropped
  rw [List.length_drop, List.length_append] at hLength
  refine ⟨c'.position, by omega, by omega, ?_⟩
  have hLeft : tokens.drop c'.position = c'.rest := by
    rw [hBehind, ← List.drop_drop, hDropped, List.drop_left]
  rw [Cursor.ofTokens, hLeft]

/-- A bounded recursion whose body needs one token less for what it leads back
to ends, and its outcome does not depend on a bound that covers the tokens. -/
theorem ends_of_agree {F : Nat → Parser α} {step : Parser α → Parser α}
    (hSucc : ∀ bound, F (bound + 1) = step (F bound))
    (hNone : ∀ position, F 0 ⟨position, []⟩ = F 1 ⟨position, []⟩)
    (hStep : ∀ n p q, AgreeAll k n p q → AgreeAll k (n + 1) (step p) (step q)) :
    Ends step (fun c => F c.rest.length c) ∧
      ∀ n, AgreeAll k n (fun c => F c.rest.length c) (fun c => F c.rest.length c) := by
  have hEnds := Recursion.of_bounded (fun c : Cursor => c.rest.length) step
    (fun c r => ∀ a c', r = .ok a c' → Cursor.Reaches k c c')
    (fun bound c => congrFun (hSucc bound) c)
    (by
      rintro ⟨position, rest⟩ hLength
      cases List.eq_nil_of_length_eq_zero hLength
      exact hNone position)
    (fun x y c hSmaller =>
      hStep _ x y (fun l hLess _ => hSmaller l hLess) c (Nat.lt_succ_self _) fun _ _ => trivial)
  exact ⟨hEnds.1, fun n c _ _ => ⟨rfl, (hEnds.2 _ c (Nat.le_refl _)).2⟩⟩

theorem familyEnds_of_agree {F : Nat → ι → Parser α} {step : (ι → Parser α) → ι → Parser α}
    (hSucc : ∀ bound, F (bound + 1) = step (F bound))
    (hNone : ∀ i position, F 0 i ⟨position, []⟩ = F 1 i ⟨position, []⟩)
    (hStep : ∀ n p q, (∀ i, AgreeAll k n (p i) (q i)) →
      ∀ i, AgreeAll k (n + 1) (step p i) (step q i)) :
    FamilyEnds step (fun i c => F c.rest.length i c) ∧
      ∀ n i, AgreeAll k n (fun c => F c.rest.length i c) (fun c => F c.rest.length i c) := by
  have hEnds := Recursion.of_bounded (fun m : ι × Cursor => m.2.rest.length)
    (fun x => Function.uncurry (step (Function.curry x)))
    (F := fun bound => Function.uncurry (F bound))
    (fun m r => ∀ a c', r = .ok a c' → Cursor.Reaches k m.2 c')
    (fun bound m => congrFun (congrFun (hSucc bound) m.1) m.2)
    (by
      rintro ⟨i, position, rest⟩ hLength
      cases List.eq_nil_of_length_eq_zero hLength
      exact hNone i position)
    (fun x y m hSmaller =>
      hStep _ _ _ (fun i l hLess _ => hSmaller (i, l) hLess) m.1 m.2 (Nat.lt_succ_self _)
        fun _ _ => trivial)
  exact ⟨hEnds.1, fun n i c _ _ => ⟨rfl, (hEnds.2 _ (i, c) (Nat.le_refl _)).2⟩⟩

end Parser

/-! ## Types -/

theorem type_ends (h : g.Grounded) : Parser.Ends g.typeStep g.parseType ∧
    ∀ n, Parser.AgreeAll 1 n g.parseType g.parseType :=
  Parser.ends_of_agree g.typeAt_succ (fun _ => rfl) fun _ _ _ hType => typeStep_agree h hType

/-- The reading of a type does not end if the grammar leads back to itself from
some token. -/
theorem typeStep_not_ends {t : Token} (h : g.type t.kind = some .any) (type : Parser Ty) :
    ¬ Parser.Ends g.typeStep type := by
  have hLoop : ∀ x : Parser Ty, g.typeStep x ⟨0, [t]⟩ = x ⟨0, [t]⟩ := by
    intro x
    have hForm : Option.bind (Cursor.kind? ⟨0, [t]⟩) g.type = some .any := h
    rw [Grammar.typeStep, hForm]
    rfl
  have hNe : (EStateM.Result.ok (.basic .int) ⟨0, []⟩ : EStateM.Result ParseError Cursor Ty) ≠
      .error ⟨.emptyInput, 0⟩ ⟨0, []⟩ := nofun
  exact Recursion.not_of_loop hLoop hNe

/-! ## Expressions -/

variable {P : Token → Prop} {embed embed' : String → Except ParseError Expr} {n : Nat}

theorem expr_ends (h : g.Grounded) (embed : String → Except ParseError Expr) :
    Parser.FamilyEnds (g.exprStep embed) (fun power c => g.exprAt embed c.rest.length power c) ∧
      ∀ n power, Parser.AgreeAll 1 n (fun c => g.exprAt embed c.rest.length power c)
        (fun c => g.exprAt embed c.rest.length power c) :=
  Parser.familyEnds_of_agree (g.exprAt_succ embed) (fun _ _ => rfl) fun _ _ _ hExpr =>
    exprStep_agree (fun _ _ _ => rfl) hExpr (type_ends h).2

/-- The expressions that are spliced in may be read in another way, if that
makes no difference for the texts among the tokens. -/
theorem exprAt_agree (h : g.Grounded) (bound : Nat)
    (hText : ∀ contents, P (.text contents) → ∀ position,
      Template.parse embed contents position = Template.parse embed' contents position)
    (power : Power) : Agree P 1 n (g.exprAt embed bound power) (g.exprAt embed' bound power) := by
  induction bound generalizing n power with
  | zero => exact .unexpected _
  | succ bound ih =>
      cases n with
      | zero => exact .none
      | succ n =>
          exact exprStep_agree hText (fun power => ih power) (parseType_agree h) power

/-! ## Statements -/

theorem stmt_ends (h : g.Grounded) : Parser.Ends g.stmtStep g.parseStmt ∧
    ∀ n, Parser.AgreeAll 1 n g.parseStmt g.parseStmt :=
  Parser.ends_of_agree g.stmtAt_succ (fun _ => rfl) fun _ _ _ hStmt =>
    stmtStep_agree h (expr_ends h embedded).2 (type_ends h).2 hStmt

/-! ## Loops -/

theorem moreItems_ends {item : Parser α} {gap : Parser Unit}
    (hItem : ∀ n, Parser.AgreeAll 1 n item item) (hGap : ∀ n, Parser.AgreeAll 0 n gap gap) :
    Parser.Ends (Parser.moreItemsStep item gap)
      (fun c => Parser.moreItems item gap c.rest.length c) :=
  (Parser.ends_of_agree (Parser.moreItems_succ item gap) (fun _ => rfl) fun n _ _ hMore =>
    Parser.moreItemsStep_agree (hItem n) hGap hMore).1

/-- Every recursion and every loop of a grammar ends. -/
structure Grammar.ReadingEnds (g : Grammar) : Prop where
  type : Parser.Ends g.typeStep g.parseType
  parameterTypes : Parser.Ends (Parser.moreItemsStep g.parseType (pure ()))
    (fun c => Parser.moreItems g.parseType (pure ()) c.rest.length c)
  /-- However the expressions that are spliced in are read. -/
  expr : ∀ embed, Parser.FamilyEnds (g.exprStep embed)
    (fun power c => g.exprAt embed c.rest.length power c)
  operators : ∀ power, Parser.FamilyEnds (g.climbStep g.parseExpr power)
    (fun left c => g.climb g.parseExpr power c.rest.length left c)
  arguments : Parser.Ends (Parser.moreItemsStep (g.parseExpr .lowest) Parser.skipLineBreaks)
    (fun c => Parser.moreItems (g.parseExpr .lowest) Parser.skipLineBreaks c.rest.length c)
  lambdaParameters : Parser.Ends (OperandForm.parametersStep g.parseType)
    (fun c => OperandForm.parseParameters g.parseType c.rest.length c)
  stmt : Parser.Ends g.stmtStep g.parseStmt
  sequence : ∀ terminator?, Parser.Ends (Sequence.parseFromStep g.parseStmt terminator?)
    (fun c => Sequence.parseFrom g.parseStmt terminator? c.rest.length c)
  functionParameters :
    Parser.Ends (Parser.moreItemsStep (StmtForm.parseParameter g.parseType) (pure ()))
      (fun c => Parser.moreItems (StmtForm.parseParameter g.parseType) (pure ()) c.rest.length c)

theorem readingEnds (h : g.Grounded) : g.ReadingEnds where
  type := (type_ends h).1
  parameterTypes := moreItems_ends (type_ends h).2 fun _ => .pure _
  expr embed := (expr_ends h embed).1
  operators power := (Parser.familyEnds_of_agree (g.climb_succ g.parseExpr power)
    (fun _ _ => rfl) fun n _ _ hNext =>
      climbStep_agree ((expr_ends h embedded).2 n) hNext power).1
  arguments := moreItems_ends (fun n => (expr_ends h embedded).2 n .lowest) fun _ =>
    .skipLineBreaks
  lambdaParameters := (Parser.ends_of_agree (OperandForm.parseParameters_succ g.parseType)
    (fun _ => rfl) fun _ _ _ hMore =>
      OperandForm.parametersStep_agree (type_ends h).2 hMore).1
  stmt := (stmt_ends h).1
  sequence terminator? := (Parser.ends_of_agree (Sequence.parseFrom_succ g.parseStmt terminator?)
    (fun _ => rfl) fun n _ _ hMore =>
      Sequence.parseFromStep_agree ((stmt_ends h).2 (n + 1)) hMore terminator?).1
  functionParameters := moreItems_ends
    (fun _ => StmtForm.parseParameter_agree (type_ends h).2) fun _ => .pure _

/-! ## Progress -/

/-- Whatever is read takes a token, in whichever form it is read. -/
structure Grammar.ReadingProgresses (g : Grammar) : Prop where
  expr : ∀ power, (g.parseExpr power).Progresses
  stmt : g.parseStmt.Progresses
  type : g.parseType.Progresses
  block : g.parseBlock.Progresses
  lambda : g.parseLambda.Progresses
  operandAs : ∀ form, (g.parseOperandAs form).Progresses
  operatorAs : ∀ form left power, (g.parseOperatorAs form left power).Progresses
  stmtAs : ∀ form, (g.parseStmtAs form).Progresses
  typeAs : ∀ form, (g.parseTypeAs form).Progresses

theorem readingProgresses (h : g.Grounded) : g.ReadingProgresses := by
  have hType := (type_ends h).2
  have hExpr := (expr_ends h embedded).2
  have hStmt := (stmt_ends h).2
  have hNext : ∀ {α : Type} {p : Parser α},
      (∀ n, Parser.AgreeAll 1 (n + 1) p p) → p.Progresses := fun hAgree =>
    Parser.progresses_of_agree fun n => (hAgree n).mono (Nat.le_succ n)
  constructor
  · exact fun power => Parser.progresses_of_agree fun n => hExpr n power
  · exact Parser.progresses_of_agree hStmt
  · exact Parser.progresses_of_agree hType
  · exact hNext fun n => StmtForm.parseBlock_agree (hStmt n)
  · exact hNext fun n => OperandForm.parseLambda_agree (hExpr n) hType
  · exact fun form => hNext fun n =>
      OperandForm.parse_agree (fun _ _ _ => rfl) (hExpr n) hType form
  · exact fun form left power => hNext fun n =>
      OperatorForm.parse_agree (hExpr n) left power form
  · intro form
    by_cases hForm : form = .any
    · rw [hForm]
      exact Parser.progresses_of_agree hStmt
    · exact hNext fun n => StmtForm.parse_agree hExpr hType (hStmt n) hForm
  · intro form
    by_cases hForm : form = .any
    · rw [hForm]
      exact Parser.progresses_of_agree hType
    · exact hNext fun n => TypeForm.parse_agree (hType n) hForm

/-! ## Splices -/

/-- The reading of the source of a splice, with `embed` for the splices inside. -/
def embeddedStep (embed : String → Except ParseError Expr) (source : String) :
    Except ParseError Expr := do
  let tokens ← tokenize source
  wholeExpression (Grammar.standard.exprAt embed tokens.length .lowest) tokens

theorem wholeExpression_congr {p q : Parser Expr} {ts : List Token}
    (h : p (.start ts) = q (.start ts)) : wholeExpression p ts = wholeExpression q ts := by
  have hRun : (p >>= fun e => Parser.expectEnd >>= fun _ => pure e) (.start ts) =
      (q >>= fun e => Parser.expectEnd >>= fun _ => pure e) (.start ts) := by
    show EStateM.bind p _ _ = EStateM.bind q _ _
    rw [EStateM.bind, EStateM.bind, h]
  rw [wholeExpression, wholeExpression, Parser.parse, Parser.parse, hRun]

/-- The texts in a source are shorter than the source, and what they splice in
is shorter still. -/
theorem embedded_recursion : Recursion String.length embeddedStep embedded := by
  refine (Recursion.of_bounded String.length embeddedStep (fun _ _ => True)
    (F := embeddedAt) (fun _ _ => rfl) ?_ ?_).1
  · intro source hNone
    rw [String.length_eq_zero_iff.1 hNone]
    rfl
  · intro x y source hSmaller
    refine ⟨?_, trivial⟩
    rw [embeddedStep, embeddedStep]
    cases hTokens : tokenize source with
    | error e => rfl
    | ok ts =>
        rw [except_bind_of_ok rfl, except_bind_of_ok rfl]
        have hText : ∀ contents : String, contents.length + 2 ≤ source.length → ∀ position,
            Template.parse x contents position = Template.parse y contents position :=
          fun contents hLength position => Template.parse_congr fun inner hInner =>
            (hSmaller inner (by omega)).1
        have hAgree := exprAt_agree (P := fun t => ∀ contents, t = .text contents →
            contents.length + 2 ≤ source.length) (n := ts.length + 1)
          Grammar.standard_grounded ts.length
          (fun contents hShort => hText contents (hShort _ rfl)) .lowest
        refine wholeExpression_congr (hAgree (.start ts) (Nat.lt_succ_self _) ?_).1
        rintro t hMem contents rfl
        exact length_of_tokenize hTokens hMem

/-- The source of a splice is read as any source of an expression. -/
theorem embedded_eq (source : String) :
    embedded source = tokenize source >>= parseExpression := by
  rw [← embedded_recursion.unfold, embeddedStep]
  rfl

/-- What is spliced into a text is read to its end, since at each level the text
becomes shorter. -/
structure SplicesEnd : Prop where
  scanner : Recursion (·.rest.length) Scanner.runStep (fun s => Scanner.run s.rest.length s)
  scanned : ∀ source, tokenize source =
    Scanner.tokensOf (Scanner.run (Scanner.start source).rest.length (.start source))
  pieces : Recursion List.length Template.piecesStep Template.pieces
  embedded : Recursion String.length embeddedStep embedded
  /-- How longer texts are read plays no part for a literal. -/
  handed : ∀ (embed embed' : String → Except ParseError Expr) (literal : String) (position : Nat),
    (∀ source : String, source.length + 3 ≤ literal.length → embed source = embed' source) →
      Template.parse embed literal position = Template.parse embed' literal position
  length_source : ∀ (literal : String) (inner : List Char),
    .source inner ∈ Template.pieces literal.toList → inner.length + 3 ≤ literal.length
  length_text : ∀ (source : String) (tokens : List Token) (contents : String),
    tokenize source = .ok tokens → .text contents ∈ tokens →
      contents.length + 2 ≤ source.length

/-- The reading of expressions, statements and programs ends, and it makes
progress on the way. -/
theorem reading_ends : Grammar.standard.ReadingEnds ∧ Grammar.standard.ReadingProgresses ∧
    SplicesEnd := by
  refine ⟨readingEnds Grammar.standard_grounded, readingProgresses Grammar.standard_grounded, ?_⟩
  constructor
  · exact Scanner.run_recursion
  · intro source
    show tokenize source = Scanner.tokensOf (Scanner.run source.toList.length (.start source))
    rw [String.length_toList]
    rfl
  · exact Template.pieces_recursion
  · exact embedded_recursion
  · exact fun embed embed' literal position hSame => Template.parse_congr hSame
  · intro literal inner hMem
    rw [← String.length_toList]
    exact Template.length_source hMem
  · exact fun source tokens contents hTokens hText => length_of_tokenize hTokens hText

end ScriptLang
