import ScriptLang.Proofs.Reading.Input
import ScriptLang.Proofs.Reading.LocatedForms
import ScriptLang.Proofs.Scanning.Boundaries

/-!
# The places of errors

What the error of a whole input says of its tokens: whether there was anything
to read, whether they ended too early, and otherwise which token it quotes
(`errors_point_at_tokens`).

A form also has errors for tokens to which no table leads it. They never come
up, neither in a whole input nor in the source of a splice, nor where a
parameter list is tried and given up (`guards_unreachable`).
-/

namespace ScriptLang

open ScriptLang.Parser (Located LocatedAt)

variable {tokens rest : List Token} {fault : ParseFault} {e : ParseError} {spelling : String}

/-! ## What a fault that fits says -/

namespace ParseFault

/-- A fault of a form that met a token it was not made for, or none. -/
inductive IsGuard : ParseFault → Prop
  | unexpected (token : String) : IsGuard (.unexpected token)
  | missing : IsGuard (.unexpectedEnd "another token")
  | noOperator (token : String) : IsGuard (.unexpectedDetailed token "expected an operator")
  | notBinary (token : String) : IsGuard (.unexpectedDetailed token "not a binary operator")
  | notBasic (token : String) : IsGuard (.unexpectedDetailed token "expected a basic type")

/-- A fault that quotes one token. -/
inductive Quotes (spelling : String) : ParseFault → Prop
  | trailing : Quotes spelling (.trailing spelling)
  | missingSeparator : Quotes spelling (.missingSeparator spelling)
  | refused {message : String} (h : message ≠ TypeForm.elementMessage) :
    Quotes spelling (.unexpectedDetailed spelling message)

namespace Fits

theorem not_guard (h : fault.Fits rest) : ¬ fault.IsGuard := by
  rintro (_ | _ | _ | _ | _)
  · cases h
  · cases h with
    | ended hPlain => exact absurd hPlain (by decide)
  all_goals
    generalize hMessage : ParseFault.unexpectedDetailed _ _ = fault at h
    cases h with
    | refused hPlain =>
        obtain ⟨-, rfl⟩ := ParseFault.unexpectedDetailed.inj hMessage
        exact absurd hPlain (by decide)
    | element =>
        obtain ⟨-, hText⟩ := ParseFault.unexpectedDetailed.inj hMessage
        exact absurd hText (by decide)
    | _ => cases hMessage

theorem ended_iff (h : fault.Fits rest) :
    (∃ expected, fault = .unexpectedEnd expected) ↔ rest = [] := by
  cases h with
  | ended => exact iff_of_true ⟨_, rfl⟩ rfl
  | element ty ts =>
      obtain ⟨t, later, hTokens, -⟩ := ty.tokens_head
      rw [hTokens]
      exact iff_of_false nofun nofun
  | _ => exact iff_of_false nofun nofun

theorem head_of_quotes (h : fault.Fits rest) (hQuotes : fault.Quotes spelling) :
    ∃ t, rest.head? = some t ∧ spelling = t.spelling := by
  cases hQuotes with
  | trailing =>
      cases h with
      | trailing t ts => exact ⟨t, rfl, rfl⟩
  | missingSeparator =>
      cases h with
      | missingSeparator t ts => exact ⟨t, rfl, rfl⟩
  | refused hOther =>
      cases h with
      | refused _ t ts => exact ⟨t, rfl, rfl⟩
      | element => exact absurd rfl hOther

theorem element_spelled (h : Fits (.unexpectedDetailed spelling TypeForm.elementMessage) rest) :
    ∃ (ty : Ty) (ts : List Token), rest = ty.tokens ++ ts ∧ spelling = ty.spelling := by
  generalize hFault : ParseFault.unexpectedDetailed spelling _ = fault at h
  cases h with
  | refused hPlain =>
      obtain ⟨-, rfl⟩ := ParseFault.unexpectedDetailed.inj hFault
      exact absurd hPlain (by decide)
  | element ty ts =>
      obtain ⟨rfl, -⟩ := ParseFault.unexpectedDetailed.inj hFault
      exact ⟨ty, ts, rfl, rfl⟩
  | _ => cases hFault

theorem text_of_unterminated {literal : String} (h : Fits (.unterminatedTemplate literal) rest) :
    rest.head? = some (.text literal) := by
  cases h
  rfl

theorem text_of_invalid {template message : String}
    (h : Fits (.invalidTemplate template message) rest) :
    ∃ literal, rest.head? = some (.text literal) := by
  cases h with
  | invalid literal => exact ⟨literal, rfl⟩

end Fits

end ParseFault

/-! ## Whole inputs -/

/-- What an error says of the tokens that were read; `blank` is to say that there
was nothing to read among them. -/
structure ParseError.PointsInto (e : ParseError) (tokens : List Token) (blank : Prop) :
    Prop where
  empty : e = ⟨.emptyInput, 0⟩ ↔ blank
  ended : (∃ expected, e.fault = .unexpectedEnd expected) ↔ e.position = tokens.length ∧ ¬ blank
  inside : e ≠ ⟨.emptyInput, 0⟩ → (∀ expected, e.fault ≠ .unexpectedEnd expected) →
    e.position < tokens.length
  quoted : ∀ spelling, e.fault.Quotes spelling →
    ∃ t, tokens[e.position]? = some t ∧ spelling = t.spelling
  /-- A type is quoted whose tokens start at the place. -/
  element : ∀ spelling, e.fault = .unexpectedDetailed spelling TypeForm.elementMessage →
    ∃ (ty : Ty) (rest : List Token),
      tokens.drop e.position = ty.tokens ++ rest ∧ spelling = ty.spelling
  unterminated : ∀ literal, e.fault = .unterminatedTemplate literal →
    tokens[e.position]? = some (.text literal)
  invalid : ∀ template message, e.fault = .invalidTemplate template message →
    ∃ literal, tokens[e.position]? = some (.text literal)

namespace ParseError.PointsInto

variable {blank : Prop}

theorem of_blank (h : blank) : PointsInto ⟨.emptyInput, 0⟩ tokens blank where
  empty := iff_of_true rfl h
  ended := iff_of_false nofun fun hEnd => hEnd.2 h
  inside hNonempty := absurd rfl hNonempty
  quoted := nofun
  element := nofun
  unterminated := nofun
  invalid := nofun

/-- A fault that fits the tokens from its place on says all this. -/
theorem of_fits (hSome : ¬ blank) (hLe : e.position ≤ tokens.length)
    (hFits : e.fault.Fits (tokens.drop e.position)) : e.PointsInto tokens blank := by
  have hNonempty : e ≠ ⟨.emptyInput, 0⟩ := by
    rintro rfl
    cases hFits
  constructor
  case empty => exact iff_of_false hNonempty hSome
  case ended =>
    rw [hFits.ended_iff, List.drop_eq_nil_iff, and_iff_left hSome]
    exact ⟨fun hEnd => Nat.le_antisymm hLe hEnd, fun hEnd => Nat.le_of_eq hEnd.symm⟩
  case inside =>
    intro _ hGoesOn
    have hLeft : tokens.drop e.position ≠ [] := fun hEnd =>
      have ⟨expected, hFault⟩ := hFits.ended_iff.2 hEnd
      hGoesOn expected hFault
    rwa [ne_eq, List.drop_eq_nil_iff, Nat.not_le] at hLeft
  case quoted =>
    intro spelling hQuotes
    rw [← List.head?_drop]
    exact hFits.head_of_quotes hQuotes
  case element =>
    intro spelling hFault
    rw [hFault] at hFits
    exact hFits.element_spelled
  case unterminated =>
    intro literal hFault
    rw [hFault] at hFits
    rw [← List.head?_drop]
    exact hFits.text_of_unterminated
  case invalid =>
    intro template message hFault
    rw [hFault] at hFits
    rw [← List.head?_drop]
    exact hFits.text_of_invalid

end ParseError.PointsInto

/-- An error of a parser that is located fits the tokens from its place on. -/
theorem Parser.Located.parse_error {α : Type} {p : Parser α} (h : p.Located)
    (hRun : Parser.parse p tokens = .error e) :
    e.position ≤ tokens.length ∧ e.fault.Fits (tokens.drop e.position) := by
  have hHere := h (.start tokens)
  unfold LocatedAt at hHere
  rw [Parser.parse] at hRun
  cases hOutcome : p (.start tokens) with
  | ok a c' =>
      rw [hOutcome] at hRun
      cases hRun
  | error e' c' =>
      rw [hOutcome] at hRun hHere
      obtain rfl := Except.error.inj hRun
      obtain ⟨c, ⟨us, -, hRest, hPosition⟩, hPlace, hFits⟩ := hHere
      replace hRest : tokens = us ++ c.rest := hRest
      replace hPosition : c.position = us.length := hPosition.trans (Nat.zero_add _)
      rw [hPlace, hPosition, hRest, List.drop_left, List.length_append]
      exact ⟨Nat.le_add_right _ _, hFits⟩

/-- Reading that is refused beforehand if there is nothing to read. -/
theorem pointsInto_of_parse {α : Type} {p : Parser α} {blank : Prop} {isBlank : Bool}
    (hBlank : isBlank = true ↔ blank) (h : p.Located)
    (hRun : (if isBlank = true then .error ⟨.emptyInput, 0⟩ else Parser.parse p tokens) =
      .error e) :
    e.PointsInto tokens blank ∧ ¬ e.fault.IsGuard := by
  by_cases hNothing : isBlank = true
  · rw [if_pos hNothing] at hRun
    obtain rfl := Except.error.inj hRun
    exact ⟨.of_blank (hBlank.1 hNothing), nofun⟩
  · rw [if_neg hNothing] at hRun
    obtain ⟨hLe, hFits⟩ := h.parse_error hRun
    exact ⟨.of_fits (mt hBlank.2 hNothing) hLe hFits, hFits.not_guard⟩

theorem wholeExpression_error {expr : Parser Expr} (hExpr : expr.Located)
    (h : wholeExpression expr tokens = .error e) :
    e.PointsInto tokens (tokens = []) ∧ ¬ e.fault.IsGuard :=
  pointsInto_of_parse List.isEmpty_iff
    (.bind hExpr fun _ => .bind .expectEnd fun _ => .pure _) h

theorem parseExpression_error (h : parseExpression tokens = .error e) :
    e.PointsInto tokens (tokens = []) ∧ ¬ e.fault.IsGuard :=
  wholeExpression_error (parseExpr_located _) h

theorem parseStatement_error (h : parseStatement tokens = .error e) :
    e.PointsInto tokens (Separators tokens) ∧ ¬ e.fault.IsGuard :=
  pointsInto_of_parse all_isSeparator_iff
    (.bind .skipSeparators fun _ => .bind parseStmt_located fun _ =>
      .bind .skipSeparators fun _ => .bind .expectEnd fun _ => .pure _) h

theorem parseProgram_error (h : parseProgram tokens = .error e) :
    e.PointsInto tokens (Separators tokens) ∧ ¬ e.fault.IsGuard :=
  pointsInto_of_parse all_isSeparator_iff
    (.bind (Sequence.parse_located parseStmt_located none) fun _ =>
      .bind .expectEnd fun _ => .pure _) h

/-- The error of an expression, a statement or a program points at the token it
speaks of. -/
theorem errors_point_at_tokens (tokens : List Token) (e : ParseError) :
    (parseExpression tokens = .error e → e.PointsInto tokens (tokens = [])) ∧
    (parseStatement tokens = .error e → e.PointsInto tokens (Separators tokens)) ∧
    (parseProgram tokens = .error e → e.PointsInto tokens (Separators tokens)) :=
  ⟨fun h => (parseExpression_error h).1, fun h => (parseStatement_error h).1,
    fun h => (parseProgram_error h).1⟩

/-- The tokens of `a[1 2]`. -/
def indexTwice : List Token :=
  [.name "a", .bracket .openSquare, .int 1, .int 2, .bracket .closeSquare]

/-- The tokens of `var a: Array<() -> Int>`. -/
def arrayOfFunctions : List Token :=
  [.keyword (.declaration false), .name "a", .symbol .colon, .typeWord (.collection .array),
    .bracket .openAngle, .bracket .openParen, .bracket .closeParen, .symbol .arrow,
    .typeWord (.basic .int), .bracket .closeAngle]

/-- The second index is quoted, and the type of the elements as a whole. A
semicolon alone is no statement. -/
theorem places_of_refused :
    ParseError.PointsInto ⟨.unexpectedDetailed "2" "expected Bracket(RBracket)", 3⟩ indexTwice
        (indexTwice = []) ∧
      ParseError.PointsInto ⟨.emptyInput, 0⟩ [.symbol .semicolon]
        (Separators [.symbol .semicolon]) ∧
      ParseError.PointsInto ⟨.unexpectedDetailed "() -> Int" TypeForm.elementMessage, 5⟩
        arrayOfFunctions (Separators arrayOfFunctions) :=
  ⟨(errors_point_at_tokens _ _).1 rfl, (errors_point_at_tokens _ _).2.1 rfl,
    (errors_point_at_tokens _ _).2.2 rfl⟩

/-! ## Guards -/

/-- The guards of forms do not come up. -/
structure GuardsUnreachable : Prop where
  expression : ∀ tokens e, parseExpression tokens = .error e → ¬ e.fault.IsGuard
  statement : ∀ tokens e, parseStatement tokens = .error e → ¬ e.fault.IsGuard
  program : ∀ tokens e, parseProgram tokens = .error e → ¬ e.fault.IsGuard
  /-- Whatever the source of a splice is, and however deep it stands inside others. -/
  splice : ∀ bound source e, embeddedAt bound source = .error e → ¬ e.fault.IsGuard
  /-- Where parameters are tried, the error is given up, so it is not seen in the
  whole. -/
  parameters : ∀ c c' e,
    OperandForm.parseParameterList Grammar.standard.parseType c = .error e c' → ¬ e.fault.IsGuard
  /-- A form is entered where a table leads to it. -/
  typeForm : ∀ form c c' e, c.kind?.bind Grammar.standard.type = some form →
    Grammar.standard.parseTypeAs form c = .error e c' → ¬ e.fault.IsGuard
  operandForm : ∀ form c c' e, c.kind?.bind Grammar.standard.operand = some form →
    Grammar.standard.parseOperandAs form c = .error e c' → ¬ e.fault.IsGuard
  operatorForm : ∀ form left power c c' e, c.kind?.bind Grammar.standard.operator = some form →
    Grammar.standard.parseOperatorAs form left power c = .error e c' → ¬ e.fault.IsGuard
  statementForm : ∀ form c c' e, c.kind?.bind Grammar.standard.statement = some form →
    Grammar.standard.parseStmtAs form c = .error e c' → ¬ e.fault.IsGuard
  /-- Whatever binds behind an expression has a form. -/
  operator : ∀ kind, 0 < (Grammar.standard.powerOf kind).rank →
    ∃ form, Grammar.standard.operator kind = some form

theorem Parser.LocatedAt.not_guard {α : Type} {p : Parser α} {c c' : Cursor} (h : p.LocatedAt c)
    (hRun : p c = .error e c') : ¬ e.fault.IsGuard := by
  unfold LocatedAt at h
  rw [hRun] at h
  obtain ⟨_, -, -, hFits⟩ := h
  exact hFits.not_guard

/-- What scanning fails with is no guard of the parser. -/
theorem tokenize_error_not_guard {source : String} (h : tokenize source = .error e) :
    ¬ e.fault.IsGuard := by
  rcases tokenize_cases source with ⟨ts, -, hOk⟩ | ⟨_, _, _, fault, -, -, hStuck, hError⟩
  · rw [hOk] at h
    exact absurd h nofun
  · rw [hError] at h
    obtain rfl := Except.error.inj h
    cases hStuck with
    | unrecognised => nofun
    | large => nofun

theorem guards_unreachable : GuardsUnreachable where
  expression _ _ h := (parseExpression_error h).2
  statement _ _ h := (parseStatement_error h).2
  program _ _ h := (parseProgram_error h).2
  splice bound source e h := by
    cases bound with
    | zero =>
        obtain rfl := Except.error.inj h
        nofun
    | succ bound =>
        rw [embeddedAt] at h
        cases hTokens : tokenize source with
        | error e' =>
            rw [hTokens] at h
            obtain rfl : e' = e := Except.error.inj h
            exact tokenize_error_not_guard hTokens
        | ok tokens =>
            rw [hTokens] at h
            exact (wholeExpression_error (exprAt_located _ _) h).2
  parameters c _ _ h :=
    (OperandForm.parseParameterList_located parseType_located c).not_guard h
  typeForm form c c' e hForm h := by
    obtain ⟨n, t, ts, rfl, hTable⟩ := Cursor.exists_of_table hForm
    exact (TypeForm.parse_located parseType_located (fun _ _ _ => parseType_spelled)
      hTable).not_guard h
  operandForm form c c' e hForm h := by
    obtain ⟨n, t, ts, rfl, hTable⟩ := Cursor.exists_of_table hForm
    exact (OperandForm.parse_located parseExpr_located parseType_located hTable).not_guard h
  operatorForm form left power c c' e hForm h := by
    obtain ⟨n, t, ts, rfl, hTable⟩ := Cursor.exists_of_table hForm
    exact (OperatorForm.parse_located parseExpr_located left power hTable).not_guard h
  statementForm form c c' e hForm h := by
    obtain ⟨n, t, ts, rfl, hTable⟩ := Cursor.exists_of_table hForm
    exact (StmtForm.parse_located parseExpr_located parseType_located parseStmt_located
      hTable).not_guard h
  operator _ h := operator_of_rank h

/-- The annotation in `{ a: 1 -> a }` is no type. The parameter list is given up,
and what is reported is the colon in the body. -/
theorem guards_of_annotated :
    OperandForm.parseParameterList Grammar.standard.parseType
          ⟨1, [.name "a", .symbol .colon, .int 1, .symbol .arrow, .name "a"]⟩ =
        .error ⟨.unexpectedDetailed "1" "expected a type", 3⟩
          ⟨3, [.int 1, .symbol .arrow, .name "a"]⟩ ∧
      ¬ ParseFault.IsGuard (.unexpectedDetailed "1" "expected a type") ∧
      ¬ ParseFault.IsGuard (.unexpectedDetailed ":" "expected Bracket(RCurly)") :=
  ⟨rfl, guards_unreachable.parameters ⟨1, [.name "a", .symbol .colon, .int 1, .symbol .arrow,
      .name "a"]⟩ ⟨3, [.int 1, .symbol .arrow, .name "a"]⟩
      ⟨.unexpectedDetailed "1" "expected a type", 3⟩ rfl,
    guards_unreachable.expression [.bracket .openCurly, .name "a", .symbol .colon, .int 1,
      .symbol .arrow, .name "a", .bracket .closeCurly]
      ⟨.unexpectedDetailed ":" "expected Bracket(RCurly)", 2⟩ rfl⟩

end ScriptLang
