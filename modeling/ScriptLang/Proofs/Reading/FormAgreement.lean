import ScriptLang.Proofs.Reading.Agreement
import ScriptLang.Proofs.Reading.StmtGrammar

/-!
# One token less for every level

The reading of types, expressions and statements is tied together by bounds.
Without its bound, each recursion and each loop is a body over a parser for
what it leads back to: `Grammar.typeStep`, `Grammar.exprStep`,
`Grammar.stmtStep` and the bodies of the loops. The lemmas here say of every
form, and then of every body, that it needs what it leads back to only behind a
token that it has taken itself. So a body agrees with itself over two other
parsers as soon as those agree where one token less is left.

That is false of the form `any`, which leads straight back to the table. A
grammar whose tables do without it is `Grounded`.

For types it makes their reading exact: a type is read where it is spelled out,
and the cursor then stands behind its spelling (`parseType_eq_ok`).
-/

namespace ScriptLang

open ScriptLang.Parser (Agree)

variable {P : Token → Prop} {j n : Nat} {g : Grammar}
  {embed embed' : String → Except ParseError Expr}
  {expr expr' : Power → Parser Expr} {type type' : Parser Ty} {stmt stmt' : Parser Stmt}

/-- No entry of a table leads straight back to the table. -/
structure Grammar.Grounded (g : Grammar) : Prop where
  type : ∀ kind, g.type kind ≠ some .any
  statement : ∀ kind, g.statement kind ≠ some .any

theorem Grammar.standard_grounded : Grammar.standard.Grounded :=
  ⟨fun _ hForm => (type_eq_some.1 hForm).elim, fun _ hForm => (statement_eq_some.1 hForm).elim⟩

/-! ## Types -/

namespace TypeForm

theorem parseBasic_agree : Agree P 1 n parseBasic parseBasic := by
  refine .bind .position fun _ => .head .advance fun _ => ?_
  split
  · exact .pure _
  · exact .throw _

theorem parseCollection_agree (hType : Agree P 1 n type type') :
    Agree P 1 (n + 1) (parseCollection type) (parseCollection type') := by
  refine .step .advance fun _ => .bind (.expect _) fun _ => .bind .position fun _ => ?_
  refine .bind hType fun _ => ?_
  split
  · refine .bind (.expect _) fun _ => ?_
    split
    · exact .pure _
    · exact .pure _
  · exact .throw _

theorem parseFunction_agree (hType : Agree P 1 n type type') :
    Agree P 1 (n + 1) (parseFunction type) (parseFunction type') := by
  refine .step (.expect _) fun _ => ?_
  refine .bind (Parser.items_agree hType fun _ => .pure _) fun _ => ?_
  exact .bind (.expect _) fun _ => .bind hType fun _ => .pure _

theorem parse_agree (hType : Agree P 1 n type type') {form : TypeForm} (hForm : form ≠ .any) :
    Agree P 1 (n + 1) (form.parse type) (form.parse type') := by
  cases form with
  | basic => exact parseBasic_agree
  | collection => exact parseCollection_agree hType
  | function => exact parseFunction_agree hType
  | any => exact absurd rfl hForm

end TypeForm

/-- The reading of a type, with `type` for the types inside. -/
def Grammar.typeStep (g : Grammar) (type : Parser Ty) : Parser Ty := fun c =>
  match c.kind?.bind g.type with
  | some form => form.parse type c
  | none => Parser.unexpected "expected a type" c

theorem Grammar.typeAt_succ (g : Grammar) (bound : Nat) :
    g.typeAt (bound + 1) = g.typeStep (g.typeAt bound) := rfl

theorem typeStep_agree (hGrounded : g.Grounded) (hType : Agree P 1 n type type') :
    Agree P 1 (n + 1) (g.typeStep type) (g.typeStep type') := by
  intro c
  unfold Grammar.typeStep
  cases hForm : c.kind?.bind g.type with
  | none => exact Agree.unexpected _ c
  | some form =>
      refine TypeForm.parse_agree hType ?_ c
      rintro rfl
      obtain ⟨kind, -, hAny⟩ := Option.bind_eq_some_iff.1 hForm
      exact hGrounded.type kind hAny

theorem typeAt_agree (hGrounded : g.Grounded) (bound : Nat) :
    Agree P 1 n (g.typeAt bound) (g.typeAt bound) := by
  induction bound generalizing n with
  | zero => exact .unexpected _
  | succ bound ih =>
      cases n with
      | zero => exact .none
      | succ n => exact typeStep_agree hGrounded ih

theorem parseType_agree (hGrounded : g.Grounded) (n : Nat) :
    Agree P 1 n g.parseType g.parseType :=
  fun c => typeAt_agree hGrounded c.rest.length c

/-- A type is read exactly where it is spelled out, and the cursor then stands
behind its spelling. -/
theorem parseType_eq_ok {c c' : Cursor} {ty : Ty} :
    Grammar.standard.parseType c = .ok ty c' ↔
      c.rest = ty.tokens ++ c'.rest ∧ c'.position = c.position + ty.tokens.length := by
  have hMoved : ∀ {c c' : Cursor}, Grammar.standard.parseType c = .ok ty c' →
      c.rest = ty.tokens ++ c'.rest → c'.position = c.position + ty.tokens.length := by
    intro c c' hRun hRest
    have hAgree := parseType_agree (P := fun _ => True) Grammar.standard_grounded _
      c (Nat.lt_succ_self _) fun _ _ => trivial
    obtain ⟨us, -, hTaken, hPosition⟩ := hAgree.2 ty c' hRun
    rw [hPosition, List.append_cancel_right (hTaken.symm.trans hRest)]
  constructor
  · intro hRun
    have hRest := parseType_spelled hRun
    exact ⟨hRest, hMoved hRun hRest⟩
  · rintro ⟨hRest, hPosition⟩
    obtain ⟨m, hRun⟩ := reads_type ty c'.rest c.position
    have hBehind : m = c'.position := (hMoved hRun rfl).trans hPosition.symm
    have hCursor : c = ⟨c.position, ty.tokens ++ c'.rest⟩ := by rw [← hRest]
    rw [hCursor, hRun, hBehind]

/-! ## Operands -/

namespace OperandForm

/-- What is spliced into a text may be read in another way, if that makes no
difference for the texts among the tokens. -/
theorem parsePrimary_agree
    (hText : ∀ contents, P (.text contents) → ∀ position,
      Template.parse embed contents position = Template.parse embed' contents position) :
    Agree P 1 (n + 1) (parsePrimary embed) (parsePrimary embed') := by
  refine .bind .position fun position => .token fun t ht => ?_
  cases t with
  | text contents =>
      show Agree P 0 n (Parser.ofExcept _) (Parser.ofExcept _)
      rw [hText contents ht position]
      exact .ofExcept _
  | int value => exact .pure _
  | name word => exact .pure _
  | keyword word =>
      cases word with
      | truth value => exact .pure _
      | _ => exact .throw _
  | _ => exact .throw _

theorem parseNegation_agree (hExpr : ∀ power, Agree P 1 n (expr power) (expr' power)) :
    Agree P 1 (n + 1) (parseNegation expr) (parseNegation expr') :=
  .step (.expect _) fun _ => .bind (hExpr _) fun _ => .pure _

theorem parseStep_agree : Agree P 1 n parseStep parseStep := by
  refine .bind .position fun _ => .head .advance fun _ => ?_
  split
  · exact .bind .identifier fun _ => .pure _
  · exact .throw _

theorem parseEnclosed_agree (hExpr : ∀ power, Agree P 1 n (expr power) (expr' power))
    (close : Bracket) : Agree P 1 n (parseEnclosed expr close) (parseEnclosed expr' close) := by
  refine .bind .skipLineBreaks fun _ => .head (hExpr _) fun _ => ?_
  exact .bind .skipLineBreaks fun _ => .bind (.expect _) fun _ => .pure _

theorem parseGrouping_agree (hExpr : ∀ power, Agree P 1 n (expr power) (expr' power)) :
    Agree P 1 (n + 1) (parseGrouping expr) (parseGrouping expr') :=
  .step (.expect _) fun _ => (parseEnclosed_agree hExpr _).fewer (Nat.zero_le _)

theorem parseAnnotation?_agree (hType : Agree P 1 n type type') :
    Agree P 0 n (parseAnnotation? type) (parseAnnotation? type') := by
  refine .bind (.isAt _) fun _ => .ite ?_ (.pure _)
  exact .bind .advance fun _ => .bind hType fun _ => .pure _

/-- The reading of parameters, with `more` for those behind the next comma. -/
def parametersStep (type : Parser Ty) (more : Parser (List (String × Option Ty))) :
    Parser (List (String × Option Ty)) := do
  let name ← Parser.identifier
  let ty ← parseAnnotation? type
  if ← Parser.isAt (.symbol .comma) then
    let _ ← Parser.advance
    let parameters ← more
    return (name, ty) :: parameters
  else
    let _ ← Parser.expect (.symbol .arrow)
    return [(name, ty)]

theorem parseParameters_succ (type : Parser Ty) (bound : Nat) :
    parseParameters type (bound + 1) = parametersStep type (parseParameters type bound) := rfl

theorem parametersStep_agree (hType : ∀ n, Agree P 1 n type type)
    {more more' : Parser (List (String × Option Ty))} (hMore : Agree P j n more more') :
    Agree P 1 (n + 1) (parametersStep type more) (parametersStep type more') := by
  refine .step .identifier fun _ => .bind (parseAnnotation?_agree (hType n)) fun _ => ?_
  refine .bind (.isAt _) fun _ => .ite ?_ ?_
  · exact .bind .advance fun _ => .bind hMore fun _ => .pure _
  · exact .bind (.expect _) fun _ => .pure _

theorem parseParameters_agree (hType : ∀ n, Agree P 1 n type type) (bound : Nat) :
    Agree P 1 (n + 1) (parseParameters type bound) (parseParameters type bound) := by
  induction bound generalizing n with
  | zero => exact .unexpected _
  | succ bound ih => exact parametersStep_agree hType (ih.mono (Nat.le_succ n))

theorem parseParameterList_agree (hType : ∀ n, Agree P 1 n type type) :
    Agree P 1 n (parseParameterList type) (parseParameterList type) := by
  refine .bind (.isAt _) fun _ => .ite ?_ ?_
  · exact .head .advance fun _ => .pure _
  · exact .atCursor fun c => (parseParameters_agree hType _).mono (Nat.le_succ n)

theorem parseLambda_agree (hExpr : ∀ power, Agree P 1 n (expr power) (expr' power))
    (hType : ∀ n, Agree P 1 n type type) :
    Agree P 1 (n + 1) (parseLambda expr type) (parseLambda expr' type) := by
  refine .step (.expect _) fun _ => .bind .skipLineBreaks fun _ => ?_
  have hParameters := (parseParameterList_agree (P := P) (n := n) hType).fewer (Nat.zero_le 1)
  refine .bind (hParameters.orRewind []) fun _ => ?_
  exact .bind (parseEnclosed_agree hExpr _) fun _ => .pure _

theorem parseBranch_agree (hExpr : ∀ power, Agree P 1 n (expr power) (expr' power)) :
    Agree P 1 n (parseBranch expr) (parseBranch expr') := by
  refine .bind (.isAt _) fun _ => .ite ?_ (hExpr _)
  exact .bind .advance fun _ => parseEnclosed_agree hExpr _

theorem parseCondition_agree (hExpr : ∀ power, Agree P 1 n (expr power) (expr' power)) :
    Agree P 1 n (parseCondition expr) (parseCondition expr') :=
  .head (.expect _) fun _ => .bind (hExpr _) fun _ => .bind (.expect _) fun _ => .pure _

theorem parseConditional_agree (hExpr : ∀ power, Agree P 1 n (expr power) (expr' power)) :
    Agree P 1 (n + 1) (parseConditional expr) (parseConditional expr') := by
  refine .step (.expect _) fun _ => .bind (parseCondition_agree hExpr) fun _ => ?_
  refine .bind .skipLineBreaks fun _ => .bind (parseBranch_agree hExpr) fun _ => ?_
  refine .bind (.elseBranch? (.bind .skipLineBreaks fun _ => parseBranch_agree hExpr)) ?_
  intro branch?
  cases branch? with
  | some branch => exact .pure _
  | none => exact .pure _

theorem parseInitializer_agree (hExpr : ∀ power, Agree P 1 n (expr power) (expr' power))
    (hType : ∀ n, Agree P 1 n type type) :
    Agree P 0 n (parseInitializer expr type) (parseInitializer expr' type) := by
  have hInit := (parseLambda_agree hExpr hType).mono (Nat.le_succ n)
  refine .bind (.isAt _) fun _ => .ite ?_ ?_
  · refine .bind .advance fun _ => .bind .skipLineBreaks fun _ => .bind hInit fun _ => ?_
    exact .bind (.expect _) fun _ => .pure _
  · exact .bind (.expect _) fun _ => hInit.fewer (Nat.zero_le 1)

theorem parseGenerator_agree (hExpr : ∀ power, Agree P 1 n (expr power) (expr' power))
    (hType : ∀ n, Agree P 1 n type type) :
    Agree P 1 (n + 1) (parseGenerator expr type) (parseGenerator expr' type) := by
  refine .step .advance fun _ => .bind (.expect _) fun _ => .bind (hExpr _) fun _ => ?_
  refine .bind (parseInitializer_agree hExpr hType) fun _ => ?_
  split
  · exact .pure _
  · exact .pure _

theorem parseArguments_agree (hExpr : ∀ power, Agree P 1 n (expr power) (expr' power)) :
    Agree P 1 n (parseArguments expr) (parseArguments expr') :=
  Parser.items_agree (hExpr _) fun _ => .skipLineBreaks

theorem parseLiteral_agree (hExpr : ∀ power, Agree P 1 n (expr power) (expr' power)) :
    Agree P 1 (n + 1) (parseLiteral expr) (parseLiteral expr') := by
  refine .step .advance fun _ => .bind (.expect _) fun _ => ?_
  refine .bind (parseArguments_agree hExpr) fun _ => ?_
  split
  · exact .pure _
  · exact .pure _

theorem parse_agree
    (hText : ∀ contents, P (.text contents) → ∀ position,
      Template.parse embed contents position = Template.parse embed' contents position)
    (hExpr : ∀ power, Agree P 1 n (expr power) (expr' power))
    (hType : ∀ n, Agree P 1 n type type) (form : OperandForm) :
    Agree P 1 (n + 1) (form.parse embed expr type) (form.parse embed' expr' type) := by
  cases form with
  | primary => exact parsePrimary_agree hText
  | negation => exact parseNegation_agree hExpr
  | step => exact parseStep_agree
  | grouping => exact parseGrouping_agree hExpr
  | lambda => exact .head (parseLambda_agree hExpr hType) fun _ => .pure _
  | conditional => exact parseConditional_agree hExpr
  | generator => exact parseGenerator_agree hExpr hType
  | literal => exact parseLiteral_agree hExpr

end OperandForm

theorem parseOperand_agree
    (hText : ∀ contents, P (.text contents) → ∀ position,
      Template.parse embed contents position = Template.parse embed' contents position)
    (hExpr : ∀ power, Agree P 1 n (expr power) (expr' power))
    (hType : ∀ n, Agree P 1 n g.parseType g.parseType) :
    Agree P 1 (n + 1) (g.parseOperand embed expr) (g.parseOperand embed' expr') := by
  intro c
  unfold Grammar.parseOperand
  cases c.kind? with
  | none => exact Agree.unexpected _ c
  | some kind =>
      dsimp only
      cases g.operand kind with
      | none => exact Agree.unexpected _ c
      | some form => exact OperandForm.parse_agree hText hExpr hType form c

/-! ## Operators -/

namespace OperatorForm

theorem parseBinary_agree (hExpr : ∀ power, Agree P 1 n (expr power) (expr' power))
    (left : Expr) (power : Power) :
    Agree P 1 (n + 1) (parseBinary expr left power) (parseBinary expr' left power) := by
  refine .bind .position fun _ => .step .advance fun _ => .bind .skipLineBreaks fun _ => ?_
  refine .bind (hExpr _) fun _ => ?_
  split
  · exact .pure _
  · exact .throw _

theorem parseRange_agree (hExpr : ∀ power, Agree P 1 n (expr power) (expr' power))
    (left : Expr) (power : Power) :
    Agree P 1 (n + 1) (parseRange expr left power) (parseRange expr' left power) :=
  .step (.expect _) fun _ => .bind (hExpr _) fun _ => .pure _

theorem parseStep_agree (left : Expr) : Agree P 1 n (parseStep left) (parseStep left) := by
  refine .bind .position fun _ => .head .advance fun _ => ?_
  split
  · exact .pure _
  · exact .throw _

theorem parseCall_agree (hExpr : ∀ power, Agree P 1 n (expr power) (expr' power))
    (left : Expr) : Agree P 1 (n + 1) (parseCall expr left) (parseCall expr' left) := by
  unfold parseCall
  split
  · refine .step (.expect _) fun _ => ?_
    exact .bind (OperandForm.parseArguments_agree hExpr) fun _ => .pure _
  · exact .unexpected _

theorem parseIndex_agree (hExpr : ∀ power, Agree P 1 n (expr power) (expr' power))
    (left : Expr) : Agree P 1 (n + 1) (parseIndex expr left) (parseIndex expr' left) := by
  unfold parseIndex
  split
  · refine .step (.expect _) fun _ => .bind (hExpr _) fun _ => ?_
    exact .bind (.expect _) fun _ => .pure _
  · exact .unexpected _

theorem parse_agree (hExpr : ∀ power, Agree P 1 n (expr power) (expr' power))
    (left : Expr) (power : Power) (form : OperatorForm) :
    Agree P 1 (n + 1) (form.parse expr left power) (form.parse expr' left power) := by
  cases form with
  | binary => exact parseBinary_agree hExpr left power
  | range => exact parseRange_agree hExpr left power
  | step => exact parseStep_agree left
  | call => exact parseCall_agree hExpr left
  | index => exact parseIndex_agree hExpr left

end OperatorForm

/-- The reading on from `left`, with `next` for what stands behind the next
operator. -/
def Grammar.climbStep (g : Grammar) (expr : Power → Parser Expr) (power : Power)
    (next : Expr → Parser Expr) (left : Expr) : Parser Expr := fun c =>
  match c.kind? with
  | none => .ok left c
  | some kind =>
    if (g.powerOf kind).rank ≤ power.rank then .ok left c
    else
      match g.operator kind with
      | none => Parser.unexpected "expected an operator" c
      | some form =>
        (do
          let left ← form.parse expr left (g.powerOf kind)
          next left : Parser Expr) c

theorem Grammar.climb_succ (g : Grammar) (expr : Power → Parser Expr) (power : Power)
    (bound : Nat) :
    g.climb expr power (bound + 1) = g.climbStep expr power (g.climb expr power bound) := rfl

theorem climbStep_agree (hExpr : ∀ power, Agree P 1 n (expr power) (expr' power))
    {next next' : Expr → Parser Expr} (hNext : ∀ left, Agree P 0 n (next left) (next' left))
    (power : Power) (left : Expr) :
    Agree P 0 (n + 1) (g.climbStep expr power next left)
      (g.climbStep expr' power next' left) := by
  intro c
  unfold Grammar.climbStep
  cases c.kind? with
  | none => exact Agree.pure left c
  | some kind =>
      dsimp only
      by_cases hLoose : (g.powerOf kind).rank ≤ power.rank
      · rw [if_pos hLoose, if_pos hLoose]
        exact Agree.pure left c
      · rw [if_neg hLoose, if_neg hLoose]
        cases g.operator kind with
        | none => exact Agree.unexpected _ c
        | some form =>
            have hForm := OperatorForm.parse_agree hExpr left (g.powerOf kind) form
            exact (Agree.step hForm hNext).fewer (Nat.zero_le 1) c

theorem climb_agree (hExpr : ∀ power, Agree P 1 n (expr power) (expr' power)) (power : Power)
    (bound : Nat) (left : Expr) :
    Agree P 0 (n + 1) (g.climb expr power bound left) (g.climb expr' power bound left) := by
  induction bound generalizing left with
  | zero => exact .pure left
  | succ bound ih =>
      rw [Grammar.climb_succ, Grammar.climb_succ]
      exact climbStep_agree hExpr (fun left => (ih left).mono (Nat.le_succ n)) power left

/-- The reading of an expression, with `expr` for the expressions inside. -/
def Grammar.exprStep (g : Grammar) (embed : String → Except ParseError Expr)
    (expr : Power → Parser Expr) (power : Power) : Parser Expr := do
  let left ← g.parseOperand embed expr
  fun c => g.climb expr power c.rest.length left c

theorem Grammar.exprAt_succ (g : Grammar) (embed : String → Except ParseError Expr)
    (bound : Nat) : g.exprAt embed (bound + 1) = g.exprStep embed (g.exprAt embed bound) := rfl

theorem exprStep_agree
    (hText : ∀ contents, P (.text contents) → ∀ position,
      Template.parse embed contents position = Template.parse embed' contents position)
    (hExpr : ∀ power, Agree P 1 n (expr power) (expr' power))
    (hType : ∀ n, Agree P 1 n g.parseType g.parseType) (power : Power) :
    Agree P 1 (n + 1) (g.exprStep embed expr power) (g.exprStep embed' expr' power) := by
  refine .step (parseOperand_agree hText hExpr hType) fun left => .atCursor fun c => ?_
  exact (climb_agree hExpr power _ left).mono (Nat.le_succ n)

/-! ## Statements -/

namespace Sequence

theorem parseSeparator_agree (terminator? : Option Kind) :
    Agree P 0 n (parseSeparator terminator?) (parseSeparator terminator?) := by
  refine .bind .skipSeparators fun separated => ?_
  intro c
  dsimp only
  split
  · exact Agree.pure () c
  · exact fun _ _ => ⟨rfl, nofun⟩

/-- The reading of a sequence, with `more` for what stands behind the separator
of the next statement. -/
def parseFromStep (stmt : Parser Stmt) (terminator? : Option Kind) (more : Parser (List Stmt)) :
    Parser (List Stmt) := fun c =>
  if atEnd terminator? c then .ok [] c
  else
    (do
      let s ← stmt
      parseSeparator terminator?
      let rest ← more
      return s :: rest : Parser (List Stmt)) c

theorem parseFrom_succ (stmt : Parser Stmt) (terminator? : Option Kind) (bound : Nat) :
    parseFrom stmt terminator? (bound + 1) =
      parseFromStep stmt terminator? (parseFrom stmt terminator? bound) := rfl

/-- A statement takes a token, so what stands behind it is read with one token
less. -/
theorem parseFromStep_agree (hStmt : Agree P 1 (n + 1) stmt stmt') {more more' : Parser (List Stmt)}
    (hMore : Agree P j n more more') (terminator? : Option Kind) :
    Agree P 0 (n + 1) (parseFromStep stmt terminator? more)
      (parseFromStep stmt' terminator? more') := by
  intro c
  unfold parseFromStep
  by_cases hEnd : atEnd terminator? c = true
  · rw [if_pos hEnd, if_pos hEnd]
    exact Agree.pure [] c
  · rw [if_neg hEnd, if_neg hEnd]
    refine (Agree.step hStmt fun _ => ?_).fewer (Nat.zero_le 1) c
    exact .bind (parseSeparator_agree terminator?) fun _ => .bind hMore fun _ => .pure _

theorem parseFrom_agree (hStmt : Agree P 1 n stmt stmt') (terminator? : Option Kind)
    (bound : Nat) :
    Agree P 0 n (parseFrom stmt terminator? bound) (parseFrom stmt' terminator? bound) := by
  induction bound generalizing n with
  | zero => exact .pure _
  | succ bound ih =>
      cases n with
      | zero => exact .none
      | succ n => exact parseFromStep_agree hStmt (ih (hStmt.mono (Nat.le_succ n))) terminator?

theorem parse_agree (hStmt : Agree P 1 n stmt stmt') (terminator? : Option Kind) :
    Agree P 0 n (parse stmt terminator?) (parse stmt' terminator?) :=
  .bind .skipSeparators fun _ => .atCursor fun _ => parseFrom_agree hStmt terminator? _

end Sequence

namespace StmtForm

theorem parseBlock_agree (hStmt : Agree P 1 n stmt stmt') :
    Agree P 1 (n + 1) (parseBlock stmt) (parseBlock stmt') := by
  refine .step (.expect _) fun _ => .bind (Sequence.parse_agree hStmt _) fun _ => ?_
  exact .bind (.expect _) fun _ => .pure _

theorem parseBody_agree (hStmt : Agree P 1 n stmt stmt') :
    Agree P 1 n (parseBody stmt) (parseBody stmt') := by
  refine .bind .skipLineBreaks fun _ => .bind (.isAt _) fun _ => .ite ?_ ?_
  · exact (parseBlock_agree hStmt).mono (Nat.le_succ n)
  · exact .head hStmt fun _ => .pure _

theorem parseDeclaredName_agree : Agree P 1 n parseDeclaredName parseDeclaredName := by
  intro c
  unfold parseDeclaredName
  split
  · exact Agree.identifier c
  · exact Agree.unexpected _ c

theorem parseValue_agree (hExpr : ∀ power, Agree P 1 n (expr power) (expr' power)) :
    Agree P 1 n (parseValue expr) (parseValue expr') :=
  .bind .advance fun _ => .bind .skipLineBreaks fun _ => hExpr _

theorem parseDeclaration_agree (hExpr : ∀ n power, Agree P 1 n (expr power) (expr power))
    (hType : ∀ n, Agree P 1 n type type) :
    Agree P 1 n (parseDeclaration expr type) (parseDeclaration expr type) := by
  refine .head .advance fun _ => .bind parseDeclaredName_agree fun _ => ?_
  refine .bind (OperandForm.parseAnnotation?_agree (hType n)) fun _ => ?_
  refine .bind (.isAt _) fun _ => .ite ?_ ?_
  · exact .bind (parseValue_agree (hExpr n)) fun _ => .pure _
  · intro c
    dsimp only
    split
    · exact Agree.pure _ c
    · exact Agree.unexpected _ c

theorem parseExpression_agree (hExpr : ∀ n power, Agree P 1 n (expr power) (expr power)) :
    Agree P 1 n (parseExpression expr) (parseExpression expr) := by
  intro c
  unfold parseExpression
  refine Agree.head (hExpr n .lowest) (fun _ => ?_) c
  split
  · exact .pure _
  · exact .pure _
  · exact .throw _

theorem parseNamed_agree (hExpr : ∀ n power, Agree P 1 n (expr power) (expr power)) :
    Agree P 1 n (parseNamed expr) (parseNamed expr) := by
  have hValue := parseValue_agree (hExpr n)
  intro c
  unfold parseNamed
  split
  · exact Agree.head .identifier (fun _ => .bind hValue fun _ => .pure _) c
  · exact Agree.head .identifier (fun _ => .bind hValue fun _ => .pure _) c
  · exact parseExpression_agree hExpr c

theorem parseConditional_agree (hExpr : ∀ n power, Agree P 1 n (expr power) (expr power))
    (hStmt : Agree P 1 n stmt stmt') :
    Agree P 1 (n + 1) (parseConditional expr stmt) (parseConditional expr stmt') := by
  refine .step (.expect _) fun _ => .bind (OperandForm.parseCondition_agree (hExpr n)) fun _ => ?_
  refine .bind (parseBody_agree hStmt) fun _ => .bind (.elseBranch? (parseBody_agree hStmt)) ?_
  intro block?
  cases block? with
  | some block => exact .pure _
  | none => exact .pure _

theorem parseFor_agree (hExpr : ∀ n power, Agree P 1 n (expr power) (expr power))
    (hStmt : Agree P 1 n stmt stmt') :
    Agree P 1 (n + 1) (parseFor expr stmt) (parseFor expr stmt') := by
  refine .step (.expect _) fun _ => .bind (.expect _) fun _ => .bind .identifier fun _ => ?_
  refine .bind (.expect _) fun _ => .bind (hExpr n _) fun _ => .bind (.expect _) fun _ => ?_
  exact .bind (parseBody_agree hStmt) fun _ => .pure _

theorem parseWhile_agree (hExpr : ∀ n power, Agree P 1 n (expr power) (expr power))
    (hStmt : Agree P 1 n stmt stmt') :
    Agree P 1 (n + 1) (parseWhile expr stmt) (parseWhile expr stmt') := by
  refine .step (.expect _) fun _ => .bind (OperandForm.parseCondition_agree (hExpr n)) fun _ => ?_
  exact .bind (parseBody_agree hStmt) fun _ => .pure _

theorem parseControl_agree : Agree P 1 n parseControl parseControl := by
  refine .head .advance fun _ => ?_
  split
  · exact .pure _
  · exact .pure _

theorem parseParameter_agree (hType : ∀ n, Agree P 1 n type type) :
    Agree P 1 n (parseParameter type) (parseParameter type) := by
  refine .head .identifier fun _ => .bind (.expect _) fun _ => ?_
  exact .bind (hType n) fun _ => .pure _

theorem parseFunction_agree (hType : ∀ n, Agree P 1 n type type)
    (hStmt : Agree P 1 n stmt stmt') :
    Agree P 1 (n + 1) (parseFunction type stmt) (parseFunction type stmt') := by
  refine .step (.expect _) fun _ => .bind .identifier fun _ => .bind (.expect _) fun _ => ?_
  refine .bind (Parser.items_agree (parseParameter_agree hType) fun _ => .pure _) fun _ => ?_
  refine .bind (.expect _) fun _ => .bind (hType n) fun _ => .bind .skipLineBreaks fun _ => ?_
  exact .bind ((parseBlock_agree hStmt).mono (Nat.le_succ n)) fun _ => .pure _

theorem parseReturn_agree (hExpr : ∀ n power, Agree P 1 n (expr power) (expr power)) :
    Agree P 1 n (parseReturn expr) (parseReturn expr) :=
  .head (.expect _) fun _ => .bind (hExpr n _) fun _ => .pure _

theorem parseOutput_agree (hExpr : ∀ n power, Agree P 1 n (expr power) (expr power)) :
    Agree P 1 n (parseOutput expr) (parseOutput expr) := by
  have hValue := (OperandForm.parseGrouping_agree (hExpr n)).mono (Nat.le_succ n)
  refine .head .advance fun _ => .bind hValue fun _ => ?_
  split
  · exact .pure _
  · exact .pure _

theorem parse_agree (hExpr : ∀ n power, Agree P 1 n (expr power) (expr power))
    (hType : ∀ n, Agree P 1 n type type) (hStmt : Agree P 1 n stmt stmt')
    {form : StmtForm} (hForm : form ≠ .any) :
    Agree P 1 (n + 1) (form.parse expr type stmt) (form.parse expr type stmt') := by
  cases form with
  | declaration => exact parseDeclaration_agree hExpr hType
  | named => exact parseNamed_agree hExpr
  | expression => exact parseExpression_agree hExpr
  | conditional => exact parseConditional_agree hExpr hStmt
  | forLoop => exact parseFor_agree hExpr hStmt
  | whileLoop => exact parseWhile_agree hExpr hStmt
  | control => exact parseControl_agree
  | function => exact parseFunction_agree hType hStmt
  | returns => exact parseReturn_agree hExpr
  | output => exact parseOutput_agree hExpr
  | block => exact .head (parseBlock_agree hStmt) fun _ => .pure _
  | any => exact absurd rfl hForm

end StmtForm

/-- The reading of a statement, with `stmt` for the statements inside. -/
def Grammar.stmtStep (g : Grammar) (stmt : Parser Stmt) : Parser Stmt := fun c =>
  match c.kind?.bind g.statement with
  | some form => form.parse g.parseExpr g.parseType stmt c
  | none => Parser.unexpected "expected a statement" c

theorem Grammar.stmtAt_succ (g : Grammar) (bound : Nat) :
    g.stmtAt (bound + 1) = g.stmtStep (g.stmtAt bound) := rfl

theorem stmtStep_agree (hGrounded : g.Grounded)
    (hExpr : ∀ n power, Agree P 1 n (g.parseExpr power) (g.parseExpr power))
    (hType : ∀ n, Agree P 1 n g.parseType g.parseType) (hStmt : Agree P 1 n stmt stmt') :
    Agree P 1 (n + 1) (g.stmtStep stmt) (g.stmtStep stmt') := by
  intro c
  unfold Grammar.stmtStep
  cases hForm : c.kind?.bind g.statement with
  | none => exact Agree.unexpected _ c
  | some form =>
      refine StmtForm.parse_agree hExpr hType hStmt ?_ c
      rintro rfl
      obtain ⟨kind, -, hAny⟩ := Option.bind_eq_some_iff.1 hForm
      exact hGrounded.statement kind hAny

end ScriptLang
