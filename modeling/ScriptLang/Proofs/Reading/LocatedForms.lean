import ScriptLang.Proofs.Reading.Located
import ScriptLang.Proofs.Template.Splices

/-!
# Forms point at what they read

Every form of the grammar is located where the standard tables lead to it, as
soon as the parsers for its parts are, and so the reading of types, expressions
and statements is located everywhere (`parseType_located`, `exprAt_located`,
`stmtAt_located`).

Four forms take their first token unseen and have an error for a token that
does not suit them: basic types, operands of one token, steps before a name, and
binary operators. They are looked at with a token of the kind for which the
table has them. The errors at a place that was left behind are those about the
element of a collection, about a step behind something other than a name, and
about an expression that is no statement.
-/

namespace ScriptLang

open ScriptLang.Parser (Located LocatedAt)

variable {embed : String → Except ParseError Expr} {expr : Power → Parser Expr}
  {type : Parser Ty} {stmt : Parser Stmt} {n : Nat} {t : Token} {ts : List Token}

/-! ## Types -/

namespace TypeForm

theorem parseBasic_located {basic : Basic} (hKind : t.kind = .typeWord (.basic basic)) :
    parseBasic.LocatedAt ⟨n, t :: ts⟩ := by
  obtain rfl := Token.kind_eq_typeWord.1 hKind
  exact ⟨[_], Nat.zero_le 1, rfl, rfl⟩

/-- The element that is refused is quoted as a whole, at the place where it
started. -/
theorem parseCollection_located (hType : type.Located)
    (hSpelled : ∀ c ty c', type c = .ok ty c' → c.rest = ty.tokens ++ c'.rest) :
    (parseCollection type).LocatedAt ⟨n, t :: ts⟩ := by
  refine LocatedAt.advance.bind fun word => .bind (.expect _) fun _ => ?_
  intro c
  refine (hType c).andThen fun element c' hRun => ?_
  have hReached := (hType c).reaches hRun
  cases element with
  | basic element =>
      apply Cursor.Explains.behind hReached
      refine Located.bind (.expect _) (fun _ => ?_) c'
      split
      · exact .pure _
      · exact .pure _
  | collection kind element =>
      apply Cursor.Places.here
      rw [hSpelled c _ c' hRun]
      exact .element _ _
  | function parameters result =>
      apply Cursor.Places.here
      rw [hSpelled c _ c' hRun]
      exact .element _ _

theorem parseFunction_located (hType : type.Located) : (parseFunction type).Located := by
  refine .bind (.expect _) fun _ => ?_
  refine .bind (Parser.items_located hType (.pure _)) fun _ => ?_
  exact .bind (.expect _) fun _ => .bind hType fun _ => .pure _

theorem parse_located (hType : type.Located)
    (hSpelled : ∀ c ty c', type c = .ok ty c' → c.rest = ty.tokens ++ c'.rest) {form : TypeForm}
    (hForm : Grammar.standard.type t.kind = some form) :
    (form.parse type).LocatedAt ⟨n, t :: ts⟩ := by
  cases form with
  | basic =>
      obtain ⟨basic, hKind⟩ := type_eq_some.1 hForm
      exact parseBasic_located hKind
  | collection => exact parseCollection_located hType hSpelled
  | function => exact parseFunction_located hType _
  | any => exact (type_eq_some.1 hForm).elim

end TypeForm

theorem typeStep_located (hType : type.Located)
    (hSpelled : ∀ c ty c', type c = .ok ty c' → c.rest = ty.tokens ++ c'.rest) :
    (Grammar.standard.typeStep type).Located := by
  intro c
  unfold LocatedAt Grammar.typeStep
  cases hForm : c.kind?.bind Grammar.standard.type with
  | none => exact Cursor.places_unexpected (by decide)
  | some form =>
      obtain ⟨n, t, ts, rfl, hTable⟩ := Cursor.exists_of_table hForm
      exact TypeForm.parse_located hType hSpelled hTable

theorem typeAt_located (bound : Nat) : (Grammar.standard.typeAt bound).Located := by
  induction bound with
  | zero => exact .unexpected (by decide)
  | succ bound ih =>
      rw [Grammar.typeAt_succ]
      exact typeStep_located ih (typeAt_spelled bound)

theorem parseType_located : Grammar.standard.parseType.Located :=
  fun c => typeAt_located c.rest.length c

/-! ## Templates -/

/-- What goes wrong in a text is put down to the text, also where it went wrong
in the source of a splice. -/
theorem parsePrimary_text_located (literal : String) :
    (OperandForm.parsePrimary embed).LocatedAt ⟨n, .text literal :: ts⟩ := by
  show Cursor.Explains _ (Parser.ofExcept (Template.parse embed literal n) ⟨n + 1, ts⟩)
  cases hRead : Template.parse embed literal n with
  | ok e => exact ⟨[_], Nat.zero_le 1, rfl, rfl⟩
  | error e =>
      obtain ⟨_, _, _, -, hFails⟩ := Template.parse_eq_error.1 hRead
      cases hFails with
      | unterminated => exact Cursor.Places.here (.unterminated literal ts)
      | refused => exact Cursor.Places.here (.invalid literal _ _ ts)

/-! ## Operands -/

namespace OperandForm

theorem token_of_primary (h : Grammar.standard.operand t.kind = some .primary) :
    (∃ value, t = .int value) ∨ (∃ name, t = .name name) ∨ (∃ literal, t = .text literal) ∨
      ∃ value, t = .keyword (.truth value) := by
  have hKind : HeadedBy t.kind .primary := operand_eq_some.1 h
  cases t <;> simp_all [HeadedBy, Token.kind]

theorem parsePrimary_located (hForm : Grammar.standard.operand t.kind = some .primary) :
    (parsePrimary embed).LocatedAt ⟨n, t :: ts⟩ := by
  have hTaken : Cursor.Reaches 0 ⟨n, t :: ts⟩ ⟨n + 1, ts⟩ := ⟨[t], Nat.zero_le 1, rfl, rfl⟩
  obtain ⟨value, rfl⟩ | ⟨name, rfl⟩ | ⟨literal, rfl⟩ | ⟨value, rfl⟩ := token_of_primary hForm
  · exact hTaken
  · exact hTaken
  · exact parsePrimary_text_located literal
  · exact hTaken

theorem parseNegation_located (hExpr : ∀ power, (expr power).Located) :
    (parseNegation expr).Located :=
  .bind (.expect _) fun _ => .bind (hExpr _) fun _ => .pure _

theorem parseStep_located {op : StepOp} (hKind : t.kind = .unaryMark (.step op)) :
    parseStep.LocatedAt ⟨n, t :: ts⟩ := by
  obtain rfl := Token.kind_eq_unaryMark.1 hKind
  have hName : Located (do let name ← Parser.identifier; return Expr.step name op true) :=
    .bind .identifier fun _ => .pure _
  exact .position (.token (hName _))

theorem parseEnclosed_located (hExpr : ∀ power, (expr power).Located) (close : Bracket) :
    (parseEnclosed expr close).Located := by
  refine .bind .skipLineBreaks fun _ => .bind (hExpr _) fun _ => ?_
  exact .bind .skipLineBreaks fun _ => .bind (.expect _) fun _ => .pure _

theorem parseGrouping_located (hExpr : ∀ power, (expr power).Located) :
    (parseGrouping expr).Located :=
  .bind (.expect _) fun _ => parseEnclosed_located hExpr _

theorem parseAnnotation?_located (hType : type.Located) : (parseAnnotation? type).Located :=
  .branch (fun _ _ _ _ => LocatedAt.advance.bind fun _ => .bind hType fun _ => .pure _) (.pure _)

theorem parseParameters_located (hType : type.Located) (bound : Nat) :
    (parseParameters type bound).Located := by
  induction bound with
  | zero => exact .unexpected (by decide)
  | succ bound ih =>
      refine .bind .identifier fun _ => .bind (parseAnnotation?_located hType) fun _ => ?_
      refine .branch (fun _ _ _ _ => ?_) ?_
      · exact LocatedAt.advance.bind fun _ => .bind ih fun _ => .pure _
      · exact .bind (.expect _) fun _ => .pure _

theorem parseParameterList_located (hType : type.Located) : (parseParameterList type).Located :=
  .branch (fun _ _ _ _ => LocatedAt.advance.bind fun _ => .pure _)
    fun c => parseParameters_located hType _ c

theorem parseLambda_located (hExpr : ∀ power, (expr power).Located) (hType : type.Located) :
    (parseLambda expr type).Located := by
  refine .bind (.expect _) fun _ => .bind .skipLineBreaks fun _ => ?_
  refine .bind ((parseParameterList_located hType).orRewind []) fun _ => ?_
  exact .bind (parseEnclosed_located hExpr _) fun _ => .pure _

theorem parseBranch_located (hExpr : ∀ power, (expr power).Located) : (parseBranch expr).Located :=
  .branch (fun _ _ _ _ => LocatedAt.advance.bind fun _ => parseEnclosed_located hExpr _) (hExpr _)

theorem parseCondition_located (hExpr : ∀ power, (expr power).Located) :
    (parseCondition expr).Located :=
  .bind (.expect _) fun _ => .bind (hExpr _) fun _ => .bind (.expect _) fun _ => .pure _

theorem parseConditional_located (hExpr : ∀ power, (expr power).Located) :
    (parseConditional expr).Located := by
  refine .bind (.expect _) fun _ => .bind (parseCondition_located hExpr) fun _ => ?_
  refine .bind .skipLineBreaks fun _ => .bind (parseBranch_located hExpr) fun _ => ?_
  refine .bind (.elseBranch? (.bind .skipLineBreaks fun _ => parseBranch_located hExpr)) ?_
  intro branch?
  cases branch? with
  | some branch => exact .pure _
  | none => exact .pure _

theorem parseInitializer_located (hExpr : ∀ power, (expr power).Located) (hType : type.Located) :
    (parseInitializer expr type).Located := by
  have hInit := parseLambda_located hExpr hType
  refine .branch (fun _ _ _ _ => ?_) (.bind (.expect _) fun _ => hInit)
  refine LocatedAt.advance.bind fun _ => .bind .skipLineBreaks fun _ => .bind hInit fun _ => ?_
  exact .bind (.expect _) fun _ => .pure _

theorem parseGenerator_located (hExpr : ∀ power, (expr power).Located) (hType : type.Located) :
    (parseGenerator expr type).LocatedAt ⟨n, t :: ts⟩ := by
  refine LocatedAt.advance.bind fun _ => .bind (.expect _) fun _ => .bind (hExpr _) fun _ => ?_
  refine .bind (parseInitializer_located hExpr hType) fun _ => ?_
  split
  · exact .pure _
  · exact .pure _

theorem parseArguments_located (hExpr : ∀ power, (expr power).Located) :
    (parseArguments expr).Located :=
  Parser.items_located (hExpr _) .skipLineBreaks

theorem parseLiteral_located (hExpr : ∀ power, (expr power).Located) :
    (parseLiteral expr).LocatedAt ⟨n, t :: ts⟩ := by
  refine LocatedAt.advance.bind fun _ => .bind (.expect _) fun _ => ?_
  refine .bind (parseArguments_located hExpr) fun _ => ?_
  split
  · exact .pure _
  · exact .pure _

theorem parse_located (hExpr : ∀ power, (expr power).Located) (hType : type.Located)
    {form : OperandForm} (hForm : Grammar.standard.operand t.kind = some form) :
    (form.parse embed expr type).LocatedAt ⟨n, t :: ts⟩ := by
  cases form with
  | primary => exact parsePrimary_located hForm
  | negation => exact parseNegation_located hExpr _
  | step =>
      obtain ⟨op, hKind⟩ := operand_eq_some.1 hForm
      exact parseStep_located hKind
  | grouping => exact parseGrouping_located hExpr _
  | lambda => exact Located.bind (parseLambda_located hExpr hType) (fun _ => .pure _) _
  | conditional => exact parseConditional_located hExpr _
  | generator => exact parseGenerator_located hExpr hType
  | literal => exact parseLiteral_located hExpr

end OperandForm

theorem parseOperand_located (hExpr : ∀ power, (expr power).Located) :
    (Grammar.standard.parseOperand embed expr).Located := by
  intro c
  unfold LocatedAt Grammar.parseOperand
  cases hKind : c.kind? with
  | none => exact Cursor.places_unexpected (by decide)
  | some kind =>
      obtain ⟨n, t, ts, rfl, rfl⟩ := Cursor.exists_of_kind? hKind
      dsimp only
      cases hForm : Grammar.standard.operand t.kind with
      | none => exact Cursor.places_unexpected (by decide)
      | some form => exact OperandForm.parse_located hExpr parseType_located hForm

/-! ## Operators -/

namespace OperatorForm

theorem parseBinary_located (hExpr : ∀ power, (expr power).Located) (left : Expr) (power : Power)
    {op : BinaryOp} (hKind : t.kind = .infixMark (.binary op)) :
    (parseBinary expr left power).LocatedAt ⟨n, t :: ts⟩ := by
  obtain rfl := Token.kind_eq_infixMark.1 hKind
  have hRight : Located (do
      Parser.skipLineBreaks
      let right ← expr power
      return Expr.binary left op right) :=
    .bind .skipLineBreaks fun _ => .bind (hExpr _) fun _ => .pure _
  exact .position (.token (hRight _))

theorem parseRange_located (hExpr : ∀ power, (expr power).Located) (left : Expr) (power : Power) :
    (parseRange expr left power).Located :=
  .bind (.expect _) fun _ => .bind (hExpr _) fun _ => .pure _

/-- The step itself is quoted where it does not stand behind a name. -/
theorem parseStep_located (left : Expr) : (parseStep left).LocatedAt ⟨n, t :: ts⟩ := by
  refine .position (LocatedAt.advance.andThen fun operator c' hRun => ?_)
  cases hRun
  dsimp only
  split
  · exact ⟨[_], Nat.zero_le 1, rfl, rfl⟩
  · exact Cursor.Places.here (.refused (by decide) _ ts)

theorem parseCall_located (hExpr : ∀ power, (expr power).Located) (left : Expr) :
    (parseCall expr left).Located := by
  unfold parseCall
  split
  · refine .bind (.expect _) fun _ => ?_
    exact .bind (OperandForm.parseArguments_located hExpr) fun _ => .pure _
  · exact .unexpected (by decide)

theorem parseIndex_located (hExpr : ∀ power, (expr power).Located) (left : Expr) :
    (parseIndex expr left).Located := by
  unfold parseIndex
  split
  · refine .bind (.expect _) fun _ => .bind (hExpr _) fun _ => ?_
    exact .bind (.expect _) fun _ => .pure _
  · exact .unexpected (by decide)

theorem parse_located (hExpr : ∀ power, (expr power).Located) (left : Expr) (power : Power)
    {form : OperatorForm} (hForm : Grammar.standard.operator t.kind = some form) :
    (form.parse expr left power).LocatedAt ⟨n, t :: ts⟩ := by
  cases form with
  | binary =>
      obtain ⟨op, hKind⟩ := operator_eq_some.1 hForm
      exact parseBinary_located hExpr left power hKind
  | range => exact parseRange_located hExpr left power _
  | step => exact parseStep_located left
  | call => exact parseCall_located hExpr left _
  | index => exact parseIndex_located hExpr left _

end OperatorForm

/-- An operator that binds has a form, so it is never one without. -/
theorem climb_located (hExpr : ∀ power, (expr power).Located) (power : Power) (bound : Nat)
    (left : Expr) : (Grammar.standard.climb expr power bound left).Located := by
  induction bound generalizing left with
  | zero => exact .pure left
  | succ bound ih =>
      intro c
      unfold LocatedAt
      rw [Grammar.climb_succ, Grammar.climbStep]
      cases hKind : c.kind? with
      | none => exact Cursor.Reaches.refl c
      | some kind =>
          obtain ⟨n, t, ts, rfl, rfl⟩ := Cursor.exists_of_kind? hKind
          dsimp only
          split
          · exact Cursor.Reaches.refl _
          · next hTight =>
              obtain ⟨form, hForm⟩ := operator_of_rank (Nat.zero_lt_of_lt (Nat.lt_of_not_le hTight))
              rw [hForm]
              exact (OperatorForm.parse_located hExpr left _ hForm).bind ih

theorem exprAt_located (bound : Nat) (power : Power) :
    (Grammar.standard.exprAt embed bound power).Located := by
  induction bound generalizing power with
  | zero => exact .unexpected (by decide)
  | succ bound ih =>
      exact .bind (parseOperand_located ih) fun left c => climb_located ih power _ left c

theorem parseExpr_located (power : Power) : (Grammar.standard.parseExpr power).Located :=
  fun c => exprAt_located c.rest.length power c

/-! ## Statements -/

namespace Sequence

theorem parseSeparator_located (terminator? : Option Kind) :
    (parseSeparator terminator?).Located := by
  refine .bind .skipSeparators fun separated => ?_
  rintro ⟨n, _ | ⟨t, ts⟩⟩
  · -- Without tokens the sequence is at its end.
    show Cursor.Explains _ (if (separated || true) = true then _ else _)
    rw [Bool.or_true, if_pos rfl]
    exact Cursor.Reaches.refl _
  · unfold LocatedAt
    dsimp only
    split
    · exact Cursor.Reaches.refl _
    · exact Cursor.Places.here (.missingSeparator t ts)

theorem parseFrom_located (hStmt : stmt.Located) (terminator? : Option Kind) (bound : Nat) :
    (parseFrom stmt terminator? bound).Located := by
  induction bound with
  | zero => exact .pure []
  | succ bound ih =>
      intro c
      unfold LocatedAt
      rw [parseFrom_succ, parseFromStep]
      split
      · exact Cursor.Reaches.refl c
      · refine (hStmt c).bind fun _ => .bind (parseSeparator_located terminator?) fun _ => ?_
        exact .bind ih fun _ => .pure _

theorem parse_located (hStmt : stmt.Located) (terminator? : Option Kind) :
    (parse stmt terminator?).Located :=
  .bind .skipSeparators fun _ c => parseFrom_located hStmt terminator? c.rest.length c

end Sequence

namespace StmtForm

theorem parseBlock_located (hStmt : stmt.Located) : (parseBlock stmt).Located := by
  refine .bind (.expect _) fun _ => .bind (Sequence.parse_located hStmt _) fun _ => ?_
  exact .bind (.expect _) fun _ => .pure _

theorem parseBody_located (hStmt : stmt.Located) : (parseBody stmt).Located := by
  refine .bind .skipLineBreaks fun _ => .branch (fun _ _ _ _ => ?_) ?_
  · exact parseBlock_located hStmt _
  · exact .bind hStmt fun _ => .pure _

theorem parseDeclaredName_located : parseDeclaredName.Located := by
  intro c
  unfold LocatedAt parseDeclaredName
  split
  · exact Located.identifier c
  · exact Cursor.places_unexpected (by decide)

theorem parseValue_located (hExpr : ∀ power, (expr power).Located) :
    (parseValue expr).LocatedAt ⟨n, t :: ts⟩ :=
  LocatedAt.advance.bind fun _ => .bind .skipLineBreaks fun _ => hExpr _

theorem parseDeclaration_located (hExpr : ∀ power, (expr power).Located) (hType : type.Located) :
    (parseDeclaration expr type).LocatedAt ⟨n, t :: ts⟩ := by
  refine LocatedAt.advance.bind fun _ => .bind parseDeclaredName_located fun _ => ?_
  refine .bind (OperandForm.parseAnnotation?_located hType) fun _ => .branch (fun _ _ _ _ => ?_) ?_
  · exact (parseValue_located hExpr).bind fun _ => .pure _
  · intro c
    unfold LocatedAt
    dsimp only
    split
    · exact Cursor.Reaches.refl c
    · exact Cursor.places_unexpected (by decide)

/-- An expression that is no statement is found out when it has been read, and
its first token is quoted. -/
theorem parseExpression_located (hExpr : ∀ power, (expr power).Located) :
    (parseExpression expr).LocatedAt ⟨n, t :: ts⟩ := by
  refine (hExpr .lowest _).andThen fun e c' hRun => ?_
  have hReached := (hExpr .lowest _).reaches hRun
  split
  · exact hReached
  · exact hReached
  · exact Cursor.Places.here (.refused (by decide) t ts)

theorem parseNamed_located (hExpr : ∀ power, (expr power).Located) :
    (parseNamed expr).LocatedAt ⟨n, t :: ts⟩ := by
  -- Behind the name stands the mark that was seen there.
  have hValue : ∀ {kind : Kind} {f : String → Expr → Stmt},
      Cursor.peekKind? ⟨n, t :: ts⟩ 1 = some kind →
        LocatedAt (do
          let name ← Parser.identifier
          let value ← parseValue expr
          return f name value) ⟨n, t :: ts⟩ := by
    intro kind f hMark
    refine (Located.identifier _).bindAt fun name c' hRun => ?_
    obtain ⟨hRest, -⟩ := Parser.identifier_eq_ok.1 hRun
    obtain ⟨n', rest⟩ := c'
    obtain ⟨-, rfl⟩ := List.cons.inj hRest
    cases ts with
    | nil => exact absurd hMark nofun
    | cons mark ts => exact (parseValue_located hExpr).bind fun _ => .pure _
  unfold LocatedAt parseNamed
  split
  · next hMark => exact hValue hMark
  · next hMark => exact hValue hMark
  · exact parseExpression_located hExpr

theorem parseConditional_located (hExpr : ∀ power, (expr power).Located) (hStmt : stmt.Located) :
    (parseConditional expr stmt).Located := by
  refine .bind (.expect _) fun _ => .bind (OperandForm.parseCondition_located hExpr) fun _ => ?_
  refine .bind (parseBody_located hStmt) fun _ => .bind (.elseBranch? (parseBody_located hStmt)) ?_
  intro block?
  cases block? with
  | some block => exact .pure _
  | none => exact .pure _

theorem parseFor_located (hExpr : ∀ power, (expr power).Located) (hStmt : stmt.Located) :
    (parseFor expr stmt).Located := by
  refine .bind (.expect _) fun _ => .bind (.expect _) fun _ => .bind .identifier fun _ => ?_
  refine .bind (.expect _) fun _ => .bind (hExpr _) fun _ => .bind (.expect _) fun _ => ?_
  exact .bind (parseBody_located hStmt) fun _ => .pure _

theorem parseWhile_located (hExpr : ∀ power, (expr power).Located) (hStmt : stmt.Located) :
    (parseWhile expr stmt).Located := by
  refine .bind (.expect _) fun _ => .bind (OperandForm.parseCondition_located hExpr) fun _ => ?_
  exact .bind (parseBody_located hStmt) fun _ => .pure _

theorem parseControl_located : parseControl.LocatedAt ⟨n, t :: ts⟩ := by
  refine LocatedAt.advance.bind fun _ => ?_
  split
  · exact .pure _
  · exact .pure _

theorem parseParameter_located (hType : type.Located) : (parseParameter type).Located := by
  refine .bind .identifier fun _ => .bind (.expect _) fun _ => ?_
  exact .bind hType fun _ => .pure _

theorem parseFunction_located (hType : type.Located) (hStmt : stmt.Located) :
    (parseFunction type stmt).Located := by
  refine .bind (.expect _) fun _ => .bind .identifier fun _ => .bind (.expect _) fun _ => ?_
  refine .bind (Parser.items_located (parseParameter_located hType) (.pure _)) fun _ => ?_
  refine .bind (.expect _) fun _ => .bind hType fun _ => .bind .skipLineBreaks fun _ => ?_
  exact .bind (parseBlock_located hStmt) fun _ => .pure _

theorem parseReturn_located (hExpr : ∀ power, (expr power).Located) : (parseReturn expr).Located :=
  .bind (.expect _) fun _ => .bind (hExpr _) fun _ => .pure _

theorem parseOutput_located (hExpr : ∀ power, (expr power).Located) :
    (parseOutput expr).LocatedAt ⟨n, t :: ts⟩ := by
  refine LocatedAt.advance.bind fun _ => ?_
  refine .bind (OperandForm.parseGrouping_located hExpr) fun _ => ?_
  split
  · exact .pure _
  · exact .pure _

theorem parse_located (hExpr : ∀ power, (expr power).Located) (hType : type.Located)
    (hStmt : stmt.Located) {form : StmtForm}
    (hForm : Grammar.standard.statement t.kind = some form) :
    (form.parse expr type stmt).LocatedAt ⟨n, t :: ts⟩ := by
  cases form with
  | declaration => exact parseDeclaration_located hExpr hType
  | named => exact parseNamed_located hExpr
  | expression => exact parseExpression_located hExpr
  | conditional => exact parseConditional_located hExpr hStmt _
  | forLoop => exact parseFor_located hExpr hStmt _
  | whileLoop => exact parseWhile_located hExpr hStmt _
  | control => exact parseControl_located
  | function => exact parseFunction_located hType hStmt _
  | returns => exact parseReturn_located hExpr _
  | output => exact parseOutput_located hExpr
  | block => exact Located.bind (parseBlock_located hStmt) (fun _ => .pure _) _
  | any => exact (statement_eq_some.1 hForm).elim

end StmtForm

theorem stmtStep_located (hStmt : stmt.Located) : (Grammar.standard.stmtStep stmt).Located := by
  intro c
  unfold LocatedAt Grammar.stmtStep
  cases hForm : c.kind?.bind Grammar.standard.statement with
  | none => exact Cursor.places_unexpected (by decide)
  | some form =>
      obtain ⟨n, t, ts, rfl, hTable⟩ := Cursor.exists_of_table hForm
      exact StmtForm.parse_located parseExpr_located parseType_located hStmt hTable

theorem stmtAt_located (bound : Nat) : (Grammar.standard.stmtAt bound).Located := by
  induction bound with
  | zero => exact .unexpected (by decide)
  | succ bound ih =>
      rw [Grammar.stmtAt_succ]
      exact stmtStep_located ih

theorem parseStmt_located : Grammar.standard.parseStmt.Located :=
  fun c => stmtAt_located c.rest.length c

end ScriptLang
