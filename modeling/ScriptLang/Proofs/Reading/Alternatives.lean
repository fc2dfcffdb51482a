import ScriptLang.Proofs.Reading.Delimited

/-!
# Two spellings of one tree

Some trees can be spelled in more than one way. An expression may stand in
parentheses; a lambda without parameters may leave out its arrow; the
initializer of a collection may stand inside the parentheses or behind them; and
a body of one statement may go without braces (`alternative_spellings`).

Each spelling is derived by a rule of its own. That the parts keep their reading
inside of it is due to locality: a closing bracket or a comma may stand in place
of the end.
-/

namespace ScriptLang

variable {embed : String → Except ParseError Expr} {ts us rest : List Token} {e : Expr} {s : Stmt}
  {fn : Lambda}

/-! ## Lambdas on their own -/

/-- The tokens as a single lambda. -/
def parseWholeLambda (tokens : List Token) : Except ParseError Lambda :=
  Parser.parse (do
    let fn ← Grammar.standard.parseLambda
    Parser.expectEnd
    return fn) tokens

theorem parseWholeLambda_eq_ok :
    parseWholeLambda ts = .ok fn ↔ (Phrase.lambda fn).Derives embedded ts [] := by
  rw [parseWholeLambda, Parser.parse_all_eq_ok]
  constructor
  · rintro ⟨m, hRun⟩
    exact parseLambda_derived parseExpr_readsDerived hRun
  · intro h
    exact reads_lambda readsUpTo_parseExpr (Nat.le_succ _) h 0

theorem Lambda.toExpr_inj {fn fn' : Lambda} (h : fn.toExpr = fn'.toExpr) : fn = fn' := by
  obtain ⟨hParameters, hBody⟩ := Expr.lambda.inj h
  cases fn
  cases fn'
  rw [Lambda.mk.injEq]
  exact ⟨hParameters, hBody⟩

/-- No operator makes a lambda of what stands before it. -/
theorem Phrase.Derives.climb_lambda {power : Power} {left : Expr}
    (h : (Phrase.climb power left fn.toExpr).Derives embed ts rest) :
    left = fn.toExpr ∧ rest = ts := by
  generalize hPhrase : Phrase.climb power left fn.toExpr = ph at h
  induction h generalizing left with
  | stop =>
      obtain ⟨-, rfl, rfl⟩ := Phrase.climb.inj hPhrase
      exact ⟨rfl, rfl⟩
  | binary _ _ _ _ ih | range _ _ _ _ ih | stepBehind _ _ ih | call _ _ _ _ ih
    | index _ _ _ _ ih =>
      obtain ⟨rfl, rfl, rfl⟩ := Phrase.climb.inj hPhrase
      exact absurd (ih rfl).1 nofun
  | _ => exact absurd hPhrase nofun

/-- A lambda on its own is an expression that is a lambda and starts with its
brace, not with a parenthesis. -/
theorem parseWholeLambda_eq_ok_iff_parseExpression :
    parseWholeLambda ts = .ok fn ↔
      parseExpression ts = .ok fn.toExpr ∧ ts.head? = some (.bracket .openCurly) := by
  rw [parseWholeLambda_eq_ok, parseExpression_eq_ok]
  constructor
  · intro h
    obtain ⟨us, rfl⟩ := h.lambda_head
    exact ⟨.expr (.lambdaOperand h) (.stop (Nat.le_refl 0)), rfl⟩
  · rintro ⟨h, hHead⟩
    obtain ⟨us, rfl⟩ := List.head?_eq_some_iff.1 hHead
    cases h with
    | expr hLeft hClimb =>
        generalize hTokens : Token.bracket .openCurly :: us = ts at hLeft
        obtain ⟨rfl, rfl⟩ := hClimb.climb_lambda
        generalize hFn : fn.toExpr = e at hLeft
        cases hLeft with
        | lambdaOperand hLambda =>
            obtain rfl := Lambda.toExpr_inj hFn
            exact hLambda
        | _ => cases hTokens

/-! ## Bodies -/

/-- The front of a loop or a conditional, up to its body. -/
inductive BodyHead
  | whileLoop
  | forIn (name : String)
  | ifThen
  deriving DecidableEq

namespace BodyHead

/-- The front with the tokens of its expression. -/
def tokens (ts : List Token) : BodyHead → List Token
  | .whileLoop => .keyword .whileWord :: .bracket .openParen :: (ts ++ [Token.bracket .closeParen])
  | .forIn name =>
    .keyword .forWord :: .bracket .openParen :: .name name :: .keyword .inWord ::
      (ts ++ [Token.bracket .closeParen])
  | .ifThen => .keyword .ifWord :: .bracket .openParen :: (ts ++ [Token.bracket .closeParen])

/-- The statement with its expression and its body. -/
def stmt (e : Expr) (body : Block) : BodyHead → Stmt
  | .whileLoop => .whileLoop e body
  | .forIn name => .forIn name e body
  | .ifThen => .ifThen e body

theorem derives {body : Block} (head : BodyHead)
    (hExpr : (Phrase.expr .lowest e).Derives embedded ts [])
    (hBody : (Clause.body body).Derives us []) :
    (Clause.stmt (head.stmt e body)).Derives (head.tokens ts ++ us) [] := by
  have hInside : (Phrase.expr .lowest e).Derives embedded (ts ++ [Token.bracket .closeParen] ++ us)
      (.bracket .closeParen :: us) := by
    rw [List.append_assoc]
    exact derives_closeParen hExpr
  cases head with
  | whileLoop => exact .whileLoop hInside hBody
  | forIn name => exact .forIn hInside hBody
  | ifThen => exact .ifThen hInside hBody not_elseAhead_nil

end BodyHead

/-- A statement between no separators is derived from all its tokens. -/
theorem stmt_derives_of_parse (h : parseStatement ts = .ok s) (hFirst : NoSeparator ts)
    (hLast : ∀ t ∈ ts.getLast?, t.isSeparator = false) : (Clause.stmt s).Derives ts [] := by
  obtain ⟨q, ts₁, r, rfl, hq, hStmt, hr⟩ := parseStatement_eq_ok.1 h
  have hNoneBefore : q = [] := by
    cases q with
    | nil => rfl
    | cons t q =>
      exact absurd (hq t List.mem_cons_self) (by rw [hFirst t rfl]; decide)
  subst hNoneBefore
  rw [List.nil_append] at *
  obtain ⟨u, rfl, -⟩ := hStmt.cut
  have hNoneBehind : r = [] := by
    cases hEnd : r.getLast? with
    | none => exact List.getLast?_eq_none_iff.1 hEnd
    | some t =>
        have hSome := hr t (List.mem_of_getLast? hEnd)
        have hNone := hLast t (by rw [List.getLast?_append, hEnd]; rfl)
        rw [hNone] at hSome
        exact absurd hSome Bool.false_ne_true
  subst hNoneBehind
  exact hStmt

/-! ## The spellings -/

/-- An expression may stand in parentheses, a lambda without parameters may do
without its arrow, an initializer may stand inside of the parentheses or behind
them, and a body of one statement may do without braces. -/
theorem alternative_spellings (hExpr : parseExpression ts = .ok e) :
    parseExpression (.bracket .openParen :: (ts ++ [Token.bracket .closeParen])) = .ok e ∧
    parseExpression (.bracket .openCurly :: (ts ++ [Token.bracket .closeCurly])) =
      .ok (.lambda [] e) ∧
    parseExpression (.bracket .openCurly :: .symbol .arrow :: (ts ++ [Token.bracket .closeCurly])) =
      .ok (.lambda [] e) ∧
    (∀ kind us fn, parseWholeLambda us = .ok fn →
      parseExpression (.typeWord (.collection kind) :: .bracket .openParen ::
          (ts ++ Token.symbol .comma :: (us ++ [Token.bracket .closeParen]))) =
        .ok (.generate kind e fn.parameters fn.body) ∧
      parseExpression (.typeWord (.collection kind) :: .bracket .openParen ::
          (ts ++ Token.bracket .closeParen :: us)) =
        .ok (.generate kind e fn.parameters fn.body)) ∧
    ∀ (head : BodyHead) us s, parseStatement us = .ok s →
      us.head? ≠ some (.bracket .openCurly) → (∀ t ∈ us.head?, t.isSeparator = false) →
      (∀ t ∈ us.getLast?, t.isSeparator = false) →
        parseStatement (head.tokens ts ++ us) = .ok (head.stmt e [s]) ∧
        parseStatement (head.tokens ts ++
            Token.bracket .openCurly :: (us ++ [Token.bracket .closeCurly])) =
          .ok (head.stmt e [s]) := by
  have hDerived : (Phrase.expr .lowest e).Derives embedded ts [] := parseExpression_eq_ok.1 hExpr
  have hOperand : ∀ {us e}, (Phrase.operand e).Derives embedded us [] →
      parseExpression us = .ok e := fun h =>
    parseExpression_eq_ok.2 (.expr h (.stop (Nat.le_refl 0)))
  have hArrow : (Phrase.lambda ⟨[], e⟩).Derives embedded
      (.bracket .openCurly :: .symbol .arrow :: (ts ++ [Token.bracket .closeCurly])) [] :=
    Phrase.Derives.lambdaParameters (m := 0) (derives_enclosed hDerived rfl)
  refine ⟨hOperand (.grouping (derives_enclosed hDerived rfl)),
    hOperand (.lambdaOperand (.lambdaBare (derives_enclosed hDerived rfl))),
    hOperand (.lambdaOperand hArrow), ?_, ?_⟩
  · intro kind us fn hLambda
    have hFn : (Phrase.lambda fn).Derives embedded us [] := parseWholeLambda_eq_ok.1 hLambda
    constructor
    · have hSize : (Phrase.expr .lowest e).Derives embedded
          (ts ++ Token.symbol .comma :: (us ++ [Token.bracket .closeParen]))
          (.symbol .comma :: (us ++ [Token.bracket .closeParen])) := hDerived.extend (.of_comma 0)
      exact hOperand (.generateInside (m := 0) hSize (hFn.extend (.of_bracket 0 rfl)))
    · exact hOperand (.generateBehind (derives_closeParen hDerived) hFn)
  · intro head us s hStmt hBrace hFirst hLast
    have hBody : (Clause.stmt s).Derives us [] := stmt_derives_of_parse hStmt hFirst hLast
    have hRead : ∀ {us s}, (Clause.stmt s).Derives us [] → parseStatement us = .ok s := fun h =>
      parseStatement_of_derives (q := []) (by decide) h (by decide)
    constructor
    · have hSingle : (Clause.body [s]).Derives us [] :=
        Clause.Derives.bodySingle (m := 0) hBrace hBody
      exact hRead (head.derives hDerived hSingle)
    · have hSequence : (Clause.sequence [s]).Derives us [] :=
        Clause.Derives.last (q := []) (by decide) hBody
      have hBlock : (Clause.body [s]).Derives
          (.bracket .openCurly :: (us ++ [Token.bracket .closeCurly])) [] :=
        Clause.Derives.bodyBlock (m := 0) (derives_block hSequence)
      exact hRead (head.derives hDerived hBlock)

/-- The tokens of `n + 1`. -/
def successor : List Token := [.name "n", .infixMark (.binary (.arithmetic .plus)), .int 1]

/-- The tokens of `{ i -> i }`. -/
def identityLambda : List Token :=
  [.bracket .openCurly, .name "i", .symbol .arrow, .name "i", .bracket .closeCurly]

/-- `{ n + 1 }`, `MutableList(n + 1) { i -> i }` and `while (n + 1) n++`, each
beside its other spelling. -/
theorem spellings_of_successor :
    parseExpression (.bracket .openCurly :: (successor ++ [Token.bracket .closeCurly])) =
        parseExpression
          (.bracket .openCurly :: .symbol .arrow :: (successor ++ [Token.bracket .closeCurly])) ∧
      parseExpression (.typeWord (.collection .mutableList) :: .bracket .openParen ::
          (successor ++ Token.symbol .comma :: (identityLambda ++ [Token.bracket .closeParen]))) =
        parseExpression (.typeWord (.collection .mutableList) :: .bracket .openParen ::
          (successor ++ Token.bracket .closeParen :: identityLambda)) ∧
      parseStatement (BodyHead.whileLoop.tokens successor ++
          [Token.name "n", .unaryMark (.step .increase)]) =
        parseStatement (BodyHead.whileLoop.tokens successor ++ [Token.bracket .openCurly, .name "n",
          .unaryMark (.step .increase), .bracket .closeCurly]) := by
  have hSuccessor : parseExpression successor =
      .ok (.binary (.var "n") (.arithmetic .plus) (.int 1)) := by rfl
  have hIdentity : parseWholeLambda identityLambda = .ok ⟨[("i", none)], .var "i"⟩ := by rfl
  have hStep : parseStatement [.name "n", .unaryMark (.step .increase)] =
      .ok (.step "n" .increase false) := by rfl
  obtain ⟨-, hBare, hArrow, hInitializer, hBody⟩ := alternative_spellings hSuccessor
  obtain ⟨hInside, hBehind⟩ := hInitializer .mutableList _ _ hIdentity
  obtain ⟨hSingle, hBlock⟩ := hBody .whileLoop _ _ hStep (by decide) (by decide) (by decide)
  exact ⟨hBare.trans hArrow.symm, hInside.trans hBehind.symm, hSingle.trans hBlock.symm⟩

end ScriptLang
