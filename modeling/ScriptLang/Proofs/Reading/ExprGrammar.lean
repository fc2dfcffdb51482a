import ScriptLang.Grammar.Expression
import ScriptLang.Proofs.Reading.TypeSpelling

/-!
# The grammar of expressions as rules

`Phrase.Derives` says, rule by rule, what the standard grammar reads as which
expression. A derivation goes from the tokens before a phrase to the tokens
behind it. Two of its rules look at what follows without reading it: climbing
stops in front of an operator that does not bind more tightly, and a
conditional ends where no `else` is ahead. Nothing else is looked ahead at, and
no rule says that another one fails.

The rules show every place where line breaks may stand. That an expression
never starts with one makes these places unambiguous.
-/

namespace ScriptLang

/-! ## Annotations and parameters -/

/-- The tokens of an optional annotation. -/
def annotationTokens : Option Ty → List Token
  | none => []
  | some ty => .symbol .colon :: ty.tokens

/-- The tokens of a lambda parameter. -/
def parameterTokens (parameter : String × Option Ty) : List Token :=
  .name parameter.1 :: annotationTokens parameter.2

/-- The tokens of the parameter list of a lambda, its arrow included. -/
def parameterListTokens (parameters : List (String × Option Ty)) : List Token :=
  listed parameterTokens parameters ++ [.symbol .arrow]

/-! ## What may follow -/

/-- How tightly the next token binds as an operator; the end binds loosest. -/
def headRank : List Token → Nat
  | [] => 0
  | t :: _ => (Grammar.standard.powerOf t.kind).rank

/-- How tightly a binary operator binds. -/
def BinaryOp.power (op : BinaryOp) : Power := Grammar.standard.powerOf (.infixMark (.binary op))

theorem BinaryOp.power_pos (op : BinaryOp) : Power.lowest.rank < op.power.rank := by
  rcases op with (_ | _ | _ | _ | _) | _ | _ <;> exact Nat.zero_lt_succ _

/-! ## The rules -/

/-- A part of an expression, with the tree that is read from it. -/
inductive Phrase
  | operand (e : Expr)
  | expr (power : Power) (e : Expr)
  /-- The operators behind `left`, which make `e` of it. -/
  | climb (power : Power) (left e : Expr)
  /-- An expression and its closing bracket, the opening one being read. -/
  | enclosed (close : Bracket) (e : Expr)
  | lambda (fn : Lambda)
  /-- A branch of a conditional. -/
  | branch (e : Expr)
  /-- Arguments and the closing parenthesis, the opening one being read. -/
  | arguments (es : List Expr)
  /-- Further arguments, each behind its comma, and the closing parenthesis. -/
  | moreArguments (es : List Expr)

/-- The phrase is read from the front of the tokens and leaves the rest. -/
inductive Phrase.Derives (embed : String → Except ParseError Expr) :
    Phrase → List Token → List Token → Prop
  | int {v : Int} {rest : List Token} :
    Derives embed (.operand (.int v)) (.int v :: rest) rest
  | truth {b : Bool} {rest : List Token} :
    Derives embed (.operand (.boolean b)) (.keyword (.truth b) :: rest) rest
  | name {n : String} {rest : List Token} :
    Derives embed (.operand (.var n)) (.name n :: rest) rest
  | text {contents : String} {position : Nat} {e : Expr} {rest : List Token}
      (hText : Template.parse embed contents position = .ok e) :
    Derives embed (.operand e) (.text contents :: rest) rest
  | negation {e : Expr} {ts rest : List Token}
      (hOperand : Derives embed (.expr .unary e) ts rest) :
    Derives embed (.operand (.not e)) (.unaryMark .not :: ts) rest
  | step {n : String} {op : StepOp} {rest : List Token} :
    Derives embed (.operand (.step n op true)) (.unaryMark (.step op) :: .name n :: rest) rest
  | grouping {e : Expr} {ts rest : List Token}
      (hInside : Derives embed (.enclosed .closeParen e) ts rest) :
    Derives embed (.operand e) (.bracket .openParen :: ts) rest
  | lambdaOperand {fn : Lambda} {ts rest : List Token}
      (hLambda : Derives embed (.lambda fn) ts rest) :
    Derives embed (.operand fn.toExpr) ts rest
  | ifThen {condition thenBranch : Expr} {m : Nat} {ts ts₁ rest : List Token}
      (hCondition : Derives embed (.expr .lowest condition) ts
        (.bracket .closeParen :: (breaks m ++ ts₁)))
      (hThen : Derives embed (.branch thenBranch) ts₁ rest)
      (hNoElse : ¬ ElseAhead rest) :
    Derives embed (.operand (.ifThen condition thenBranch))
      (.keyword .ifWord :: .bracket .openParen :: ts) rest
  | ifElse {condition thenBranch elseBranch : Expr} {m n k : Nat}
      {ts ts₁ ts₂ rest : List Token}
      (hCondition : Derives embed (.expr .lowest condition) ts
        (.bracket .closeParen :: (breaks m ++ ts₁)))
      (hThen : Derives embed (.branch thenBranch) ts₁
        (breaks n ++ .keyword .elseWord :: (breaks k ++ ts₂)))
      (hElse : Derives embed (.branch elseBranch) ts₂ rest) :
    Derives embed (.operand (.ifElse condition thenBranch elseBranch))
      (.keyword .ifWord :: .bracket .openParen :: ts) rest
  | generateInside {kind : Collection} {size : Expr} {fn : Lambda} {m : Nat}
      {ts ts₁ rest : List Token}
      (hSize : Derives embed (.expr .lowest size) ts (.symbol .comma :: (breaks m ++ ts₁)))
      (hLambda : Derives embed (.lambda fn) ts₁ (.bracket .closeParen :: rest)) :
    Derives embed (.operand (.generate kind size fn.parameters fn.body))
      (.typeWord (.collection kind) :: .bracket .openParen :: ts) rest
  | generateBehind {kind : Collection} {size : Expr} {fn : Lambda} {ts ts₁ rest : List Token}
      (hSize : Derives embed (.expr .lowest size) ts (.bracket .closeParen :: ts₁))
      (hLambda : Derives embed (.lambda fn) ts₁ rest) :
    Derives embed (.operand (.generate kind size fn.parameters fn.body))
      (.typeWord (.collection kind) :: .bracket .openParen :: ts) rest
  | literal {kind : Collection} {es : List Expr} {ts rest : List Token}
      (hItems : Derives embed (.arguments es) ts rest) :
    Derives embed (.operand (.literal kind es))
      (.keyword (.literal kind) :: .bracket .openParen :: ts) rest
  | enclosed {close : Bracket} {e : Expr} {m n : Nat} {ts rest : List Token}
      (hExpr : Derives embed (.expr .lowest e) ts (breaks n ++ .bracket close :: rest)) :
    Derives embed (.enclosed close e) (breaks m ++ ts) rest
  | lambdaParameters {parameters : List (String × Option Ty)} {body : Expr} {m : Nat}
      {ts rest : List Token} (hBody : Derives embed (.enclosed .closeCurly body) ts rest) :
    Derives embed (.lambda ⟨parameters, body⟩)
      (.bracket .openCurly :: (breaks m ++ (parameterListTokens parameters ++ ts))) rest
  | lambdaBare {body : Expr} {ts rest : List Token}
      (hBody : Derives embed (.enclosed .closeCurly body) ts rest) :
    Derives embed (.lambda ⟨[], body⟩) (.bracket .openCurly :: ts) rest
  | branchBraced {e : Expr} {ts rest : List Token}
      (hInside : Derives embed (.enclosed .closeCurly e) ts rest) :
    Derives embed (.branch e) (.bracket .openCurly :: ts) rest
  | branchBare {e : Expr} {ts rest : List Token}
      (hHead : ts.head? ≠ some (.bracket .openCurly))
      (hExpr : Derives embed (.expr .lowest e) ts rest) :
    Derives embed (.branch e) ts rest
  | argumentsNone {m : Nat} {rest : List Token} :
    Derives embed (.arguments []) (breaks m ++ .bracket .closeParen :: rest) rest
  | argumentsSome {e : Expr} {es : List Expr} {m n : Nat} {ts ts₁ rest : List Token}
      (hFirst : Derives embed (.expr .lowest e) ts (breaks n ++ ts₁))
      (hMore : Derives embed (.moreArguments es) ts₁ rest) :
    Derives embed (.arguments (e :: es)) (breaks m ++ ts) rest
  | moreClose {rest : List Token} :
    Derives embed (.moreArguments []) (.bracket .closeParen :: rest) rest
  | moreNext {e : Expr} {es : List Expr} {m n : Nat} {ts ts₁ rest : List Token}
      (hFirst : Derives embed (.expr .lowest e) ts (breaks n ++ ts₁))
      (hMore : Derives embed (.moreArguments es) ts₁ rest) :
    Derives embed (.moreArguments (e :: es)) (.symbol .comma :: (breaks m ++ ts)) rest
  | expr {power : Power} {left e : Expr} {ts ts₁ rest : List Token}
      (hLeft : Derives embed (.operand left) ts ts₁)
      (hClimb : Derives embed (.climb power left e) ts₁ rest) :
    Derives embed (.expr power e) ts rest
  | stop {power : Power} {e : Expr} {rest : List Token} (hRank : headRank rest ≤ power.rank) :
    Derives embed (.climb power e e) rest rest
  | binary {power : Power} {left right e : Expr} {op : BinaryOp} {m : Nat}
      {ts ts₁ rest : List Token} (hRank : power.rank < op.power.rank)
      (hRight : Derives embed (.expr op.power right) ts ts₁)
      (hClimb : Derives embed (.climb power (.binary left op right) e) ts₁ rest) :
    Derives embed (.climb power left e) (.infixMark (.binary op) :: (breaks m ++ ts)) rest
  | range {power : Power} {first last e : Expr} {ts ts₁ rest : List Token}
      (hRank : power.rank < Power.range.rank)
      (hLast : Derives embed (.expr .range last) ts ts₁)
      (hClimb : Derives embed (.climb power (.range first last) e) ts₁ rest) :
    Derives embed (.climb power first e) (.symbol .dotDot :: ts) rest
  | stepBehind {power : Power} {n : String} {op : StepOp} {e : Expr} {ts rest : List Token}
      (hRank : power.rank < Power.trailing.rank)
      (hClimb : Derives embed (.climb power (.step n op false) e) ts rest) :
    Derives embed (.climb power (.var n) e) (.unaryMark (.step op) :: ts) rest
  | call {power : Power} {callee : String} {es : List Expr} {e : Expr}
      {ts ts₁ rest : List Token} (hRank : power.rank < Power.call.rank)
      (hArguments : Derives embed (.arguments es) ts ts₁)
      (hClimb : Derives embed (.climb power (.call callee es) e) ts₁ rest) :
    Derives embed (.climb power (.var callee) e) (.bracket .openParen :: ts) rest
  | index {power : Power} {n : String} {i e : Expr} {ts ts₁ rest : List Token}
      (hRank : power.rank < Power.call.rank)
      (hIndex : Derives embed (.expr .lowest i) ts (.bracket .closeSquare :: ts₁))
      (hClimb : Derives embed (.climb power (.index n i) e) ts₁ rest) :
    Derives embed (.climb power (.var n) e) (.bracket .openSquare :: ts) rest

namespace Phrase

/-- The least number of tokens that a phrase takes. Climbing may take none. -/
def least : Phrase → Nat
  | .climb _ _ _ => 0
  | _ => 1

namespace Derives

variable {embed : String → Except ParseError Expr} {ph : Phrase} {ts rest : List Token}
  {power : Power} {e : Expr} {fn : Lambda}

/-- Every phrase apart from climbing takes a token. -/
theorem least_add_length_le (h : ph.Derives embed ts rest) :
    ph.least + rest.length ≤ ts.length := by
  induction h <;>
    simp only [least, List.length_cons, List.length_append, length_breaks] at * <;> omega

theorem length_le (h : ph.Derives embed ts rest) : rest.length ≤ ts.length := by
  have hLe := h.least_add_length_le
  omega

theorem expr_length_lt (h : (Phrase.expr power e).Derives embed ts rest) :
    rest.length < ts.length := by
  have hLe := h.least_add_length_le
  simp only [least] at hLe
  omega

/-- A climb ends in front of an operator that does not bind more tightly. -/
theorem climb_stops {left : Expr} (h : (Phrase.climb power left e).Derives embed ts rest)
    (hRank : headRank ts ≤ power.rank) : e = left ∧ rest = ts := by
  cases h with
  | stop => exact ⟨rfl, rfl⟩
  | binary hTight => exact absurd hTight (Nat.not_lt.2 hRank)
  | range hTight => exact absurd hTight (Nat.not_lt.2 hRank)
  | stepBehind hTight => exact absurd hTight (Nat.not_lt.2 hRank)
  | call hTight => exact absurd hTight (Nat.not_lt.2 hRank)
  | index hTight => exact absurd hTight (Nat.not_lt.2 hRank)

/-- Line breaks may be added in front of an enclosed expression. -/
theorem enclosed_breaks {close : Bracket} (h : (Phrase.enclosed close e).Derives embed ts rest)
    (m : Nat) : (Phrase.enclosed close e).Derives embed (breaks m ++ ts) rest := by
  cases h with
  | enclosed hExpr =>
      rw [← List.append_assoc, breaks_append]
      exact .enclosed hExpr

/-- A lambda starts with its brace. -/
theorem lambda_head (h : (Phrase.lambda fn).Derives embed ts rest) :
    ∃ ts', ts = .bracket .openCurly :: ts' := by
  cases h <;> exact ⟨_, rfl⟩

/-- An operand starts with a token that the grammar has an operand form for. -/
theorem operand_head (h : (Phrase.operand e).Derives embed ts rest) :
    ∃ t ts', ts = t :: ts' ∧ (Grammar.standard.operand t.kind).isSome = true := by
  cases h with
  | lambdaOperand hLambda =>
      obtain ⟨ts', rfl⟩ := hLambda.lambda_head
      exact ⟨_, ts', rfl, rfl⟩
  | _ => exact ⟨_, _, rfl, rfl⟩

/-- An expression starts with an operand. -/
theorem expr_head (h : (Phrase.expr power e).Derives embed ts rest) :
    ∃ t ts', ts = t :: ts' ∧ (Grammar.standard.operand t.kind).isSome = true := by
  cases h with
  | expr hLeft => exact hLeft.operand_head

/-- No expression starts with a token that the grammar has no operand form for. -/
theorem expr_head_ne {t : Token} (h : (Phrase.expr power e).Derives embed ts rest)
    (hNone : Grammar.standard.operand t.kind = none) : ts.head? ≠ some t := by
  obtain ⟨s, ts', rfl, hSome⟩ := h.expr_head
  intro hHead
  rw [Option.some.inj hHead, hNone] at hSome
  exact absurd hSome (by decide)

theorem expr_noBreak (h : (Phrase.expr power e).Derives embed ts rest) : NoBreak ts :=
  h.expr_head_ne rfl

/-- A branch starts with a brace or an expression, never with a line break. -/
theorem branch_noBreak (h : (Phrase.branch e).Derives embed ts rest) : NoBreak ts := by
  cases h with
  | branchBraced hInside => exact nofun
  | branchBare hHead hExpr => exact hExpr.expr_noBreak

end Derives

end Phrase

end ScriptLang
