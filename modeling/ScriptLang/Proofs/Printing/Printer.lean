import ScriptLang.Proofs.Reading.StmtGrammar

/-!
# The canonical printer

Every expression and every statement has canonical tokens. Operands of binary
operators, of ranges and of `!`, and the branches of a conditional stand in
parentheses, lambdas always show their arrow, the initializer of a collection
stands inside its parentheses, bodies are always blocks, and one line break
stands between statements. Splices are not printed.

A nested list prints by a function of its own beside `tokens`. For a block,
`Stmt.blockTokens_eq` says what that function prints in terms of the sequence.
-/

namespace ScriptLang

/-- Tokens in parentheses. -/
def parens (ts : List Token) : List Token :=
  .bracket .openParen :: (ts ++ [.bracket .closeParen])

/-- The tokens of a lambda around those of its body. -/
def lambdaTokens (parameters : List (String × Option Ty)) (body : List Token) : List Token :=
  .bracket .openCurly :: (parameterListTokens parameters ++ (body ++ [.bracket .closeCurly]))

mutual

/-- The canonical tokens of an expression. -/
def Expr.tokens : Expr → List Token
  | .int value => [.int value]
  | .boolean value => [.keyword (.truth value)]
  | .text remainder _ => [.text remainder]
  | .var name => [.name name]
  | .binary left op right => parens left.tokens ++ .infixMark (.binary op) :: parens right.tokens
  | .not operand => .unaryMark .not :: parens operand.tokens
  | .step name op true => [.unaryMark (.step op), .name name]
  | .step name op false => [.name name, .unaryMark (.step op)]
  | .ifThen condition thenBranch =>
    .keyword .ifWord :: (parens condition.tokens ++ parens thenBranch.tokens)
  | .ifElse condition thenBranch elseBranch =>
    .keyword .ifWord :: (parens condition.tokens ++ (parens thenBranch.tokens ++
      .keyword .elseWord :: parens elseBranch.tokens))
  | .range first last => parens first.tokens ++ .symbol .dotDot :: parens last.tokens
  | .generate kind size parameters body =>
    .typeWord (.collection kind) ::
      parens (size.tokens ++ .symbol .comma :: lambdaTokens parameters body.tokens)
  | .literal kind items => .keyword (.literal kind) :: parens (Expr.listTokens items)
  | .lambda parameters body => lambdaTokens parameters body.tokens
  | .call callee arguments => .name callee :: parens (Expr.listTokens arguments)
  | .index name inside =>
    .name name :: .bracket .openSquare :: (inside.tokens ++ [.bracket .closeSquare])

/-- The canonical tokens of expressions with commas between them. -/
def Expr.listTokens : List Expr → List Token
  | [] => []
  | e :: es => e.tokens ++ Expr.moreTokens es

/-- The canonical tokens of expressions, each behind a comma. -/
def Expr.moreTokens : List Expr → List Token
  | [] => []
  | e :: es => .symbol .comma :: e.tokens ++ Expr.moreTokens es

end

mutual

/-- The canonical tokens of a statement. -/
def Stmt.tokens : Stmt → List Token
  | .declare name ty readOnly =>
    .keyword (.declaration readOnly) :: .name name :: annotationTokens ty
  | .assign name value ty true readOnly =>
    .keyword (.declaration readOnly) :: .name name ::
      (annotationTokens ty ++ .infixMark .assign :: value.tokens)
  | .assign name value _ false _ => .name name :: .infixMark .assign :: value.tokens
  | .compound name op value => .name name :: .infixMark (.compound op) :: value.tokens
  | .ifThen condition thenBlock =>
    .keyword .ifWord :: (parens condition.tokens ++ Stmt.blockTokens thenBlock)
  | .ifElse condition thenBlock elseBlock =>
    .keyword .ifWord :: (parens condition.tokens ++ (Stmt.blockTokens thenBlock ++
      .keyword .elseWord :: Stmt.blockTokens elseBlock))
  | .forIn name source body =>
    .keyword .forWord ::
      (parens (.name name :: .keyword .inWord :: source.tokens) ++ Stmt.blockTokens body)
  | .whileLoop condition body =>
    .keyword .whileWord :: (parens condition.tokens ++ Stmt.blockTokens body)
  | .block body => Stmt.blockTokens body
  | .control word => [.keyword (.control word)]
  | .function name parameters result body =>
    .keyword .funWord :: .name name :: (parens (listed functionParameterTokens parameters) ++
      .symbol .colon :: (result.tokens ++ Stmt.blockTokens body))
  | .returns value => .keyword .returnWord :: value.tokens
  | .call callee arguments => (Expr.call callee arguments).tokens
  | .step name op before => (Expr.step name op before).tokens
  | .output form value => .keyword (.output form) :: parens value.tokens

/-- The canonical tokens of statements in braces. -/
def Stmt.blockTokens : List Stmt → List Token
  | [] => [.bracket .openCurly, .bracket .closeCurly]
  | s :: ss =>
    .bracket .openCurly :: (s.tokens ++ (Stmt.moreTokens ss ++ [.bracket .closeCurly]))

/-- The canonical tokens of statements, each behind a line break. -/
def Stmt.moreTokens : List Stmt → List Token
  | [] => []
  | s :: ss => .symbol .lineBreak :: (s.tokens ++ Stmt.moreTokens ss)

end

/-- The canonical tokens of statements with a line break between them. -/
def sequenceTokens : List Stmt → List Token
  | [] => []
  | s :: ss => s.tokens ++ Stmt.moreTokens ss

theorem Stmt.blockTokens_eq (ss : List Stmt) :
    blockTokens ss = .bracket .openCurly :: (sequenceTokens ss ++ [.bracket .closeCurly]) := by
  cases ss with
  | nil => rfl
  | cons s ss => rw [blockTokens, sequenceTokens, List.append_assoc]

theorem sequenceTokens_cons_cons (s s' : Stmt) (ss : List Stmt) :
    sequenceTokens (s :: s' :: ss) =
      s.tokens ++ .symbol .lineBreak :: sequenceTokens (s' :: ss) := by
  rw [sequenceTokens, Stmt.moreTokens, sequenceTokens]

end ScriptLang
