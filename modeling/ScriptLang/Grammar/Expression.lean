import ScriptLang.Grammar.Template
import ScriptLang.Grammar.TypeAnnotation
import ScriptLang.Token.Scanner

/-!
# Reading expressions

An expression is an operand, read in the form that the grammar gives for its
first token, and then every operator that binds more tightly than the level
asked for, each read in its own form with the expression so far on its left. A
binary operator asks for its right operand at its own level, so operators of
one level group to the left.

Each form is a parser over a parser for the expressions inside;
`Grammar.exprAt` ties the knot by the number of tokens that may still be read.
The source of a splice is read by `embedded`, whose recursion is bounded by the
length of that source: a splice is always shorter than the text around it.
-/

namespace ScriptLang

/-! ## Operands -/

namespace OperandForm

/-- Reads an integer, a truth value, a name or a text. -/
def parsePrimary (embed : String → Except ParseError Expr) : Parser Expr := do
  let position ← Parser.position
  match ← Parser.advance with
  | .int value => return .int value
  | .name name => return .var name
  | .text contents => Parser.ofExcept (Template.parse embed contents position)
  | .keyword (.truth value) => return .boolean value
  | token => throw ⟨.unexpected token.spelling, position⟩

/-- Reads `!operand`. -/
def parseNegation (expr : Power → Parser Expr) : Parser Expr := do
  let _ ← Parser.expect (.unaryMark .not)
  let operand ← expr .unary
  return .not operand

/-- Reads `++a` or `--a`. -/
def parseStep : Parser Expr := do
  let position ← Parser.position
  match ← Parser.advance with
  | .unaryMark (.step op) =>
    let name ← Parser.identifier
    return .step name op true
  | token => throw ⟨.unexpected token.spelling, position⟩

/-- Reads an expression at the loosest level up to and with a closing token;
line breaks on either side of the expression are skipped. -/
def parseEnclosed (expr : Power → Parser Expr) (close : Bracket) : Parser Expr := do
  Parser.skipLineBreaks
  let e ← expr .lowest
  Parser.skipLineBreaks
  let _ ← Parser.expect (.bracket close)
  return e

/-- Reads `(expression)`. -/
def parseGrouping (expr : Power → Parser Expr) : Parser Expr := do
  let _ ← Parser.expect (.bracket .openParen)
  parseEnclosed expr .closeParen

/-- Reads `: T`, if a colon follows. -/
def parseAnnotation? (type : Parser Ty) : Parser (Option Ty) := do
  if ← Parser.isAt (.symbol .colon) then
    let _ ← Parser.advance
    let ty ← type
    return some ty
  else return none

/-- Reads parameters, each a name with an optional type, with commas between
them, up to and with `->`. -/
def parseParameters (type : Parser Ty) : (bound : Nat) → Parser (List (String × Option Ty))
  | 0 => Parser.unexpected "expected an identifier"
  | bound + 1 => do
    let name ← Parser.identifier
    let ty ← parseAnnotation? type
    if ← Parser.isAt (.symbol .comma) then
      let _ ← Parser.advance
      let parameters ← parseParameters type bound
      return (name, ty) :: parameters
    else
      let _ ← Parser.expect (.symbol .arrow)
      return [(name, ty)]

/-- Reads the parameter list of a lambda with its arrow, which may stand alone. -/
def parseParameterList (type : Parser Ty) : Parser (List (String × Option Ty)) := do
  if ← Parser.isAt (.symbol .arrow) then
    let _ ← Parser.advance
    return []
  else fun c => parseParameters type c.rest.length c

/-- Reads a lambda: braces around an optional parameter list and a body. Where
what follows the brace is no parameter list, it is the body. -/
def parseLambda (expr : Power → Parser Expr) (type : Parser Ty) : Parser Lambda := do
  let _ ← Parser.expect (.bracket .openCurly)
  Parser.skipLineBreaks
  let parameters ← Parser.orRewind (parseParameterList type) []
  let body ← parseEnclosed expr .closeCurly
  return ⟨parameters, body⟩

/-- Reads a branch of a conditional: an expression, with or without braces. -/
def parseBranch (expr : Power → Parser Expr) : Parser Expr := do
  if ← Parser.isAt (.bracket .openCurly) then
    let _ ← Parser.advance
    parseEnclosed expr .closeCurly
  else expr .lowest

/-- Reads the condition of a conditional or a loop, in parentheses. -/
def parseCondition (expr : Power → Parser Expr) : Parser Expr := do
  let _ ← Parser.expect (.bracket .openParen)
  let condition ← expr .lowest
  let _ ← Parser.expect (.bracket .closeParen)
  return condition

/-- Reads `if (condition) branch` with an optional `else branch`. -/
def parseConditional (expr : Power → Parser Expr) : Parser Expr := do
  let _ ← Parser.expect (.keyword .ifWord)
  let condition ← parseCondition expr
  Parser.skipLineBreaks
  let thenBranch ← parseBranch expr
  let elseBranch? ← Parser.elseBranch? do
    Parser.skipLineBreaks
    parseBranch expr
  match elseBranch? with
  | some elseBranch => return .ifElse condition thenBranch elseBranch
  | none => return .ifThen condition thenBranch

/-- Reads the initializer of a collection, inside the parentheses behind a
comma or outside behind them. -/
def parseInitializer (expr : Power → Parser Expr) (type : Parser Ty) : Parser Lambda := do
  if ← Parser.isAt (.symbol .comma) then
    let _ ← Parser.advance
    Parser.skipLineBreaks
    let init ← parseLambda expr type
    let _ ← Parser.expect (.bracket .closeParen)
    return init
  else
    let _ ← Parser.expect (.bracket .closeParen)
    parseLambda expr type

/-- Reads `Array(size, lambda)` or `Array(size) lambda`, likewise for the other
collection. -/
def parseGenerator (expr : Power → Parser Expr) (type : Parser Ty) : Parser Expr := do
  let constructor ← Parser.advance
  let _ ← Parser.expect (.bracket .openParen)
  let size ← expr .lowest
  let init ← parseInitializer expr type
  match constructor with
  | .typeWord (.collection .mutableList) =>
    return .generate .mutableList size init.parameters init.body
  | _ => return .generate .array size init.parameters init.body

/-- Reads the arguments of a call and the closing parenthesis. -/
def parseArguments (expr : Power → Parser Expr) : Parser (List Expr) :=
  Parser.items (expr .lowest) Parser.skipLineBreaks

/-- Reads `arrayOf(...)` or `mutableListOf(...)`. -/
def parseLiteral (expr : Power → Parser Expr) : Parser Expr := do
  let constructor ← Parser.advance
  let _ ← Parser.expect (.bracket .openParen)
  let items ← parseArguments expr
  match constructor with
  | .keyword (.literal .mutableList) => return .literal .mutableList items
  | _ => return .literal .array items

/-- Reads an operand in a given form. -/
def parse (embed : String → Except ParseError Expr) (expr : Power → Parser Expr)
    (type : Parser Ty) : OperandForm → Parser Expr
  | .primary => parsePrimary embed
  | .negation => parseNegation expr
  | .step => parseStep
  | .grouping => parseGrouping expr
  | .lambda => do
    let fn ← parseLambda expr type
    return fn.toExpr
  | .conditional => parseConditional expr
  | .generator => parseGenerator expr type
  | .literal => parseLiteral expr

end OperandForm

/-! ## Operators -/

namespace OperatorForm

/-- Reads an operator and its right operand, which may start on a later line. -/
def parseBinary (expr : Power → Parser Expr) (left : Expr) (power : Power) : Parser Expr := do
  let position ← Parser.position
  let operator ← Parser.advance
  Parser.skipLineBreaks
  let right ← expr power
  match operator with
  | .infixMark (.binary op) => return .binary left op right
  | token => throw ⟨.unexpectedDetailed token.spelling "not a binary operator", position⟩

/-- Reads `..last`. -/
def parseRange (expr : Power → Parser Expr) (left : Expr) (power : Power) : Parser Expr := do
  let _ ← Parser.expect (.symbol .dotDot)
  let right ← expr power
  return .range left right

/-- Reads `++` or `--` behind a variable. -/
def parseStep (left : Expr) : Parser Expr := do
  let position ← Parser.position
  let operator ← Parser.advance
  match left, operator with
  | .var name, .unaryMark (.step op) => return .step name op false
  | _, token =>
    throw ⟨.unexpectedDetailed token.spelling
      "only variables can be incremented or decremented", position⟩

/-- Reads the arguments of a call of a name. -/
def parseCall (expr : Power → Parser Expr) (left : Expr) : Parser Expr :=
  match left with
  | .var callee => do
    let _ ← Parser.expect (.bracket .openParen)
    let arguments ← OperandForm.parseArguments expr
    return .call callee arguments
  | _ => Parser.unexpected "only named functions can be called"

/-- Reads the index into a variable. -/
def parseIndex (expr : Power → Parser Expr) (left : Expr) : Parser Expr :=
  match left with
  | .var name => do
    let _ ← Parser.expect (.bracket .openSquare)
    let index ← expr .lowest
    let _ ← Parser.expect (.bracket .closeSquare)
    return .index name index
  | _ => Parser.unexpected "only variables can be indexed"

/-- Reads on from `left` in a given form, at the level of the operator. -/
def parse (expr : Power → Parser Expr) (left : Expr) (power : Power) :
    OperatorForm → Parser Expr
  | .binary => parseBinary expr left power
  | .range => parseRange expr left power
  | .step => parseStep left
  | .call => parseCall expr left
  | .index => parseIndex expr left

end OperatorForm

/-! ## Precedence -/

namespace Grammar

/-- Reads on from `left` with every operator that binds more tightly than
`power`. Every operator is at least one token, so at most `bound` follow. -/
def climb (g : Grammar) (expr : Power → Parser Expr) (power : Power) :
    (bound : Nat) → (left : Expr) → Parser Expr
  | 0, left => pure left
  | bound + 1, left => fun c =>
    match c.kind? with
    | none => .ok left c
    | some kind =>
      if (g.powerOf kind).rank ≤ power.rank then .ok left c
      else
        match g.operator kind with
        | none => Parser.unexpected "expected an operator" c
        | some form =>
          (do
            let left ← form.parse expr left (g.powerOf kind)
            g.climb expr power bound left : Parser Expr) c

/-- Reads an operand in the form that the grammar gives for its first token. -/
def parseOperand (g : Grammar) (embed : String → Except ParseError Expr)
    (expr : Power → Parser Expr) : Parser Expr := fun c =>
  match c.kind? with
  | none => Parser.unexpected "an expression" c
  | some kind =>
    match g.operand kind with
    | none => Parser.unexpected "expected the start of an expression" c
    | some form => form.parse embed expr g.parseType c

/-- Reads an expression of at most `bound` tokens at a level. -/
def exprAt (g : Grammar) (embed : String → Except ParseError Expr) :
    (bound : Nat) → Power → Parser Expr
  | 0, _ => Parser.unexpected "an expression"
  | bound + 1, power => do
    let left ← g.parseOperand embed (g.exprAt embed bound)
    fun c => g.climb (g.exprAt embed bound) power c.rest.length left c

end Grammar

/-- Reads all tokens as one expression with a given parser. -/
def wholeExpression (expr : Parser Expr) (tokens : List Token) : Except ParseError Expr :=
  if tokens.isEmpty then .error ⟨.emptyInput, 0⟩
  else
    Parser.parse (do
      let e ← expr
      Parser.expectEnd
      return e) tokens

/-- The expression in the source of a splice of at most `bound` characters. -/
def embeddedAt : (bound : Nat) → String → Except ParseError Expr
  | 0, _ => .error ⟨.emptyInput, 0⟩
  | bound + 1, source => do
    let tokens ← tokenize source
    wholeExpression (Grammar.standard.exprAt (embeddedAt bound) tokens.length .lowest) tokens

/-- The expression in the source of a splice, always in the standard grammar. -/
def embedded (source : String) : Except ParseError Expr := embeddedAt source.length source

/-- The string expression of a literal at a place among the tokens. -/
def parseTemplate (literal : String) (position : Nat) : Except ParseError Expr :=
  Template.parse embedded literal position

namespace Grammar

/-- Reads an expression at a level. -/
def parseExpr (g : Grammar) (power : Power) : Parser Expr := fun c =>
  g.exprAt embedded c.rest.length power c

/-- Reads an operand in a given form, whatever the current token. -/
def parseOperandAs (g : Grammar) (form : OperandForm) : Parser Expr :=
  form.parse embedded g.parseExpr g.parseType

/-- Reads on from `left` in a given form, whatever the current token. -/
def parseOperatorAs (g : Grammar) (form : OperatorForm) (left : Expr) (power : Power) :
    Parser Expr :=
  form.parse g.parseExpr left power

/-- Reads a lambda. -/
def parseLambda (g : Grammar) : Parser Lambda :=
  OperandForm.parseLambda g.parseExpr g.parseType

end Grammar

end ScriptLang
