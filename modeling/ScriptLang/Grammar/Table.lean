import ScriptLang.Token.Basic

/-!
# The grammar's tables

Statements, expressions and types are each read in one of a closed set of
forms. A `Grammar` says by the kind of the current token which form that is,
and how tightly a kind binds when it continues an expression.
`Grammar.standard` is the grammar of the language. The `with…` functions set
one entry of a table.
-/

namespace ScriptLang

/-- How tightly an operator binds, loosest first. -/
inductive Power
  | lowest | logical | relational | range | additive | multiplicative
  | unary | trailing | call
  deriving DecidableEq

/-- The place of a power in the order. -/
def Power.rank : Power → Nat
  | .lowest => 0
  | .logical => 1
  | .relational => 2
  | .range => 3
  | .additive => 4
  | .multiplicative => 5
  | .unary => 6
  | .trailing => 7
  | .call => 8

/-- The forms of a type. -/
inductive TypeForm
  | basic | collection | function
  /-- Whatever form the table gives. As an entry of the table it only leads back
  to itself, and nothing can be read by it. -/
  | any
  deriving DecidableEq

/-- The forms that start an expression. -/
inductive OperandForm
  /-- An integer, a truth value, a name or a text. -/
  | primary
  /-- A `!` before its operand. -/
  | negation
  /-- A `++` or `--` before a name. -/
  | step
  | grouping
  | lambda
  | conditional
  /-- A collection given by its size and an initializer. -/
  | generator
  /-- A collection given element by element. -/
  | literal
  deriving DecidableEq

/-- The forms that continue an expression. -/
inductive OperatorForm
  | binary
  | range
  /-- A `++` or `--` behind a name. -/
  | step
  | call
  | index
  deriving DecidableEq

/-- The forms of a statement. -/
inductive StmtForm
  | declaration
  /-- A statement that starts with a name. -/
  | named
  /-- An expression whose value is not used. -/
  | expression
  | conditional
  | forLoop
  | whileLoop
  | control
  | function
  | returns
  | output
  | block
  /-- Whatever form the table gives. As an entry of the table it only leads back
  to itself, and nothing can be read by it. -/
  | any
  deriving DecidableEq

/-- Which form each kind of token leads to. -/
structure Grammar where
  statement : Kind → Option StmtForm
  operand : Kind → Option OperandForm
  operator : Kind → Option OperatorForm
  power : Kind → Option Power
  type : Kind → Option TypeForm

namespace Grammar

/-- How tightly a kind binds behind an expression; loosest where the table
says nothing. -/
def powerOf (g : Grammar) (kind : Kind) : Power := (g.power kind).getD .lowest

/-- The grammar of the language. -/
def standard : Grammar where
  statement
    | .keyword (.declaration _) => some .declaration
    | .name => some .named
    | .unaryMark (.step _) => some .expression
    | .keyword .ifWord => some .conditional
    | .keyword .forWord => some .forLoop
    | .keyword .whileWord => some .whileLoop
    | .keyword (.control _) => some .control
    | .keyword .funWord => some .function
    | .keyword .returnWord => some .returns
    | .keyword (.output _) => some .output
    | .bracket .openCurly => some .block
    | _ => none
  operand
    | .int | .name | .text | .keyword (.truth _) => some .primary
    | .unaryMark .not => some .negation
    | .unaryMark (.step _) => some .step
    | .bracket .openParen => some .grouping
    | .bracket .openCurly => some .lambda
    | .keyword .ifWord => some .conditional
    | .typeWord (.collection _) => some .generator
    | .keyword (.literal _) => some .literal
    | _ => none
  operator
    | .infixMark (.binary _) => some .binary
    | .symbol .dotDot => some .range
    | .unaryMark (.step _) => some .step
    | .bracket .openParen => some .call
    | .bracket .openSquare => some .index
    | _ => none
  power
    | .infixMark (.binary (.logical _)) => some .logical
    | .infixMark (.binary (.comparison _)) => some .relational
    | .symbol .dotDot => some .range
    | .infixMark (.binary (.arithmetic .plus)) => some .additive
    | .infixMark (.binary (.arithmetic .minus)) => some .additive
    | .infixMark (.binary (.arithmetic .multiply)) => some .multiplicative
    | .infixMark (.binary (.arithmetic .divide)) => some .multiplicative
    | .infixMark (.binary (.arithmetic .modulo)) => some .multiplicative
    | .unaryMark (.step _) => some .trailing
    | .bracket .openParen => some .call
    | .bracket .openSquare => some .call
    | _ => none
  type
    | .typeWord (.basic _) => some .basic
    | .typeWord (.collection _) => some .collection
    | .bracket .openParen => some .function
    | _ => none

def withStatement (g : Grammar) (kind : Kind) (form : StmtForm) : Grammar :=
  { g with statement := fun k => if k = kind then some form else g.statement k }

def withOperand (g : Grammar) (kind : Kind) (form : OperandForm) : Grammar :=
  { g with operand := fun k => if k = kind then some form else g.operand k }

/-- Sets the form and the power with which a kind continues an expression. -/
def withOperator (g : Grammar) (kind : Kind) (power : Power) (form : OperatorForm) : Grammar :=
  { g with
    operator := fun k => if k = kind then some form else g.operator k
    power := fun k => if k = kind then some power else g.power k }

def withType (g : Grammar) (kind : Kind) (form : TypeForm) : Grammar :=
  { g with type := fun k => if k = kind then some form else g.type k }

end Grammar

end ScriptLang
