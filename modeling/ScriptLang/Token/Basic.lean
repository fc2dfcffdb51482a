import ScriptLang.Syntax.Operator
import ScriptLang.Syntax.Ty

/-!
# Tokens

The units that the grammar reads. A token is a keyword, a mark from one of
four closed sets (symbols, brackets, infix operators, unary operators), a type
word, or one of three tokens with a payload: an integer, a name, a text.

A *kind* is a token without its payload. The grammar's tables are keyed by
kinds. `Token.spelling` is a token as it is shown to a reader; `Kind.label`
names a kind in diagnostics.

`<` and `>` are brackets only around the element type of a collection;
everywhere else they are comparisons.
-/

namespace ScriptLang

/-- The reserved words that are not type words. -/
inductive Keyword
  | forWord | inWord | whileWord | ifWord | elseWord | returnWord | funWord
  | control (control : LoopControl)
  /-- The word `val` when `readOnly`, otherwise `var`. -/
  | declaration (readOnly : Bool)
  | output (form : Output)
  /-- The words `true` and `false`. -/
  | truth (value : Bool)
  /-- The words `arrayOf` and `mutableListOf`. -/
  | literal (kind : Collection)
  deriving DecidableEq

inductive Symbol
  | dotDot | lineBreak | semicolon | colon | comma | arrow
  deriving DecidableEq

inductive Bracket
  | openParen | closeParen | openCurly | closeCurly
  | openAngle | closeAngle | openSquare | closeSquare
  deriving DecidableEq

/-- The marks that stand between two operands. -/
inductive InfixMark
  | binary (op : BinaryOp)
  | assign
  | compound (op : CompoundOp)
  deriving DecidableEq

/-- The marks that stand beside one operand. -/
inductive UnaryMark
  | not
  | step (op : StepOp)
  deriving DecidableEq

/-- The reserved words that name types. -/
inductive TypeWord
  | basic (kind : Basic)
  | collection (kind : Collection)
  deriving DecidableEq

inductive Token
  | keyword (word : Keyword)
  | symbol (mark : Symbol)
  | bracket (mark : Bracket)
  | infixMark (mark : InfixMark)
  | unaryMark (mark : UnaryMark)
  | typeWord (word : TypeWord)
  | int (value : Int)
  | name (name : String)
  /-- The contents of a string literal, its escapes resolved. -/
  | text (text : String)
  deriving DecidableEq

/-- A token with its payload left out. -/
inductive Kind
  | keyword (word : Keyword)
  | symbol (mark : Symbol)
  | bracket (mark : Bracket)
  | infixMark (mark : InfixMark)
  | unaryMark (mark : UnaryMark)
  | typeWord (word : TypeWord)
  | int | name | text
  deriving DecidableEq

namespace Token

def kind : Token → Kind
  | .keyword word => .keyword word
  | .symbol mark => .symbol mark
  | .bracket mark => .bracket mark
  | .infixMark mark => .infixMark mark
  | .unaryMark mark => .unaryMark mark
  | .typeWord word => .typeWord word
  | .int _ => .int
  | .name _ => .name
  | .text _ => .text

/-- Line breaks and semicolons separate statements. -/
def isSeparator : Token → Bool
  | .symbol .lineBreak | .symbol .semicolon => true
  | _ => false

end Token

/-! ## Spelling -/

def Keyword.spelling : Keyword → String
  | .forWord => "for"
  | .inWord => "in"
  | .whileWord => "while"
  | .ifWord => "if"
  | .elseWord => "else"
  | .returnWord => "return"
  | .funWord => "fun"
  | .control c => c.spelling
  | .declaration true => "val"
  | .declaration false => "var"
  | .output form => form.spelling
  | .truth true => "true"
  | .truth false => "false"
  | .literal kind => kind.literalSpelling

/-- A symbol as it is shown. A line break is shown as a backslash and an `n`. -/
def Symbol.spelling : Symbol → String
  | .dotDot => ".."
  | .lineBreak => "\\n"
  | .semicolon => ";"
  | .colon => ":"
  | .comma => ","
  | .arrow => "->"

def Bracket.spelling : Bracket → String
  | .openParen => "("
  | .closeParen => ")"
  | .openCurly => "\x7b"
  | .closeCurly => "\x7d"
  | .openAngle => "<"
  | .closeAngle => ">"
  | .openSquare => "["
  | .closeSquare => "]"

def InfixMark.spelling : InfixMark → String
  | .binary op => op.spelling
  | .assign => "="
  | .compound op => op.spelling

def UnaryMark.spelling : UnaryMark → String
  | .not => "!"
  | .step op => op.spelling

def TypeWord.spelling : TypeWord → String
  | .basic kind => kind.spelling
  | .collection kind => kind.spelling

/-- A token as it is shown: its source text, except that a line break is shown
as an escape and that the contents of a text stand between quotes unescaped. -/
def Token.spelling : Token → String
  | .keyword word => word.spelling
  | .symbol mark => mark.spelling
  | .bracket mark => mark.spelling
  | .infixMark mark => mark.spelling
  | .unaryMark mark => mark.spelling
  | .typeWord word => word.spelling
  | .int value => toString value
  | .name n => n
  | .text t => "\x22" ++ t ++ "\x22"

end ScriptLang
