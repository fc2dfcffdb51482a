import ScriptLang.Text.Word
import ScriptLang.Token.Basic

/-!
# Lexemes

The table of rules by which source text falls into lexemes. A rule pairs a
pattern, which recognises a lexeme at the head of a text, with an action, which
says what the lexeme stands for. The rules are tried in order and the first
that matches is taken, so a longer mark stands before the marks it starts with:
`//` before `/=` before `/`.
-/

namespace ScriptLang

/-- What a rule recognises at the head of a text. -/
inductive Pattern
  | word
  | digits
  /-- A run of spaces, tabs and carriage returns. -/
  | blanks
  /-- A text between double quotes; line breaks may stand inside. -/
  | quoted
  /-- Two slashes and the rest of the line. -/
  | comment
  | fixed (text : List Char)
  /-- A `>` with the `=` that follows it, if one does. -/
  | greater
  deriving DecidableEq

/-- A space, a tab or a carriage return. -/
def isBlank (c : Char) : Bool := c == ' ' || c == '\t' || c == '\r'

/-- The lexeme that a pattern recognises at the head of a text. -/
def Pattern.lexeme? : Pattern → List Char → Option (List Char)
  | .word, c :: rest =>
    if Text.isWordStart c then some (c :: rest.takeWhile Text.isWordChar) else none
  | .digits, c :: rest =>
    if c.isDigit then some (c :: rest.takeWhile Char.isDigit) else none
  | .blanks, c :: rest =>
    if isBlank c then some (c :: rest.takeWhile isBlank) else none
  | .quoted, '\x22' :: rest =>
    if '\x22' ∈ rest then some ('\x22' :: rest.takeWhile (· != '\x22') ++ ['\x22'])
    else none
  | .comment, '/' :: '/' :: rest => some ('/' :: '/' :: rest.takeWhile (· != '\n'))
  | .fixed text, source => if text.isPrefixOf source then some text else none
  | .greater, '>' :: '=' :: _ => some ['>', '=']
  | .greater, '>' :: _ => some ['>']
  | _, _ => none

/-- What a recognised lexeme stands for. -/
inductive Action
  /-- Nothing: the lexeme only separates others. -/
  | skip
  /-- A reserved token or a name. -/
  | word
  | number
  | text
  /-- One token, and a move over the length of a text that is written here again
  beside the pattern (`rules_literal`). -/
  | emit (token : Token) (literal : String)
  /-- A bracket directly after the name of a collection, else a comparison. -/
  | openAngle
  /-- A bracket while one is open, else a comparison. -/
  | closeAngle
  deriving DecidableEq

structure Rule where
  pattern : Pattern
  action : Action
  deriving DecidableEq

/-- The rule that reads one spelling as one token. -/
def Rule.mark (spelling : String) (token : Token) (literal : String) : Rule :=
  ⟨.fixed spelling.toList, .emit token literal⟩

/-- The rules of the language, in the order in which they are tried. -/
def rules : List Rule :=
  [ ⟨.word, .word⟩,
    ⟨.digits, .number⟩,
    .mark "\n" (.symbol .lineBreak) "\n",
    ⟨.blanks, .skip⟩,
    ⟨.quoted, .text⟩,
    ⟨.comment, .skip⟩,
    .mark ".." (.symbol .dotDot) "..",
    .mark "->" (.symbol .arrow) "->",
    .mark "++" (.unaryMark (.step .increase)) "++",
    .mark "--" (.unaryMark (.step .decrease)) "--",
    .mark "+=" (.infixMark (.compound .plus)) "+=",
    .mark "-=" (.infixMark (.compound .minus)) "-=",
    .mark "*=" (.infixMark (.compound .multiply)) "*=",
    .mark "/=" (.infixMark (.compound .divide)) "/=",
    .mark "==" (.infixMark (.binary (.comparison .equal))) "==",
    .mark "!=" (.infixMark (.binary (.comparison .notEqual))) "!=",
    .mark "<=" (.infixMark (.binary (.comparison .lessEqual))) "<=",
    ⟨.greater, .closeAngle⟩,
    ⟨.fixed "<".toList, .openAngle⟩,
    .mark "&&" (.infixMark (.binary (.logical .and))) "&&",
    .mark "||" (.infixMark (.binary (.logical .or))) "||",
    .mark "=" (.infixMark .assign) "=",
    .mark "!" (.unaryMark .not) "!",
    .mark "+" (.infixMark (.binary (.arithmetic .plus))) "+",
    .mark "-" (.infixMark (.binary (.arithmetic .minus))) "-",
    .mark "*" (.infixMark (.binary (.arithmetic .multiply))) "*",
    .mark "/" (.infixMark (.binary (.arithmetic .divide))) "/",
    .mark "%" (.infixMark (.binary (.arithmetic .modulo))) "%",
    .mark ":" (.symbol .colon) ":",
    .mark ";" (.symbol .semicolon) ";",
    .mark "," (.symbol .comma) ",",
    .mark "(" (.bracket .openParen) "(",
    .mark ")" (.bracket .closeParen) ")",
    .mark "\x7b" (.bracket .openCurly) "\x7b",
    .mark "\x7d" (.bracket .closeCurly) "\x7d",
    .mark "[" (.bracket .openSquare) "[",
    .mark "]" (.bracket .closeSquare) "]" ]

/-- Whether a rule that emits a token moves over the text of its own pattern. -/
def Rule.movesOverMark : Rule → Bool
  | ⟨.fixed text, .emit _ literal⟩ => literal.toList == text
  | ⟨_, .emit _ _⟩ => false
  | _ => true

/-- The two texts of each mark agree. -/
theorem rules_literal : ∀ rule ∈ rules, rule.movesOverMark = true := by decide

/-- The first rule that matches at the head of a text, with its lexeme. -/
def firstLexeme? (source : List Char) : Option (Action × List Char) :=
  rules.findSome? fun rule => (rule.pattern.lexeme? source).map (rule.action, ·)

end ScriptLang
