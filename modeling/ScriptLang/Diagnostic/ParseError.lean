import ScriptLang.Text.Quoted

/-!
# Errors of scanning and parsing

A fault is a cause; a `ParseError` is a fault with the place where it was
found. The place is a byte offset for faults of the scanner and a token index
for faults of the grammar. Each fault has a name, a message and, apart from
two, a tip for the author of the text.
-/

namespace ScriptLang

/-- What went wrong while a text was read. -/
inductive ParseFault
  /-- No lexeme starts with this character. -/
  | unrecognised (token : String)
  /-- The digits stand for a number above the integer limit. -/
  | number (token : String)
  /-- There was nothing to parse. -/
  | emptyInput
  | unexpected (token : String)
  | unexpectedDetailed (token message : String)
  /-- The tokens ended too early. -/
  | unexpectedEnd (expected : String)
  /-- A token was left over after a complete parse. -/
  | trailing (token : String)
  /-- Two statements stand side by side. -/
  | missingSeparator (token : String)
  /-- A splice in a text was opened and never closed. -/
  | unterminatedTemplate (literal : String)
  /-- The source of a splice is not an expression. -/
  | invalidTemplate (template message : String)
  deriving DecidableEq

namespace ParseFault

def name : ParseFault → String
  | .unrecognised _ => "UnrecognisedToken"
  | .number _ => "NumberParseError"
  | .emptyInput => "EmptyInput"
  | .unexpected _ => "UnexpectedToken"
  | .unexpectedDetailed _ _ => "UnexpectedTokenDetailed"
  | .unexpectedEnd _ => "UnexpectedEnd"
  | .trailing _ => "TrailingTokens"
  | .missingSeparator _ => "MissingSeparator"
  | .unterminatedTemplate _ => "UnterminatedTemplate"
  | .invalidTemplate _ _ => "InvalidTemplate"

/-- The message of a fault. Tokens and literals are quoted; what was expected
and the message of a fault inside a splice are inserted as they are. -/
def message : ParseFault → String
  | .unrecognised token => "unrecognised token: " ++ Text.quoted token
  | .number token => "error parsing number: " ++ Text.quoted token
  | .emptyInput => "empty input"
  | .unexpected token => "unexpected token: " ++ Text.quoted token
  | .unexpectedDetailed token message =>
    "unexpected token (" ++ Text.quoted message ++ "): " ++ Text.quoted token
  | .unexpectedEnd expected => "unexpected end of input, expected " ++ expected
  | .trailing token => "unexpected trailing token: " ++ Text.quoted token
  | .missingSeparator token => "missing separator before " ++ Text.quoted token
  | .unterminatedTemplate literal => "unterminated string template: " ++ Text.quoted literal
  | .invalidTemplate template message =>
    "invalid string template " ++ Text.quoted template ++ ": " ++ message

/-- Advice on a fault. Nothing in it is quoted or escaped. -/
def tip? : ParseFault → Option String
  | .unrecognised _ => none
  | .number token =>
    some ("Invalid number: `" ++ token ++ "`, is it above the integer limit?")
  | .emptyInput => none
  | .unexpected token => some ("Unexpected token: `" ++ token ++ "`")
  | .unexpectedDetailed token message =>
    some ("Unexpected token: `" ++ token ++ "`, " ++ message)
  | .unexpectedEnd expected => some ("Input ended while expecting " ++ expected)
  | .trailing token =>
    some ("Unexpected `" ++ token ++ "` after a complete parse, did you miss an operator?")
  | .missingSeparator token =>
    some ("Unexpected token: `" ++ token ++ "`, did you miss a newline or semicolon?")
  | .unterminatedTemplate _ => some "Close the `$\x7b` interpolation with `\x7d`"
  | .invalidTemplate template message =>
    some ("Interpolation `" ++ template ++ "` is not an expression: " ++ message)

end ParseFault

/-- A fault and the place where it was found. -/
structure ParseError where
  fault : ParseFault
  position : Nat
  deriving DecidableEq

/-- The full text of an error: the message of its fault, then its place. -/
def ParseError.message (e : ParseError) : String :=
  e.fault.message ++ " at " ++ toString e.position

end ScriptLang
