import ScriptLang.Text.Printable

/-!
# Quoted texts

The form in which a diagnostic quotes a piece of text: between double quotes,
with the quote and the backslash escaped, five control characters by their
short escapes, and every other character that is not printable by its code point
in lower-case hexadecimal, `\u` and the digits in braces. An apostrophe stays as
it is.
-/

namespace ScriptLang.Text

/-- The escape of a character by its code point. -/
def codePointEscape (c : Char) : List Char :=
  "\\u\x7b".toList ++ Nat.toDigits 16 c.toNat ++ ['\x7d']

/-- One character as it stands inside a quoted text. -/
def quotedChar (c : Char) : List Char :=
  if c = '\x22' then ['\\', '\x22']
  else if c = '\\' then ['\\', '\\']
  else if c = '\n' then ['\\', 'n']
  else if c = '\r' then ['\\', 'r']
  else if c = '\t' then ['\\', 't']
  else if c = '\x00' then ['\\', '0']
  else if isPrintable c then [c]
  else codePointEscape c

/-- A text between double quotes, escaped character by character. -/
def quoted (text : String) : String :=
  String.ofList ('\x22' :: text.toList.flatMap quotedChar ++ ['\x22'])

end ScriptLang.Text
