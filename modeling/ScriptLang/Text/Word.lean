/-!
# Words

The character classes of names. A word starts with a letter or an underscore
and goes on with letters, digits and underscores; letters and digits are the
ASCII ones, so no other alphabet can form a name. Both the scanner and the
splice sites of a string read names by these two classes.
-/

namespace ScriptLang.Text

/-- A character that may start a word: an ASCII letter or `_`. -/
def isWordStart (c : Char) : Bool := c.isAlpha || c == '_'

/-- A character that may continue a word: an ASCII letter, a digit or `_`. -/
def isWordChar (c : Char) : Bool := c.isAlphanum || c == '_'

/-- A word: a start character and any number of word characters. -/
def isWord : List Char → Bool
  | [] => false
  | c :: rest => isWordStart c && rest.all isWordChar

end ScriptLang.Text
