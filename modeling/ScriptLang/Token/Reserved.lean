import ScriptLang.Token.Basic

/-!
# Reserved words

The words that never stand for a name, in a table of their own beside the
spellings of tokens. `Token.ofWord` reads a word as the reserved token under which
the table lists it, or as a name.
-/

namespace ScriptLang

/-- The reserved words with their tokens. -/
def reservedWords : List (String × Token) :=
  [ ("for", .keyword .forWord),
    ("in", .keyword .inWord),
    ("while", .keyword .whileWord),
    ("if", .keyword .ifWord),
    ("else", .keyword .elseWord),
    ("break", .keyword (.control .break)),
    ("continue", .keyword (.control .continue)),
    ("return", .keyword .returnWord),
    ("fun", .keyword .funWord),
    ("var", .keyword (.declaration false)),
    ("val", .keyword (.declaration true)),
    ("print", .keyword (.output .print)),
    ("println", .keyword (.output .println)),
    ("true", .keyword (.truth true)),
    ("false", .keyword (.truth false)),
    ("arrayOf", .keyword (.literal .array)),
    ("mutableListOf", .keyword (.literal .mutableList)),
    ("Int", .typeWord (.basic .int)),
    ("Boolean", .typeWord (.basic .boolean)),
    ("String", .typeWord (.basic .string)),
    ("Any", .typeWord (.basic .any)),
    ("Array", .typeWord (.collection .array)),
    ("MutableList", .typeWord (.collection .mutableList)) ]

/-- Each word is how its token is shown. -/
theorem reservedWords_spelling : ∀ entry ∈ reservedWords, entry.2.spelling = entry.1 := by decide

/-- The tokens spelled by reserved words. -/
def Token.reserved : List Token := reservedWords.map Prod.snd

/-- Whether a word is reserved. -/
def isReserved (word : String) : Bool := (reservedWords.lookup word).isSome

/-- The token that a word spells: a reserved token, or the word as a name. -/
def Token.ofWord (word : String) : Token := (reservedWords.lookup word).getD (.name word)

end ScriptLang
