import ScriptLang.Diagnostic.ParseError
import ScriptLang.Token.Label

/-!
# Cursors and parsers

A `Cursor` is a place in a sequence of tokens: its index and the tokens from
there on. A `Parser` reads from a cursor and either succeeds with a value or
fails with an error; in both cases it leaves the cursor where it stopped
reading. The few parsers that look ahead and may think better of it say so, and
put the cursor back themselves.
-/

namespace ScriptLang

/-- A place in a sequence of tokens. -/
structure Cursor where
  /-- The index of the first token of `rest` in the sequence. -/
  position : Nat
  rest : List Token
  deriving DecidableEq

namespace Cursor

/-- The cursor at an index of a sequence; beyond the end nothing is left. -/
def ofTokens (tokens : List Token) (position : Nat) : Cursor :=
  ⟨position, tokens.drop position⟩

/-- The cursor at the start of a sequence. -/
def start (tokens : List Token) : Cursor := ⟨0, tokens⟩

def current? (c : Cursor) : Option Token := c.rest.head?

/-- The kind of the current token. -/
def kind? (c : Cursor) : Option Kind := c.current?.map Token.kind

/-- The kind of the token `offset` places ahead. -/
def peekKind? (c : Cursor) (offset : Nat) : Option Kind := c.rest[offset]?.map Token.kind

/-- Whether the current token is of a kind. -/
def isAt (c : Cursor) (kind : Kind) : Bool := c.kind? == some kind

def hasTokens (c : Cursor) : Bool := !c.rest.isEmpty

/-- The cursor behind the longest run of tokens that satisfy `p`. -/
def skipWhile (c : Cursor) (p : Token → Bool) : Cursor :=
  ⟨c.position + (c.rest.takeWhile p).length, c.rest.dropWhile p⟩

def skipLineBreaks (c : Cursor) : Cursor := c.skipWhile (· == .symbol .lineBreak)

def skipSeparators (c : Cursor) : Cursor := c.skipWhile Token.isSeparator

/-- The error that the current token, or the end of the tokens, calls for. -/
def unexpected (c : Cursor) (message : String) : ParseError :=
  match c.current? with
  | some token => ⟨.unexpectedDetailed token.spelling message, c.position⟩
  | none => ⟨.unexpectedEnd message, c.position⟩

end Cursor

/-- A reader of tokens. -/
abbrev Parser (α : Type) := EStateM ParseError Cursor α

namespace Parser

variable {α : Type}

/-- The value that a parser reads from the start of a sequence. -/
def parse (p : Parser α) (tokens : List Token) : Except ParseError α :=
  match p (.start tokens) with
  | .ok a _ => .ok a
  | .error e _ => .error e

def position : Parser Nat := fun c => .ok c.position c

def isAt (kind : Kind) : Parser Bool := fun c => .ok (c.isAt kind) c

/-- Fails on the current token, or on the end of the tokens. -/
def unexpected (message : String) : Parser α := fun c => .error (c.unexpected message) c

/-- Reads one token. -/
def advance : Parser Token := fun c =>
  match c.rest with
  | token :: rest => .ok token ⟨c.position + 1, rest⟩
  | [] => .error ⟨.unexpectedEnd "another token", c.position⟩ c

/-- Reads a token of a kind; otherwise fails with the given error, or says
which kind was expected. -/
def expectOr (kind : Kind) (error? : Option ParseError) : Parser Token := fun c =>
  if c.isAt kind then advance c
  else .error (error?.getD (c.unexpected ("expected " ++ kind.label))) c

/-- Reads a token of a kind. -/
def expect (kind : Kind) : Parser Token := expectOr kind none

/-- Reads a name. -/
def identifier : Parser String := fun c =>
  match c.rest with
  | .name name :: rest => .ok name ⟨c.position + 1, rest⟩
  | _ => .error (c.unexpected "expected an identifier") c

def skipLineBreaks : Parser Unit := fun c => .ok () c.skipLineBreaks

/-- Skips line breaks and semicolons, and says whether there were any. -/
def skipSeparators : Parser Bool := fun c =>
  .ok (c.position < c.skipSeparators.position) c.skipSeparators

/-- Fails if a token is left. -/
def expectEnd : Parser Unit := fun c =>
  match c.current? with
  | some token => .error ⟨.trailing token.spelling, c.position⟩ c
  | none => .ok () c

/-- Fails or succeeds as a computation without tokens does. -/
def ofExcept : Except ParseError α → Parser α
  | .ok a => fun c => .ok a c
  | .error e => fun c => .error e c

/-- Reads with `p`; if `p` fails, puts the cursor back and gives `fallback`. -/
def orRewind (p : Parser α) (fallback : α) : Parser α := fun c =>
  match p c with
  | .ok a c' => .ok a c'
  | .error _ _ => .ok fallback c

/-- Reads the rest of a list of items up to and with its closing parenthesis:
each further item stands behind a comma, and `gap` may be skipped around items.
Every item is at least one token, so at most `bound` remain. -/
def moreItems (item : Parser α) (gap : Parser Unit) : (bound : Nat) → Parser (List α)
  | 0 => do
    let _ ← expect (.symbol .comma)
    return []
  | bound + 1 => do
    if ← isAt (.bracket .closeParen) then
      let _ ← advance
      return []
    else
      let _ ← expect (.symbol .comma)
      gap
      let a ← item
      gap
      let as ← moreItems item gap bound
      return a :: as

/-- Reads items with commas between them up to and with the closing
parenthesis. The opening one is already read. -/
def items (item : Parser α) (gap : Parser Unit) : Parser (List α) := do
  gap
  if ← isAt (.bracket .closeParen) then
    let _ ← advance
    return []
  else
    let a ← item
    gap
    let as ← fun c => moreItems item gap c.rest.length c
    return a :: as

/-- Reads `else` and what follows it, also from a later line. Where no `else`
follows, the line breaks are left unread. -/
def elseBranch? (branch : Parser α) : Parser (Option α) := fun c =>
  if c.skipLineBreaks.isAt (.keyword .elseWord) then
    (do
      let _ ← advance
      let a ← branch
      return some a : Parser (Option α)) c.skipLineBreaks
  else .ok none c

end Parser

end ScriptLang
