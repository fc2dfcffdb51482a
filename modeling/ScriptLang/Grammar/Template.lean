import ScriptLang.Diagnostic.ParseError
import ScriptLang.Syntax.Expr
import ScriptLang.Text.Word

/-!
# Templates

The contents of a string may splice in an expression, `$` and braces around its
source, or a variable, `$` before its name. `Template.pieces` cuts a literal
into plain characters and splice sites, from left to right;
`Template.assemble` joins the plain characters into the remainder and reads the
splices, each at the offset where it was cut.

Offsets count the characters of the remainder before the site, a `$` that stays
plain text counting twice.
-/

namespace ScriptLang

/-- A piece of the contents of a string. -/
inductive Template.Piece
  | plain (c : Char)
  /-- A `$` that starts no splice. -/
  | dollar
  /-- The source between `$` with an opening brace and its closing brace. -/
  | source (text : List Char)
  /-- The name behind a `$`. -/
  | name (text : List Char)
  /-- A `$` with an opening brace that nothing closes. -/
  | unclosed
  deriving DecidableEq

namespace Template

/-- The text up to the brace that closes an open one, and the text behind that
brace. `depth` further braces are open inside. -/
def closing? : (depth : Nat) → List Char → Option (List Char × List Char)
  | _, [] => none
  | 0, '\x7d' :: rest => some ([], rest)
  | depth + 1, '\x7d' :: rest =>
    (closing? depth rest).map fun (inner, after) => ('\x7d' :: inner, after)
  | depth, '\x7b' :: rest =>
    (closing? (depth + 1) rest).map fun (inner, after) => ('\x7b' :: inner, after)
  | depth, c :: rest =>
    (closing? depth rest).map fun (inner, after) => (c :: inner, after)

/-- The pieces of a text of at most `bound` characters. Nothing is cut behind
an unclosed site. -/
def piecesAt : (bound : Nat) → List Char → List Piece
  | 0, _ => []
  | _ + 1, [] => []
  | bound + 1, '$' :: '\x7b' :: rest =>
    match closing? 0 rest with
    | some (inner, after) => .source inner :: piecesAt bound after
    | none => [.unclosed]
  | bound + 1, '$' :: c :: rest =>
    if Text.isWordStart c then
      .name (c :: rest.takeWhile Text.isWordChar) ::
        piecesAt bound (rest.dropWhile Text.isWordChar)
    else .dollar :: piecesAt bound (c :: rest)
  | bound + 1, ['$'] => .dollar :: piecesAt bound []
  | bound + 1, c :: rest => .plain c :: piecesAt bound rest

/-- The pieces of a text. -/
def pieces (text : List Char) : List Piece := piecesAt text.length text

/-- Reads the source of a splice. What goes wrong inside is reported as the
template's own fault. -/
def readSource (embed : String → Except ParseError Expr) (position : Nat) (source : String) :
    Except ParseError Expr :=
  match embed source with
  | .ok e => .ok e
  | .error e => .error ⟨.invalidTemplate source e.message, position⟩

/-- The remainder and the splices of a list of pieces that starts at `offset`. -/
def assemble (embed : String → Except ParseError Expr) (literal : String) (position : Nat) :
    (offset : Nat) → List Piece → Except ParseError (List Char × List (Nat × Expr))
  | _, [] => .ok ([], [])
  | offset, .plain c :: rest => do
    let (remainder, splices) ← assemble embed literal position (offset + 1) rest
    return (c :: remainder, splices)
  | offset, .dollar :: rest => do
    let (remainder, splices) ← assemble embed literal position (offset + 2) rest
    return ('$' :: remainder, splices)
  | offset, .source text :: rest => do
    let e ← readSource embed position (String.ofList text)
    let (remainder, splices) ← assemble embed literal position offset rest
    return (remainder, (offset, e) :: splices)
  | offset, .name text :: rest => do
    let (remainder, splices) ← assemble embed literal position offset rest
    return (remainder, (offset, .var (String.ofList text)) :: splices)
  | _, .unclosed :: _ => .error ⟨.unterminatedTemplate literal, position⟩

/-- The string expression of a literal. `embed` reads the source of a splice,
and `position` is the place of the literal among the tokens. -/
def parse (embed : String → Except ParseError Expr) (literal : String) (position : Nat) :
    Except ParseError Expr := do
  let (remainder, splices) ← assemble embed literal position 0 (pieces literal.toList)
  return .text (String.ofList remainder) splices

end Template

end ScriptLang
