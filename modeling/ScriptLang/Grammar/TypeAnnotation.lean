import ScriptLang.Grammar.Cursor
import ScriptLang.Grammar.Table

/-!
# Reading types

A type is read in the form that the grammar gives for its first token. Each
form is a parser over a parser for the types inside; `Grammar.typeAt` ties the
knot by the number of tokens that may still be read, which every level of
nesting makes smaller.
-/

namespace ScriptLang

namespace TypeForm

/-- Reads the name of a basic type. -/
def parseBasic : Parser Ty := do
  let position ← Parser.position
  match ← Parser.advance with
  | .typeWord (.basic kind) => return .basic kind
  | token => throw ⟨.unexpectedDetailed token.spelling "expected a basic type", position⟩

/-- Reads `Array<T>` or `MutableList<T>`, where `T` must be a basic type. -/
def parseCollection (type : Parser Ty) : Parser Ty := do
  let collection ← Parser.advance
  let _ ← Parser.expect (.bracket .openAngle)
  let position ← Parser.position
  match ← type with
  | .basic element =>
    let _ ← Parser.expect (.bracket .closeAngle)
    match collection with
    | .typeWord (.collection .mutableList) => return .collection .mutableList element
    | _ => return .collection .array element
  | other =>
    throw ⟨.unexpectedDetailed other.spelling "collection elements must be a basic type",
      position⟩

/-- Reads `(T1, T2) -> R`. -/
def parseFunction (type : Parser Ty) : Parser Ty := do
  let _ ← Parser.expect (.bracket .openParen)
  let parameters ← Parser.items type (pure ())
  let _ ← Parser.expect (.symbol .arrow)
  let result ← type
  return .function parameters result

/-- Reads a type in a given form. -/
def parse (type : Parser Ty) : TypeForm → Parser Ty
  | .basic => parseBasic
  | .collection => parseCollection type
  | .function => parseFunction type
  | .any => type

end TypeForm

namespace Grammar

/-- Reads a type of at most `bound` tokens. -/
def typeAt (g : Grammar) : (bound : Nat) → Parser Ty
  | 0 => Parser.unexpected "expected a type"
  | bound + 1 => fun c =>
    match c.kind?.bind g.type with
    | some form => form.parse (g.typeAt bound) c
    | none => Parser.unexpected "expected a type" c

/-- Reads a type. -/
def parseType (g : Grammar) : Parser Ty := fun c => g.typeAt c.rest.length c

end Grammar

end ScriptLang
