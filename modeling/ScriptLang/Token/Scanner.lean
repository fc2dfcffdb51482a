import ScriptLang.Diagnostic.ParseError
import ScriptLang.Token.Lexeme
import ScriptLang.Token.Reserved

/-!
# The scanner

A scanner stands at a byte offset of its source, keeps the tokens it has read, and
counts the angle brackets that are open. `Scanner.step` reads one lexeme; `tokenize`
reads them all. A step that fails leaves a scanner behind as well: it is in the
state in which its action was when it failed.

Line breaks are tokens, since they separate statements; other blanks and
comments are dropped, and nothing marks the end. Every lexeme is non-empty, so
the length of the source bounds the number of steps.
-/

namespace ScriptLang

/-- The length of a text in UTF-8. -/
def byteLength : List Char → Nat
  | [] => 0
  | c :: rest => c.utf8Size + byteLength rest

theorem byteLength_append (x y : List Char) :
    byteLength (x ++ y) = byteLength x + byteLength y := by
  induction x with
  | nil => rw [List.nil_append, byteLength, Nat.zero_add]
  | cons c x ih => rw [List.cons_append, byteLength, byteLength, ih, Nat.add_assoc]

/-- A text without the characters that its first `n` bytes cover in full, and
the number of bytes among them that belong to the first character left. -/
def dropBytes : Nat → List Char → Nat × List Char
  | _, [] => (0, [])
  | n, c :: rest =>
    if c.utf8Size ≤ n then dropBytes (n - c.utf8Size) rest else (n, c :: rest)

/-- Dropping no bytes leaves a text as it is. -/
theorem dropBytes_zero (text : List Char) : dropBytes 0 text = (0, text) := by
  cases text with
  | nil => rfl
  | cons c rest =>
      have hSize : ¬ c.utf8Size ≤ 0 := Nat.not_le.2 c.utf8Size_pos
      rw [dropBytes, if_neg hSize]

/-- Dropping the bytes of a text leaves what stands behind it, uncut. -/
theorem dropBytes_byteLength (text rest : List Char) :
    dropBytes (byteLength text) (text ++ rest) = (0, rest) := by
  induction text with
  | nil => exact dropBytes_zero rest
  | cons c text ih =>
      have hFits : c.utf8Size ≤ c.utf8Size + byteLength text := Nat.le_add_right _ _
      rw [byteLength, List.cons_append, dropBytes, if_pos hFits, Nat.add_sub_cancel_left, ih]

/-- The number that a run of decimal digits stands for. -/
def digitsValue (digits : List Char) : Nat :=
  digits.foldl (fun value c => 10 * value + (c.toNat - '0'.toNat)) 0

/-- The greatest integer that source text can spell. -/
def maxInt : Nat := 2147483647

/-- The contents of a text with its escapes resolved. A backslash before any
other character stays, and the character after it is read on its own. -/
def unescape : List Char → List Char
  | [] => []
  | '\\' :: 'n' :: rest => '\n' :: unescape rest
  | '\\' :: 't' :: rest => '\t' :: unescape rest
  | '\\' :: '\\' :: rest => '\\' :: unescape rest
  | '\\' :: 'r' :: rest => '\r' :: unescape rest
  | '\\' :: '0' :: rest => '\x00' :: unescape rest
  | c :: rest => c :: unescape rest

/-- A place in a source text with what was read in front of it. -/
structure Scanner where
  /-- The place as a byte offset in the source. -/
  position : Nat
  /-- The source from the character on in which the place lies. -/
  rest : List Char
  /-- The bytes of that character before the place: none, unless the place was
  moved into the middle of a character. -/
  within : Nat
  /-- The tokens that have been read. -/
  tokens : Array Token
  /-- The number of angle brackets that are open. -/
  depth : Nat

namespace Scanner

/-- A scanner at the start of a source text. -/
def start (source : String) : Scanner := ⟨0, source.toList, 0, #[], 0⟩

/-- Moves on by `n` bytes, which may end inside a character or behind the end. -/
def advance (s : Scanner) (n : Nat) : Scanner :=
  let (within, rest) := dropBytes (s.within + n) s.rest
  { s with position := s.position + n, rest, within }

/-- Whether the place is at the end of the source or behind it. -/
def atEnd (s : Scanner) : Bool := s.rest.isEmpty

/-- Records a token as the last one read. -/
def push (s : Scanner) (token : Token) : Scanner := { s with tokens := s.tokens.push token }

/-- The character at the scanner's place; U+0000 at the end. -/
def current (s : Scanner) : Char := s.rest.headD '\x00'

/-- Whether a `<` would open the element type of a collection. -/
def opensElement (s : Scanner) : Bool :=
  match s.tokens.back? with
  | some (.typeWord (.collection _)) => true
  | _ => false

/-- Carries out the action of a rule on the lexeme it recognised. -/
def act (lexeme : List Char) : Action → EStateM ParseError Scanner Unit
  | .skip => modify (·.advance (byteLength lexeme))
  | .word => do
    modify (·.push (.ofWord (String.ofList lexeme)))
    modify (·.advance (byteLength lexeme))
  | .number => do
    if digitsValue lexeme ≤ maxInt then
      modify (·.push (.int (digitsValue lexeme)))
      modify (·.advance (byteLength lexeme))
    else throw ⟨.number (String.ofList lexeme), (← get).position⟩
  | .text => do
    modify (·.advance (byteLength lexeme))
    modify (·.push (.text (String.ofList (unescape (lexeme.drop 1).dropLast))))
  | .emit token literal => do
    modify (·.push token)
    modify (·.advance (byteLength literal.toList))
  | .openAngle => do
    if (← get).opensElement then
      modify fun s => { s with depth := s.depth + 1 }
      modify (·.push (.bracket .openAngle))
    else modify (·.push (.infixMark (.binary (.comparison .less))))
    modify (·.advance 1)
  | .closeAngle => do
    if 0 < (← get).depth then
      modify fun s => { s with depth := s.depth - 1 }
      modify (·.push (.bracket .closeAngle))
      modify (·.advance 1)
    else
      if lexeme = ['>', '='] then modify (·.push (.infixMark (.binary (.comparison .greaterEqual))))
      else modify (·.push (.infixMark (.binary (.comparison .greater))))
      modify (·.advance (byteLength lexeme))

/-- Reads one lexeme, which yields a token or separates two. -/
def step : EStateM ParseError Scanner Unit := fun s =>
  match firstLexeme? s.rest with
  | some (action, lexeme) => act lexeme action s
  | none => .error ⟨.unrecognised s.current.toString, s.position⟩ s

/-- Reads at most `bound` lexemes, up to the end of the source. -/
def run : (bound : Nat) → EStateM ParseError Scanner Unit
  | 0 => pure ()
  | bound + 1 => do
    if (← get).atEnd then pure ()
    else
      step
      run bound

/-- What is left of a run when it is over: its tokens, or its error. -/
def tokensOf : EStateM.Result ParseError Scanner Unit → Except ParseError (List Token)
  | .ok _ s => .ok s.tokens.toList
  | .error e _ => .error e

end Scanner

/-- The tokens of a source text. -/
def tokenize (source : String) : Except ParseError (List Token) :=
  Scanner.tokensOf (Scanner.run source.length (.start source))

end ScriptLang
