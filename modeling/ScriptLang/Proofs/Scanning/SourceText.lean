import ScriptLang.Proofs.Scanning.Lengths

/-!
# Reading tokens from their source text

`Token.source` is the text that a token is written as. A scanner reads the token
back from it if the context admits the token and if nothing behind it belongs to
it as well (`Context.Reads.token`).

`Context.Steps` says what one step takes from a text and which token it reads, from
the rules and the context alone; the scanner does as it says, at every position
(`Context.Steps.step_eq`). `Context.Reads` speaks of scanners at any position with
any bound that covers the text, so such readings can be put one after the other.
-/

namespace ScriptLang

open Text (Ends)

/-! ## Source text -/

/-- A text with each of its backslashes doubled. -/
def doubleBackslashes (text : List Char) : List Char :=
  text.flatMap fun c => if c = '\\' then ['\\', '\\'] else [c]

/-- A token as it is written in a source text. -/
def Token.source : Token → String
  | .symbol .lineBreak => "\n"
  | .text contents => "\x22" ++ String.ofList (doubleBackslashes contents.toList) ++ "\x22"
  | t => t.spelling

/-- Whether a character behind the source text of a token would belong to its
lexeme as well. -/
def Token.continuedBy (t : Token) (c : Char) : Bool :=
  match t with
  | .keyword _ | .typeWord _ | .name _ => Text.isWordChar c
  | .int _ => c.isDigit
  | .text _ | .bracket .closeAngle => false
  | _ => joinsMark c

variable {ctx : Context} {t : Token} {ts : List Token} {token? : Option Token}
  {source rest taken lexeme : List Char} {action : Action}

theorem unescape_cons {c : Char} (h : c ≠ '\\') : unescape (c :: rest) = c :: unescape rest := by
  rw [unescape.eq_def]
  split <;> simp_all

theorem unescape_doubleBackslashes (text : List Char) :
    unescape (doubleBackslashes text) = text := by
  induction text with
  | nil => rfl
  | cons c text ih =>
      rw [doubleBackslashes, List.flatMap_cons]
      by_cases hBackslash : c = '\\'
      · rw [if_pos hBackslash, hBackslash]
        show '\\' :: unescape (doubleBackslashes text) = _
        rw [ih]
      · rw [if_neg hBackslash]
        show unescape (c :: doubleBackslashes text) = _
        rw [unescape_cons hBackslash, ih]

theorem quote_not_mem_doubleBackslashes {text : List Char} (h : '\x22' ∉ text) :
    '\x22' ∉ doubleBackslashes text := by
  intro hMem
  obtain ⟨c, hc, hEscaped⟩ := List.mem_flatMap.1 hMem
  by_cases hBackslash : c = '\\'
  · rw [if_pos hBackslash] at hEscaped
    exact absurd hEscaped (by decide)
  · rw [if_neg hBackslash, List.mem_singleton] at hEscaped
    exact h (hEscaped ▸ hc)

/-! ## Reading on -/

/-- The scanner in front of a text that stands at a position. -/
def Context.scanner (ctx : Context) (position : Nat) (source : List Char) : Scanner :=
  ⟨position, source, 0, ctx.tokens, ctx.depth⟩

/-- The tokens are read from the text up to its end. -/
def Context.Reads (ctx : Context) (source : List Char) (ts : List Token) : Prop :=
  ∀ position bound, source.length ≤ bound → Scanner.run bound (ctx.scanner position source) =
    .ok () ((ctx.afterAll ts).scanner (position + byteLength source) [])

/-- One step takes `taken` from the front of a text, which is its portion of the
lexeme there, and reads a token or none. -/
def Context.Steps (ctx : Context) (taken rest : List Char) (token? : Option Token) : Prop :=
  ∃ action lexeme, firstLexeme? (taken ++ rest) = some (action, lexeme) ∧
    ctx.Does action lexeme token? ∧ ctx.portion action lexeme = taken

namespace Context

theorem scanner_behind (position : Nat) :
    (ctx.scanner position (taken ++ rest)).behind taken token? =
      (ctx.afterAll token?.toList).scanner (position + byteLength taken) rest := by
  have hDropped : dropBytes (0 + byteLength taken) (taken ++ rest) = (0, rest) := by
    rw [Nat.zero_add, dropBytes_byteLength]
  rw [Scanner.behind, Scanner.advance, scanner, hDropped]
  rfl

theorem Steps.step_eq (h : ctx.Steps taken rest token?) (position : Nat) :
    Scanner.step (ctx.scanner position (taken ++ rest)) =
      .ok () ((ctx.afterAll token?.toList).scanner (position + byteLength taken) rest) := by
  obtain ⟨action, lexeme, hFirst, hDoes, hPortion⟩ := h
  have hAct := Scanner.act_eq (s := ctx.scanner position (taken ++ rest)) hDoes
  have hPart : (ctx.scanner position (taken ++ rest)).context.portion action lexeme = taken :=
    hPortion
  rw [Scanner.step_of_first hFirst, hAct, hPart, scanner_behind]

/-- A step takes a character at least. -/
theorem Steps.taken_ne_nil (h : ctx.Steps taken rest token?) : taken ≠ [] := by
  obtain ⟨action, lexeme, hFirst, -, rfl⟩ := h
  exact portion_ne_nil (firstLexeme?_taken hFirst).2

/-- A run begins with the step in front of it. The bound that covers the text covers
what is left with one step less. -/
theorem run_of_steps (h : ctx.Steps taken rest token?) (position : Nat) {bound : Nat}
    (hBound : (taken ++ rest).length ≤ bound) :
    ∃ bound', rest.length ≤ bound' ∧ Scanner.run bound (ctx.scanner position (taken ++ rest)) =
      Scanner.run bound'
        ((ctx.afterAll token?.toList).scanner (position + byteLength taken) rest) := by
  have hLonger := List.length_pos_iff.2 h.taken_ne_nil
  rw [List.length_append] at hBound
  obtain ⟨bound, rfl⟩ : ∃ k, bound = k + 1 := ⟨bound - 1, by omega⟩
  have hNotEnd : ¬ (ctx.scanner position (taken ++ rest)).atEnd = true := by
    show ¬ (taken ++ rest).isEmpty = true
    rw [List.isEmpty_iff, List.append_eq_nil_iff]
    exact fun hNil => h.taken_ne_nil hNil.1
  refine ⟨bound, by omega, ?_⟩
  rw [Scanner.run_succ, Scanner.runStep, if_neg hNotEnd, h.step_eq position]

namespace Reads

theorem nil : ctx.Reads [] [] := by
  intro position bound _
  cases bound with
  | zero => rfl
  | succ bound => rfl

/-- One step in front of a reading. -/
theorem step (hStep : ctx.Steps taken rest token?)
    (hRest : (ctx.afterAll token?.toList).Reads rest ts) :
    ctx.Reads (taken ++ rest) (token?.toList ++ ts) := by
  intro position bound hBound
  obtain ⟨bound', hCovers, hRun⟩ := run_of_steps hStep position hBound
  rw [hRun, hRest _ bound' hCovers, afterAll_append, byteLength_append, Nat.add_assoc]

/-- A blank in front of what is none is passed over. -/
theorem blank (hEnds : Ends isBlank rest) (hRest : ctx.Reads rest ts) :
    ctx.Reads (' ' :: rest) ts := by
  have hFirst : firstLexeme? ([' '] ++ rest) = some (.skip, [' ']) := by
    have hNone : ([] ++ rest).takeWhile isBlank = [] :=
      Text.takeWhile_append_ends (fun _ hc => absurd hc List.not_mem_nil) hEnds
    rw [List.nil_append] at hNone
    rw [List.singleton_append, firstLexeme?_blank rfl, hNone]
  have hStep : ctx.Steps [' '] rest none := ⟨.skip, [' '], hFirst, .skip, rfl⟩
  exact step hStep hRest

end Reads

/-! ## Reading a token -/

theorem steps_word {word : String} (hWord : Text.isWord word.toList = true)
    (hToken : .ofWord word = t) (hEnds : Ends Text.isWordChar rest) :
    ctx.Steps word.toList rest (some t) := by
  have hDoes : ctx.Does .word word.toList _ := .word hWord
  rw [String.ofList_toList, hToken] at hDoes
  exact ⟨.word, word.toList, firstLexeme?_word hWord hEnds, hDoes, rfl⟩

/-- The decimal digits of a number are read as the number. -/
theorem steps_int {value : Int} (hAdmits : ctx.Admits (.int value))
    (hEnds : Ends Char.isDigit rest) :
    ctx.Steps (toString value).toList rest (some (.int value)) := by
  obtain ⟨hNonneg, hLe⟩ := hAdmits
  obtain ⟨n, rfl⟩ := Int.eq_ofNat_of_zero_le hNonneg
  have hDigits : (toString (n : Int)).toList = Nat.toDigits 10 n := Nat.toList_repr
  have hAll : ∀ c ∈ Nat.toDigits 10 n, c.isDigit = true :=
    fun c hc => Nat.isDigit_of_mem_toDigits (by decide) (by decide) hc
  have hValue : digitsValue (Nat.toDigits 10 n) = n := Nat.ofDigitChars_ten_toDigits
  have hFits : digitsValue (Nat.toDigits 10 n) ≤ maxInt := by
    rw [hValue]
    exact Int.ofNat_le.1 hLe
  have hDoes : ctx.Does .number (Nat.toDigits 10 n) _ := .number hFits
  rw [hValue] at hDoes
  rw [hDigits]
  exact ⟨.number, _, firstLexeme?_digits hAll Nat.toDigits_ne_nil hEnds, hDoes, rfl⟩

theorem steps_text {contents : String} (hAdmits : ctx.Admits (.text contents)) :
    ctx.Steps (Token.text contents).source.toList rest (some (.text contents)) := by
  have hSource : (Token.text contents).source.toList =
      '\x22' :: (doubleBackslashes contents.toList ++ ['\x22']) := by
    simp [Token.source]
  have hQuote := quote_not_mem_doubleBackslashes hAdmits
  have hFirst :
      firstLexeme? ('\x22' :: (doubleBackslashes contents.toList ++ '\x22' :: rest)) = _ :=
    firstLexeme?_quoted hQuote
  have hDoes : ctx.Does .text ('\x22' :: (doubleBackslashes contents.toList ++ ['\x22'])) _ :=
    .text hQuote
  rw [unescape_doubleBackslashes, String.ofList_toList] at hDoes
  rw [hSource]
  exact ⟨.text, _, by simpa using hFirst, hDoes, rfl⟩

/-- Each mark has a rule that reads its source text. -/
theorem mark_mem_rules (h : t.isMark = true) :
    Rule.mark t.source t t.source ∈ rules := by
  cases t with
  | symbol mark => cases mark <;> decide
  | bracket mark => cases mark <;> first | decide | exact absurd h nofun
  | unaryMark mark =>
      rcases mark with _ | op
      · decide
      · cases op <;> decide
  | infixMark mark =>
      rcases mark with (op | op | op) | _ | op
      · cases op <;> decide
      · cases op <;> first | decide | exact absurd h nofun
      · cases op <;> decide
      · decide
      · cases op <;> decide
  | _ => exact absurd h nofun

theorem steps_mark (h : t.isMark = true) (hEnds : Ends joinsMark rest) :
    ctx.Steps t.source.toList rest (some t) :=
  ⟨_, _, firstLexeme?_fixed (mark_mem_rules h) hEnds, .emit h, rfl⟩

theorem firstLexeme?_angle (hEnds : Ends joinsMark rest) :
    firstLexeme? (['<'] ++ rest) = some (.openAngle, ['<']) := by
  have hRule : ⟨.fixed ['<'], .openAngle⟩ ∈ rules := by decide
  exact firstLexeme?_fixed hRule hEnds

/-- A `>` while an angle bracket is open closes it, whatever stands behind it. -/
theorem steps_closeAngle (h : 0 < ctx.depth) :
    ctx.Steps ['>'] rest (some (.bracket .closeAngle)) := by
  have hFirst : firstLexeme? (['>'] ++ rest) = _ := firstLexeme?_greater
  exact ⟨.closeAngle, _, hFirst, .closeAngle (meets_of_firstLexeme? hFirst) h, if_pos h⟩

theorem steps_greater (h : ctx.depth = 0) (hOther : rest.head? ≠ some '=') :
    ctx.Steps ['>'] rest (some (.infixMark (.binary (.comparison .greater)))) := by
  have hFirst : firstLexeme? (['>'] ++ rest) = some (.closeAngle, ['>']) := by
    rw [List.singleton_append, firstLexeme?_greater, if_neg hOther]
  exact ⟨.closeAngle, ['>'], hFirst, .greater h, ite_self _⟩

theorem steps_greaterEqual (h : ctx.depth = 0) :
    ctx.Steps ['>', '='] rest (some (.infixMark (.binary (.comparison .greaterEqual)))) := by
  have hFirst : firstLexeme? (['>', '='] ++ rest) = some (.closeAngle, ['>', '=']) :=
    firstLexeme?_greater
  exact ⟨.closeAngle, ['>', '='], hFirst, .greaterEqual h, if_neg (Nat.not_lt.2 (Nat.le_of_eq h))⟩

/-- Each reserved word is listed with its token. -/
theorem mem_reservedWords (h : t.isReservedWord = true) : (t.spelling, t) ∈ reservedWords := by
  have hListed : t ∈ Token.reserved := by
    cases t with
    | keyword word =>
        cases word with
        | control control => cases control <;> decide
        | declaration readOnly => cases readOnly <;> decide
        | output form => cases form <;> decide
        | truth value => cases value <;> decide
        | literal kind => cases kind <;> decide
        | _ => decide
    | typeWord word =>
        rcases word with kind | kind
        · cases kind <;> decide
        · cases kind <;> decide
    | _ => exact absurd h nofun
  obtain ⟨⟨word, token⟩, hEntry, rfl⟩ := List.mem_map.1 hListed
  rw [reservedWords_spelling _ hEntry]
  exact hEntry

/-- The reserved words are words, and each is read as its own token. -/
theorem reservedWords_spelled : ∀ entry ∈ reservedWords,
    Text.isWord entry.1.toList = true ∧ .ofWord entry.1 = entry.2 := by
  decide

theorem ofWord_of_not_reserved {name : String} (h : isReserved name = false) :
    Token.ofWord name = .name name := by
  rw [isReserved, Option.isSome_eq_false_iff, Option.isNone_iff_eq_none] at h
  rw [Token.ofWord, h]
  rfl

theorem steps_reservedWord (h : t.isReservedWord = true) (hEnds : Ends Text.isWordChar rest) :
    ctx.Steps t.spelling.toList rest (some t) := by
  obtain ⟨hWord, hToken⟩ := reservedWords_spelled _ (mem_reservedWords h)
  exact steps_word hWord hToken hEnds

/-- A token is read from its source text if the context admits it and nothing
behind it belongs to its lexeme as well. -/
theorem steps_token (hAdmits : ctx.Admits t) (hEnds : Ends t.continuedBy rest) :
    ctx.Steps t.source.toList rest (some t) := by
  cases t with
  | keyword word => exact steps_reservedWord (t := .keyword word) rfl hEnds
  | typeWord word => exact steps_reservedWord (t := .typeWord word) rfl hEnds
  | name name => exact steps_word hAdmits.1 (ofWord_of_not_reserved hAdmits.2) hEnds
  | int value => exact steps_int hAdmits hEnds
  | text contents => exact steps_text hAdmits
  | symbol mark => exact steps_mark rfl hEnds
  | unaryMark mark => exact steps_mark rfl hEnds
  | bracket mark =>
      cases mark with
      | openAngle => exact ⟨_, _, firstLexeme?_angle hEnds, .openAngle hAdmits, rfl⟩
      | closeAngle => exact steps_closeAngle hAdmits
      | _ => exact steps_mark rfl hEnds
  | infixMark mark =>
      rcases mark with (op | op | op) | _ | op
      · exact steps_mark rfl hEnds
      · cases op with
        | less => exact ⟨_, _, firstLexeme?_angle hEnds, .less hAdmits, rfl⟩
        | greater =>
            exact steps_greater hAdmits fun hEqual => absurd (hEnds '=' hEqual) (by decide)
        | greaterEqual => exact steps_greaterEqual hAdmits
        | _ => exact steps_mark rfl hEnds
      · exact steps_mark rfl hEnds
      · exact steps_mark rfl hEnds
      · exact steps_mark rfl hEnds

/-- The source text of a token starts with a character that is no blank: a blank
would be passed over. -/
theorem source_head (hAdmits : ctx.Admits t) :
    ∃ c tail, t.source.toList = c :: tail ∧ isBlank c = false := by
  have hStep : ctx.Steps t.source.toList [] (some t) := steps_token hAdmits Text.ends_nil
  obtain ⟨c, tail, hSource⟩ := List.exists_cons_of_ne_nil hStep.taken_ne_nil
  obtain ⟨action, lexeme, hFirst, hDoes, -⟩ := hStep
  refine ⟨c, tail, hSource, Bool.eq_false_iff.2 fun hBlank => ?_⟩
  rw [hSource, List.cons_append, firstLexeme?_blank hBlank] at hFirst
  cases hFirst
  cases hDoes

/-- A token in front of a reading. -/
theorem Reads.token (hAdmits : ctx.Admits t) (hEnds : Ends t.continuedBy rest)
    (hRest : (ctx.after t).Reads rest ts) : ctx.Reads (t.source.toList ++ rest) (t :: ts) :=
  Reads.step (steps_token hAdmits hEnds) hRest

end Context

/-- What is read from the start of a source text are its tokens. -/
theorem tokenize_of_reads {source : String} (h : Context.start.Reads source.toList ts) :
    tokenize source = .ok ts := by
  refine tokenize_eq_ok.2 ⟨_, h 0 source.length (Nat.le_of_eq String.length_toList), ?_⟩
  exact Context.tokens_afterAll

end ScriptLang
