import ScriptLang.Proofs.Outcome
import ScriptLang.Proofs.Scanning.Boundaries

/-!
# Where and why scanning fails

Scanning fails in front of the first place where no lexeme can be taken. The
error gives this place in bytes. Bytes and characters are counted together along
the text, so the place is never inside of a character, and the text in front of
it is scanned when it stands alone (`tokenize_error_located`).

`Faulty` says what stands at such a place: a number that is too large, a quote
that is not closed, one half of a mark, or a character that starts no lexeme
whatever follows it. A character of any other kind is a lexeme by itself, if
nothing longer is (`Pattern.lexeme?_of_readsAll`).
-/

namespace ScriptLang

open Text (Ends)

variable {source rest digits : List Char} {c : Char} {action : Action} {fault : ParseFault}

/-- What stands at a place where scanning fails, and the fault that is found. -/
inductive Faulty : List Char → ParseFault → Prop
  | number {digits rest : List Char} (hSome : digits ≠ [])
      (hDigits : ∀ c ∈ digits, c.isDigit = true) (hEnds : Ends Char.isDigit rest)
      (hLarge : 2147483647 < digitsValue digits) :
      Faulty (digits ++ rest) (.number (String.ofList digits))
  | unclosed {body : List Char} (hOpen : '\x22' ∉ body) :
      Faulty ('\x22' :: body) (.unrecognised "\x22")
  /-- One half of `..`, `&&` or `||`. -/
  | half {c : Char} {rest : List Char} (hMark : c ∈ ['.', '&', '|'])
      (hNext : rest.head? ≠ some c) : Faulty (c :: rest) (.unrecognised c.toString)
  | foreign {c : Char} {rest : List Char} (hNone : ∀ behind, firstLexeme? (c :: behind) = none) :
      Faulty (c :: rest) (.unrecognised c.toString)

/-! ## Numbers -/

/-- A lexeme of digits is the whole run of digits. -/
theorem digits_of_lexeme? (h : Pattern.digits.lexeme? source = some digits) :
    ∃ rest, source = digits ++ rest ∧ digits ≠ [] ∧ (∀ c ∈ digits, c.isDigit = true) ∧
      Ends Char.isDigit rest := by
  cases source with
  | nil => exact absurd h nofun
  | cons c rest =>
      obtain ⟨hDigit, hLexeme⟩ := Option.ite_none_right_eq_some.1 h
      have hRun : c :: rest.takeWhile Char.isDigit = digits := Option.some.inj hLexeme
      have hSplit := List.takeWhile_append_dropWhile (p := Char.isDigit) (l := rest)
      rw [← hRun]
      refine ⟨rest.dropWhile Char.isDigit, by rw [List.cons_append, hSplit], List.cons_ne_nil _ _,
        ?_, Text.ends_dropWhile rest⟩
      rw [List.forall_mem_cons]
      exact ⟨hDigit, List.all_eq_true.1 List.all_takeWhile⟩

theorem rules_number : ∀ rule ∈ rules, rule.action = .number → rule.pattern = .digits := by
  decide

theorem faulty_number (hFirst : firstLexeme? source = some (.number, digits))
    (hLarge : maxInt < digitsValue digits) : Faulty source (.number (String.ofList digits)) := by
  obtain ⟨rule, hRule, hAction, hLexeme⟩ := exists_rule_of_firstLexeme? hFirst
  rw [rules_number rule hRule hAction] at hLexeme
  obtain ⟨rest, rfl, hSome, hDigits, hEnds⟩ := digits_of_lexeme? hLexeme
  exact .number hSome hDigits hEnds hLarge

/-! ## Characters -/

/-- Whether the pattern matches every text that starts with the character. -/
def Pattern.readsAll (c : Char) : Pattern → Bool
  | .word => Text.isWordStart c
  | .digits => c.isDigit
  | .blanks => isBlank c
  | .greater => c == '>'
  | .fixed [d] => d == c
  | _ => false

theorem Pattern.lexeme?_of_readsAll {pattern : Pattern} (h : pattern.readsAll c = true) :
    pattern.lexeme? (c :: rest) ≠ none := by
  cases pattern with
  | word => simp [lexeme?, show Text.isWordStart c = true from h]
  | digits => simp [lexeme?, show c.isDigit = true from h]
  | blanks => simp [lexeme?, show isBlank c = true from h]
  | greater =>
      have hHere : c = '>' := eq_of_beq h
      rw [hHere, lexeme?_greater]
      exact Option.some_ne_none _
  | fixed spelling =>
      rcases spelling with _ | ⟨d, _ | ⟨e, spelling⟩⟩
      · exact absurd h Bool.false_ne_true
      · have hHere : d = c := eq_of_beq h
        simp [lexeme?, hHere]
      · exact absurd h Bool.false_ne_true
  | quoted => exact absurd h Bool.false_ne_true
  | comment => exact absurd h Bool.false_ne_true

/-- Whether each character that starts a lexeme of the rule is read by some rule
in any case, but for a quote and the marks that come in pairs only. -/
def Rule.covered (rule : Rule) : Bool :=
  match rule.pattern with
  | .comment => rules.any (·.pattern.readsAll '/')
  | .fixed [] => false
  | .fixed (c :: _) => ['.', '&', '|'].contains c || rules.any (·.pattern.readsAll c)
  | _ => true

theorem rules_covered : ∀ rule ∈ rules, rule.covered = true := by decide

/-- A character other than these four starts a lexeme in front of every text, or
in front of none. -/
theorem startsAt_of_readsAll (hQuote : c ≠ '\x22') (hMark : c ∉ ['.', '&', '|'])
    (hNone : rules.any (·.pattern.readsAll c) = false) :
    ∀ rule ∈ rules, rule.pattern.startsAt c = false := by
  intro rule hRule
  have hCovered := rules_covered rule hRule
  have hOwn : rule.pattern.readsAll c = false :=
    Bool.eq_false_iff.2 fun hReads => List.any_eq_false.1 hNone rule hRule hReads
  rw [Bool.eq_false_iff]
  intro hStarts
  obtain ⟨pattern, action⟩ := rule
  cases pattern with
  | word | digits | blanks | greater => exact Bool.eq_false_iff.1 hOwn hStarts
  | quoted => exact hQuote (eq_of_beq hStarts)
  | comment =>
      have hHere : c = '/' := eq_of_beq hStarts
      rw [hHere] at hNone
      exact Bool.false_ne_true (hNone.symm.trans hCovered)
  | fixed spelling =>
      cases spelling with
      | nil => exact absurd hCovered Bool.false_ne_true
      | cons d spelling =>
          have hHere : d = c := eq_of_beq hStarts
          have hEither : ['.', '&', '|'].contains d || rules.any (·.pattern.readsAll d) := hCovered
          rw [hHere, hNone, Bool.or_false] at hEither
          exact hMark (List.contains_iff_mem.1 hEither)

/-- The marks that come in pairs only have rules. -/
theorem rules_pair (hMark : c ∈ ['.', '&', '|']) : .fixed [c, c] ∈ rules.map Rule.pattern := by
  simp only [List.mem_cons, List.not_mem_nil, or_false] at hMark
  rcases hMark with rfl | rfl | rfl
  · decide
  · decide
  · decide

theorem faulty_of_none (h : firstLexeme? (c :: rest) = none) :
    Faulty (c :: rest) (.unrecognised c.toString) := by
  have hRules := firstLexeme?_eq_none.1 h
  by_cases hQuote : c = '\x22'
  · subst hQuote
    refine .unclosed fun hClosed => ?_
    have hQuoted := hRules ⟨.quoted, .text⟩ (by decide)
    rw [Pattern.lexeme?, if_pos hClosed] at hQuoted
    cases hQuoted
  · by_cases hMark : c ∈ ['.', '&', '|']
    · refine .half hMark fun hNext => ?_
      obtain ⟨behind, rfl⟩ := List.head?_eq_some_iff.1 hNext
      obtain ⟨rule, hRule, hPattern⟩ := List.mem_map.1 (rules_pair hMark)
      have hPair := hRules rule hRule
      rw [hPattern, Pattern.lexeme?, if_pos (by simp)] at hPair
      cases hPair
    · refine .foreign fun behind => firstLexeme?_eq_none.2 fun rule hRule => ?_
      have hNone : rules.any (·.pattern.readsAll c) = false := by
        rw [List.any_eq_false]
        intro rule hRule hReads
        exact Pattern.lexeme?_of_readsAll hReads (hRules rule hRule)
      exact Pattern.lexeme?_of_startsAt (startsAt_of_readsAll hQuote hMark hNone rule hRule)

theorem faulty_of_stuck (h : Stuck source fault) : Faulty source fault := by
  cases h with
  | unrecognised hNone => exact faulty_of_none hNone
  | large hFirst hLarge => exact faulty_number hFirst hLarge

/-! ## The place of an error -/

/-- An error stands behind a front of the text that is scanned alone without one,
and what stands at this place accounts for the fault. -/
theorem tokenize_error_located {source : String} {e : ParseError}
    (h : tokenize source = .error e) :
    ∃ front rest, source.toList = front ++ rest ∧ rest ≠ [] ∧
      e.position = (String.ofList front).utf8ByteSize ∧
      (∃ ts, tokenize (String.ofList front) = .ok ts) ∧ Faulty rest e.fault := by
  rcases tokenize_cases source with ⟨ts, -, hOk⟩ | ⟨front, rest, ts, fault, hSource, hScans, hStuck,
    hError⟩
  · rw [hOk] at h
    exact absurd h nofun
  · rw [hError] at h
    obtain rfl := Except.error.inj h
    have hFaulty := faulty_of_stuck hStuck
    have hSome : rest ≠ [] := by
      cases hFaulty with
      | number hSome => exact List.append_ne_nil_of_left_ne_nil hSome _
      | unclosed | half | foreign => exact List.cons_ne_nil _ _
    have hFront : tokenize (String.ofList front) = .ok ts := by
      refine tokenize_of_scans ?_
      rw [String.toList_ofList]
      exact hScans.endsLike (.nil _)
    exact ⟨front, rest, hSource, hSome, (utf8ByteSize_ofList front).symm, ⟨ts, hFront⟩, hFaulty⟩

/-- The four characters in front of the number take six bytes. Its zeros belong to
it, but they do not make it large. -/
theorem located_behind_text :
    tokenize "\x22€\x22 0002147483648;" = .error ⟨.number "0002147483648", 6⟩ ∧
      ∃ front rest, "\x22€\x22 0002147483648;".toList = front ++ rest ∧ rest ≠ [] ∧
        6 = (String.ofList front).utf8ByteSize ∧
        (∃ ts, tokenize (String.ofList front) = .ok ts) ∧
        Faulty rest (.number "0002147483648") := by
  have hError : tokenize "\x22€\x22 0002147483648;" =
      .error ⟨.number "0002147483648", 6⟩ := by decide +kernel
  exact ⟨hError, tokenize_error_located hError⟩

end ScriptLang
