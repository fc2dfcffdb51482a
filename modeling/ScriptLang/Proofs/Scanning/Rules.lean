import ScriptLang.Token.Lexeme
import ScriptLang.Token.Reserved

/-!
# Lexemes at the head of a text

Which rule reads the head of a text, in both directions. A lexeme that was
recognised belongs to the action of its rule (`meets_of_firstLexeme?`). A
spelled token is recognised as itself if nothing behind it joins on to it: a
word ends in front of what is no word character, a number in front of what is
no digit, and a mark in front of any character but the few that `joinsMark`
names (`firstLexeme?_word`, `firstLexeme?_digits`, `firstLexeme?_fixed`).

That no earlier rule takes a mark away is a property of the table alone. It is
decided once, for all pairs of rules (`rules_clearOf`).
-/

namespace ScriptLang

/-! ## The end of a run -/

namespace Text

/-- A run of characters of a class ends in front of `rest`. -/
def Ends (p : Char → Bool) (rest : List Char) : Prop := ∀ c ∈ rest.head?, p c = false

variable {p : Char → Bool} {c : Char} {run rest : List Char}

theorem ends_nil : Ends p [] := nofun

theorem ends_cons (h : p c = false) : Ends p (c :: rest) := by
  intro d hd
  rw [← Option.some.inj hd]
  exact h

/-- A run that ends in front of `rest` is what is taken from both together. -/
theorem takeWhile_append_ends (hRun : ∀ c ∈ run, p c = true) (hEnds : Ends p rest) :
    (run ++ rest).takeWhile p = run := by
  have hStop : rest.takeWhile p = [] := by
    cases rest with
    | nil => rfl
    | cons c rest => rw [List.takeWhile_cons, hEnds c rfl, if_neg Bool.false_ne_true]
  rw [List.takeWhile_append_of_pos hRun, hStop, List.append_nil]

/-- A run that is dropped as far as it goes ends there. -/
theorem ends_dropWhile (l : List Char) : Ends p (l.dropWhile p) := by
  intro c hc
  have hStop := List.head?_dropWhile_not p l
  rw [hc] at hStop
  exact hStop

/-- A text is cut at the first occurrence of a character. -/
theorem takeWhile_ne_append (h : c ∉ run) : (run ++ c :: rest).takeWhile (· != c) = run := by
  refine takeWhile_append_ends ?_ (ends_cons (bne_self_eq_false c))
  intro d hd
  rw [bne_iff_ne]
  rintro rfl
  exact h hd

/-- No digit starts a word. -/
theorem isWordStart_of_isDigit (h : c.isDigit = true) : isWordStart c = false := by
  rw [Bool.eq_false_iff]
  intro hStart
  change (decide (48 ≤ c.val) && decide (c.val ≤ 57)) = true at h
  change (decide (65 ≤ c.val ∧ c.val ≤ 90) ||
    (decide (97 ≤ c.val) && decide (c.val ≤ 122)) || c == '_') = true at hStart
  simp only [Bool.or_eq_true, Bool.and_eq_true, decide_eq_true_eq, beq_iff_eq,
    UInt32.le_iff_toNat_le] at h hStart
  change 48 ≤ c.toNat ∧ c.toNat ≤ 57 at h
  change ((65 ≤ c.toNat ∧ c.toNat ≤ 90) ∨ (97 ≤ c.toNat ∧ c.toNat ≤ 122)) ∨ c = '_' at hStart
  rcases hStart with (hUpper | hLower) | rfl
  · omega
  · omega
  · exact absurd h (by decide)

end Text

open Text (Ends)

variable {source rest lexeme mark word digits body : List Char} {action : Action} {t : Token}

/-! ## The first character -/

/-- Whether a lexeme of the pattern may start with the character. -/
def Pattern.startsAt (c : Char) : Pattern → Bool
  | .word => Text.isWordStart c
  | .digits => c.isDigit
  | .blanks => isBlank c
  | .quoted => c == '\x22'
  | .comment => c == '/'
  | .fixed spelling => spelling.head?.all (· == c)
  | .greater => c == '>'

/-- A pattern matches no text that starts with another character. -/
theorem Pattern.lexeme?_of_startsAt {pattern : Pattern} {c : Char}
    (h : pattern.startsAt c = false) : pattern.lexeme? (c :: rest) = none := by
  cases pattern with
  | word => exact if_neg (Bool.eq_false_iff.1 h)
  | digits => exact if_neg (Bool.eq_false_iff.1 h)
  | blanks => exact if_neg (Bool.eq_false_iff.1 h)
  | quoted => simp [lexeme?, beq_eq_false_iff_ne.1 h]
  | comment => simp [lexeme?, beq_eq_false_iff_ne.1 h]
  | greater => simp [lexeme?, beq_eq_false_iff_ne.1 h]
  | fixed spelling =>
      cases spelling with
      | nil => exact absurd h nofun
      | cons d spelling =>
          have hOther : (d == c) = false := h
          rw [lexeme?, List.isPrefixOf, hOther, Bool.false_and, if_neg Bool.false_ne_true]

theorem Pattern.startsAt_of_lexeme? {pattern : Pattern} {c : Char}
    (h : pattern.lexeme? (c :: rest) = some lexeme) : pattern.startsAt c = true := by
  refine Bool.of_not_eq_false fun hOther => ?_
  rw [lexeme?_of_startsAt hOther] at h
  exact absurd h nofun

/-! ## From a lexeme to its rule -/

/-- A lexeme at the head of a text is recognised by a rule for its action. -/
theorem exists_rule_of_firstLexeme? (h : firstLexeme? source = some (action, lexeme)) :
    ∃ rule ∈ rules, rule.action = action ∧ rule.pattern.lexeme? source = some lexeme := by
  obtain ⟨rule, hRule, hFound⟩ := List.exists_of_findSome?_eq_some h
  obtain ⟨found, hLexeme, hPair⟩ := Option.map_eq_some_iff.1 hFound
  rw [Prod.mk.injEq] at hPair
  rw [hPair.2] at hLexeme
  exact ⟨rule, hRule, hPair.1, hLexeme⟩

/-- No lexeme is at the head of a text if no rule matches there. -/
theorem firstLexeme?_eq_none : firstLexeme? source = none ↔
    ∀ rule ∈ rules, rule.pattern.lexeme? source = none := by
  rw [firstLexeme?, List.findSome?_eq_none_iff]
  exact forall₂_congr fun rule _ => Option.map_eq_none_iff

/-- A token that one spelling stands for wherever it occurs: a symbol, a
bracket or an operator, but none of the marks that may close or open the
element type of a collection. -/
def Token.isMark : Token → Bool
  | .symbol _ | .unaryMark _ => true
  | .bracket .openAngle | .bracket .closeAngle => false
  | .bracket _ => true
  | .infixMark (.binary (.comparison .less))
  | .infixMark (.binary (.comparison .greater))
  | .infixMark (.binary (.comparison .greaterEqual)) => false
  | .infixMark _ => true
  | _ => false

/-- The lexemes that the action of a rule may be carried out on. -/
inductive Action.Meets : Action → List Char → Prop
  | skip {lexeme : List Char} : Meets .skip lexeme
  | word {lexeme : List Char} (hWord : Text.isWord lexeme = true) : Meets .word lexeme
  | number {lexeme : List Char} : Meets .number lexeme
  | text {body : List Char} (hBody : '\x22' ∉ body) :
      Meets .text ('\x22' :: (body ++ ['\x22']))
  /-- The lexeme is the text over which the action moves on. -/
  | emit {t : Token} {literal : String} (hMark : t.isMark = true) :
      Meets (.emit t literal) literal.toList
  | openAngle : Meets .openAngle ['<']
  | greater : Meets .closeAngle ['>']
  | greaterEqual : Meets .closeAngle ['>', '=']

/-- Whether a rule pairs an action with a pattern whose lexemes it may be
carried out on. -/
def Rule.paired : Rule → Bool
  | ⟨_, .skip⟩ | ⟨_, .number⟩ => true
  | ⟨.word, .word⟩ | ⟨.quoted, .text⟩ | ⟨.greater, .closeAngle⟩ => true
  | ⟨.fixed text, .openAngle⟩ => text == ['<']
  | ⟨.fixed _, .emit t _⟩ => t.isMark
  | _ => false

theorem rules_paired : ∀ rule ∈ rules, rule.paired = true := by decide

theorem isWord_of_lexeme? (h : Pattern.word.lexeme? source = some lexeme) :
    Text.isWord lexeme = true := by
  cases source with
  | nil => exact absurd h nofun
  | cons c rest =>
      have hLexeme : (if Text.isWordStart c then some (c :: rest.takeWhile Text.isWordChar)
          else none) = some lexeme := h
      by_cases hStart : Text.isWordStart c = true
      · rw [if_pos hStart] at hLexeme
        rw [← Option.some.inj hLexeme, Text.isWord, hStart, List.all_takeWhile]
        rfl
      · rw [if_neg hStart] at hLexeme
        exact absurd hLexeme nofun

/-- A quoted text has no quote between its quotes. -/
theorem exists_body_of_lexeme? (h : Pattern.quoted.lexeme? source = some lexeme) :
    ∃ body, '\x22' ∉ body ∧ lexeme = '\x22' :: (body ++ ['\x22']) := by
  cases source with
  | nil => exact absurd h nofun
  | cons c rest =>
      by_cases hHead : c = '\x22'
      · subst hHead
        have hLexeme : (if '\x22' ∈ rest then
            some ('\x22' :: rest.takeWhile (· != '\x22') ++ ['\x22']) else none) =
              some lexeme := h
        by_cases hClosed : '\x22' ∈ rest
        · rw [if_pos hClosed] at hLexeme
          refine ⟨rest.takeWhile (· != '\x22'), ?_, (Option.some.inj hLexeme).symm⟩
          intro hMem
          exact absurd (List.all_eq_true.1 List.all_takeWhile _ hMem) (by decide)
        · rw [if_neg hClosed] at hLexeme
          exact absurd hLexeme nofun
      · have hMiss : Pattern.quoted.startsAt c = false := beq_false_of_ne hHead
        rw [Pattern.lexeme?_of_startsAt hMiss] at h
        exact absurd h nofun

theorem Pattern.lexeme?_fixed {text : List Char} :
    (Pattern.fixed text).lexeme? source = some lexeme ↔ text <+: source ∧ text = lexeme := by
  rw [lexeme?, Option.ite_none_right_eq_some, List.isPrefixOf_iff_prefix, Option.some.injEq]

theorem Pattern.lexeme?_greater : Pattern.greater.lexeme? ('>' :: rest) =
    some (if rest.head? = some '=' then ['>', '='] else ['>']) := by
  cases rest with
  | nil => rfl
  | cons c rest =>
      by_cases hEqual : c = '='
      · rw [hEqual]
        rfl
      · simp [lexeme?, hEqual]

theorem eq_of_lexeme?_greater (h : Pattern.greater.lexeme? source = some lexeme) :
    lexeme = ['>'] ∨ lexeme = ['>', '='] := by
  cases source with
  | nil => exact absurd h nofun
  | cons c rest =>
      have hHere : c = '>' := eq_of_beq (Pattern.startsAt_of_lexeme? h)
      rw [hHere, Pattern.lexeme?_greater] at h
      rw [← Option.some.inj h]
      split
      · exact .inr rfl
      · exact .inl rfl

/-- A rule that matches has recognised a lexeme for its action. Of a mark this is
so because its two texts agree. -/
theorem Rule.meets {rule : Rule} (hPaired : rule.paired = true)
    (hMoves : rule.movesOverMark = true)
    (hLexeme : rule.pattern.lexeme? source = some lexeme) : rule.action.Meets lexeme := by
  obtain ⟨pattern, action⟩ := rule
  cases action with
  | skip => exact .skip
  | number => exact .number
  | word =>
      cases pattern with
      | word => exact .word (isWord_of_lexeme? hLexeme)
      | _ => exact absurd hPaired nofun
  | text =>
      cases pattern with
      | quoted =>
          obtain ⟨body, hBody, rfl⟩ := exists_body_of_lexeme? hLexeme
          exact .text hBody
      | _ => exact absurd hPaired nofun
  | emit t literal =>
      cases pattern with
      | fixed text =>
          obtain ⟨-, rfl⟩ := Pattern.lexeme?_fixed.1 hLexeme
          have hSame : literal.toList = text := eq_of_beq hMoves
          rw [← hSame]
          exact .emit hPaired
      | _ => exact absurd hPaired nofun
  | openAngle =>
      cases pattern with
      | fixed text =>
          obtain ⟨-, rfl⟩ := Pattern.lexeme?_fixed.1 hLexeme
          have hAngle : text = ['<'] := eq_of_beq hPaired
          rw [hAngle]
          exact .openAngle
      | _ => exact absurd hPaired nofun
  | closeAngle =>
      cases pattern with
      | greater =>
          rcases eq_of_lexeme?_greater hLexeme with rfl | rfl
          · exact .greater
          · exact .greaterEqual
      | _ => exact absurd hPaired nofun

/-- The lexeme at the head of a text is one for the action of its rule. -/
theorem meets_of_firstLexeme? (h : firstLexeme? source = some (action, lexeme)) :
    action.Meets lexeme := by
  obtain ⟨rule, hRule, rfl, hLexeme⟩ := exists_rule_of_firstLexeme? h
  exact rule.meets (rules_paired rule hRule) (rules_literal rule hRule) hLexeme

/-! ## From a spelled token to its rule -/

/-- A rule reads a text that it matches and that no rule before it matches. -/
theorem firstLexeme?_eq_some {before after : List Rule} {rule : Rule}
    (hRules : rules = before ++ rule :: after)
    (hBefore : ∀ earlier ∈ before, earlier.pattern.lexeme? source = none)
    (hLexeme : rule.pattern.lexeme? source = some lexeme) :
    firstLexeme? source = some (rule.action, lexeme) := by
  rw [firstLexeme?, List.findSome?_eq_some_iff]
  refine ⟨before, rule, after, hRules, ?_, ?_⟩
  · rw [hLexeme]
    rfl
  · intro earlier hEarlier
    rw [hBefore earlier hEarlier]
    rfl

/-- The characters by which a mark in front of them may grow into another mark
or into a comment. -/
def joinsMark (c : Char) : Bool := c == '=' || c == '+' || c == '-' || c == '>' || c == '/'

/-- Whether a spelling differs from a mark at some character, or goes on behind
the mark with a character that joins on to it. -/
def apartFrom : (spelling mark : List Char) → Bool
  | [], _ => false
  | c :: _, [] => joinsMark c
  | c :: spelling, d :: mark => c != d || apartFrom spelling mark

theorem isPrefixOf_of_apartFrom {spelling : List Char}
    (hApart : apartFrom spelling mark = true) (hEnds : Ends joinsMark rest) :
    spelling.isPrefixOf (mark ++ rest) = false := by
  induction spelling generalizing mark with
  | nil => exact absurd hApart (by rw [apartFrom]; decide)
  | cons c spelling ih =>
      cases mark with
      | nil =>
          have hJoins : joinsMark c = true := hApart
          cases rest with
          | nil => rfl
          | cons d rest =>
              have hOther : c ≠ d := by
                rintro rfl
                rw [hEnds c rfl] at hJoins
                exact absurd hJoins nofun
              rw [List.nil_append, List.isPrefixOf, beq_false_of_ne hOther, Bool.false_and]
      | cons d mark =>
          rw [List.cons_append, List.isPrefixOf]
          by_cases hEq : c = d
          · rw [apartFrom, hEq, bne_self_eq_false, Bool.false_or] at hApart
            rw [ih hApart, Bool.and_false]
          · rw [beq_false_of_ne hEq, Bool.false_and]

/-- Whether a pattern matches nothing that starts with a mark, unless a
character joins on to the mark. -/
def Pattern.apart (mark : List Char) : Pattern → Bool
  | .comment => apartFrom ['/', '/'] mark
  | .fixed spelling => apartFrom spelling mark
  | pattern => mark.head?.any fun c => !pattern.startsAt c

theorem Pattern.lexeme?_of_apart {pattern : Pattern} (hApart : pattern.apart mark = true)
    (hEnds : Ends joinsMark rest) : pattern.lexeme? (mark ++ rest) = none := by
  have hHead : (mark.head?.any fun c => !pattern.startsAt c) = true →
      pattern.lexeme? (mark ++ rest) = none := by
    intro hAny
    cases mark with
    | nil => exact absurd hAny nofun
    | cons c mark => exact lexeme?_of_startsAt (by simpa using hAny)
  cases pattern with
  | comment =>
      have hPrefix := isPrefixOf_of_apartFrom hApart hEnds
      rw [lexeme?.eq_def]
      split <;> simp_all
  | fixed spelling =>
      rw [lexeme?, isPrefixOf_of_apartFrom hApart hEnds, if_neg Bool.false_ne_true]
  | word | digits | blanks | quoted | greater => exact hHead hApart

/-- Whether a rule leaves the mark of a later rule alone. -/
def Rule.clearOf (earlier later : Rule) : Bool :=
  match later.pattern with
  | .fixed mark => earlier.pattern.apart mark
  | _ => true

/-- No rule takes away the mark of a rule behind it. -/
theorem rules_clearOf : rules.Pairwise (fun earlier later => earlier.clearOf later = true) := by
  decide

/-- A mark is read by its own rule if nothing joins on to it. -/
theorem firstLexeme?_fixed (hRule : ⟨.fixed mark, action⟩ ∈ rules)
    (hEnds : Ends joinsMark rest) :
    firstLexeme? (mark ++ rest) = some (action, mark) := by
  obtain ⟨before, after, hRules⟩ := List.append_of_mem hRule
  have hPairs := rules_clearOf
  rw [hRules, List.pairwise_append] at hPairs
  have hBefore : ∀ earlier ∈ before, earlier.pattern.lexeme? (mark ++ rest) = none := by
    intro earlier hEarlier
    exact earlier.pattern.lexeme?_of_apart (hPairs.2.2 earlier hEarlier _ List.mem_cons_self) hEnds
  have hLexeme : (Pattern.fixed mark).lexeme? (mark ++ rest) = some mark := by
    have hPrefix : mark.isPrefixOf (mark ++ rest) = true :=
      List.isPrefixOf_iff_prefix.2 (List.prefix_append mark rest)
    rw [Pattern.lexeme?, if_pos hPrefix]
  exact firstLexeme?_eq_some hRules hBefore hLexeme

/-- A rule reads a text if no rule before it has lexemes that start as the text
does. -/
theorem firstLexeme?_of_startsAt {before after : List Rule} {rule : Rule} {c : Char}
    (hRules : rules = before ++ rule :: after)
    (hBefore : ∀ earlier ∈ before, earlier.pattern.startsAt c = false)
    (hLexeme : rule.pattern.lexeme? (c :: rest) = some lexeme) :
    firstLexeme? (c :: rest) = some (rule.action, lexeme) :=
  firstLexeme?_eq_some hRules
    (fun earlier hEarlier => Pattern.lexeme?_of_startsAt (hBefore earlier hEarlier)) hLexeme

/-- A word is read whole. -/
theorem firstLexeme?_word (hWord : Text.isWord word = true)
    (hEnds : Ends Text.isWordChar rest) : firstLexeme? (word ++ rest) = some (.word, word) := by
  cases word with
  | nil => exact absurd hWord nofun
  | cons c word =>
      rw [Text.isWord, Bool.and_eq_true, List.all_eq_true] at hWord
      have hLexeme : Pattern.word.lexeme? (c :: (word ++ rest)) = some (c :: word) := by
        rw [Pattern.lexeme?, if_pos hWord.1, Text.takeWhile_append_ends hWord.2 hEnds]
      have hRules : rules = [] ++ ⟨.word, .word⟩ :: rules.drop 1 := rfl
      exact firstLexeme?_of_startsAt hRules nofun hLexeme

/-- A number is read whole. -/
theorem firstLexeme?_digits (hDigits : ∀ c ∈ digits, c.isDigit = true) (hSome : digits ≠ [])
    (hEnds : Ends Char.isDigit rest) :
    firstLexeme? (digits ++ rest) = some (.number, digits) := by
  obtain ⟨c, digits, rfl⟩ := List.exists_cons_of_ne_nil hSome
  rw [List.forall_mem_cons] at hDigits
  have hLexeme : Pattern.digits.lexeme? (c :: (digits ++ rest)) = some (c :: digits) := by
    rw [Pattern.lexeme?, if_pos hDigits.1, Text.takeWhile_append_ends hDigits.2 hEnds]
  have hRules : rules = [⟨.word, .word⟩] ++ ⟨.digits, .number⟩ :: rules.drop 2 := rfl
  refine firstLexeme?_of_startsAt hRules ?_ hLexeme
  intro earlier hEarlier
  rw [List.mem_singleton.1 hEarlier]
  exact Text.isWordStart_of_isDigit hDigits.1

/-- A text is read up to its closing quote. -/
theorem firstLexeme?_quoted (hBody : '\x22' ∉ body) :
    firstLexeme? ('\x22' :: (body ++ '\x22' :: rest)) =
      some (.text, '\x22' :: (body ++ ['\x22'])) := by
  have hLexeme : Pattern.quoted.lexeme? ('\x22' :: (body ++ '\x22' :: rest)) =
      some ('\x22' :: (body ++ ['\x22'])) := by
    have hClosed : '\x22' ∈ body ++ '\x22' :: rest := by simp
    rw [Pattern.lexeme?, if_pos hClosed, Text.takeWhile_ne_append hBody]
    rfl
  have hRules : rules = rules.take 4 ++ ⟨.quoted, .text⟩ :: rules.drop 5 := rfl
  exact firstLexeme?_of_startsAt hRules (by decide) hLexeme

/-- A blank is read with the blanks behind it. -/
theorem firstLexeme?_blank {c : Char} (h : isBlank c = true) :
    firstLexeme? (c :: rest) = some (.skip, c :: rest.takeWhile isBlank) := by
  have hLexeme : Pattern.blanks.lexeme? (c :: rest) = some (c :: rest.takeWhile isBlank) :=
    if_pos h
  have hRules : rules = rules.take 3 ++ ⟨.blanks, .skip⟩ :: rules.drop 4 := rfl
  refine firstLexeme?_of_startsAt hRules ?_ hLexeme
  simp only [isBlank, Bool.or_eq_true, beq_iff_eq] at h
  rcases h with (rfl | rfl) | rfl
  · decide
  · decide
  · decide

/-- A `>` is read with the `=` behind it, if there is one. -/
theorem firstLexeme?_greater :
    firstLexeme? ('>' :: rest) =
      some (.closeAngle, if rest.head? = some '=' then ['>', '='] else ['>']) := by
  have hRules : rules = rules.take 17 ++ ⟨.greater, .closeAngle⟩ :: rules.drop 18 := rfl
  exact firstLexeme?_of_startsAt hRules (by decide) Pattern.lexeme?_greater

end ScriptLang
