import ScriptLang.Proofs.Scanning.Faults

/-!
# The first match is the longest

The first rule that matches is taken, so the table has to put longer lexemes in
front of those they start with. Whether it does is decided over pairs of rules and
not over texts. Where a mark stands, an earlier rule that matches as well goes on
behind the mark (`rules_clearOf`); all other lexemes start with characters that no
earlier rule knows (`rules_startApart`).

`Pattern.Spells` says which texts a pattern describes, with no word about how a
lexeme is found. What is recognised is the longest of them at the head of a text
(`Pattern.lexeme?_eq_some_iff`), so the lexeme of the first match is as long as
anything that some pattern of the table describes there (`LongestMatch`).

A step takes this lexeme and adds one token at most, or it refuses a number and
leaves the scanner as it was (`first_match_longest`). That it moves on by as much as
was matched is a property of the table too: for a mark the distance is the length of
a second text, which agrees with the first (`rules_literal`). A whole source is
scanned by such steps alone (`tokenize_eq_ok_iff_munches`).
-/

namespace ScriptLang

variable {source lexeme other front mark rest : List Char} {action : Action} {rule : Rule}
  {ctx : Context} {c : Char} {ts : List Token}

/-! ## The texts that a pattern describes -/

namespace Pattern

variable {pattern earlier later : Pattern}

/-- The texts that a pattern describes. -/
inductive Spells : Pattern → List Char → Prop
  | word {text : List Char} (hWord : Text.isWord text = true) : Spells .word text
  | digits {text : List Char} (hSome : text ≠ []) (hDigits : ∀ c ∈ text, c.isDigit = true) :
      Spells .digits text
  | blanks {text : List Char} (hSome : text ≠ []) (hBlanks : ∀ c ∈ text, isBlank c = true) :
      Spells .blanks text
  | quoted {body : List Char} (hBody : '\x22' ∉ body) :
      Spells .quoted ('\x22' :: (body ++ ['\x22']))
  | comment {line : List Char} (hLine : '\n' ∉ line) : Spells .comment ('/' :: '/' :: line)
  | fixed {text : List Char} : Spells (.fixed text) text
  | greater : Spells .greater ['>']
  | greaterEqual : Spells .greater ['>', '=']

theorem spells_of_lexeme? (h : pattern.lexeme? source = some lexeme) : pattern.Spells lexeme := by
  cases pattern with
  | word => exact .word (isWord_of_lexeme? h)
  | digits =>
      obtain ⟨_, _, hSome, hDigits, _⟩ := digits_of_lexeme? h
      exact .digits hSome hDigits
  | blanks =>
      cases source with
      | nil => exact absurd h nofun
      | cons c rest =>
          obtain ⟨hBlank, hLexeme⟩ := Option.ite_none_right_eq_some.1 h
          have hRun : c :: rest.takeWhile isBlank = lexeme := Option.some.inj hLexeme
          rw [← hRun]
          refine .blanks (List.cons_ne_nil _ _) (List.forall_mem_cons.2 ⟨hBlank, ?_⟩)
          exact List.all_eq_true.1 List.all_takeWhile
  | quoted =>
      obtain ⟨body, hBody, rfl⟩ := exists_body_of_lexeme? h
      exact .quoted hBody
  | comment =>
      obtain ⟨line, -, rfl⟩ := lexeme?_comment.1 h
      refine .comment fun hBreak => ?_
      exact absurd (List.all_eq_true.1 List.all_takeWhile _ hBreak) (by decide)
  | fixed spelling =>
      obtain ⟨-, rfl⟩ := lexeme?_fixed.1 h
      exact .fixed
  | greater =>
      cases source with
      | nil => exact absurd h nofun
      | cons c rest =>
          have hHere : c = '>' := eq_of_beq (startsAt_of_lexeme? h)
          rw [hHere, lexeme?_greater] at h
          rw [← Option.some.inj h]
          split
          · exact .greaterEqual
          · exact .greater

/-- A text at the head of a source is described by a pattern only if the pattern
matches there, and recognises as much at least. -/
theorem Spells.exists_lexeme? (h : pattern.Spells front) (rest : List Char) :
    ∃ lexeme, pattern.lexeme? (front ++ rest) = some lexeme ∧ front <+: lexeme := by
  have hRun : ∀ {p : Char → Bool} {c : Char} {run : List Char}, (∀ d ∈ run, p d = true) →
      c :: run <+: c :: (run ++ rest).takeWhile p := by
    intro p c run hAll
    rw [List.takeWhile_append_of_pos hAll]
    exact (List.prefix_cons_inj c).2 (List.prefix_append _ _)
  cases h with
  | word hWord =>
      cases front with
      | nil => exact absurd hWord nofun
      | cons c word =>
          rw [Text.isWord, Bool.and_eq_true, List.all_eq_true] at hWord
          exact ⟨_, if_pos hWord.1, hRun hWord.2⟩
  | digits hSome hDigits =>
      obtain ⟨c, digits, rfl⟩ := List.exists_cons_of_ne_nil hSome
      rw [List.forall_mem_cons] at hDigits
      exact ⟨_, if_pos hDigits.1, hRun hDigits.2⟩
  | blanks hSome hBlanks =>
      obtain ⟨c, blanks, rfl⟩ := List.exists_cons_of_ne_nil hSome
      rw [List.forall_mem_cons] at hBlanks
      exact ⟨_, if_pos hBlanks.1, hRun hBlanks.2⟩
  | @quoted body hBody =>
      have hClosed : '\x22' ∈ body ++ ['\x22'] ++ rest := by simp
      have hTaken : (body ++ ['\x22'] ++ rest).takeWhile (· != '\x22') = body := by
        rw [List.append_assoc]
        exact Text.takeWhile_ne_append hBody
      refine ⟨'\x22' :: (body ++ ['\x22']), ?_, List.prefix_rfl⟩
      rw [List.cons_append, lexeme?, if_pos hClosed, hTaken]
      rfl
  | @comment line hLine =>
      have hLineRun : ∀ d ∈ '/' :: line, (d != '\n') = true := by
        intro d hd
        rw [bne_iff_ne]
        rintro rfl
        exact hLine ((List.mem_cons.1 hd).resolve_left (by decide))
      exact ⟨_, rfl, hRun hLineRun⟩
  | fixed => exact ⟨front, lexeme?_fixed.2 ⟨List.prefix_append _ _, rfl⟩, List.prefix_rfl⟩
  | greater =>
      refine ⟨_, lexeme?_greater, ?_⟩
      split
      · exact ⟨['='], rfl⟩
      · exact List.prefix_rfl
  | greaterEqual => exact ⟨_, rfl, List.prefix_rfl⟩

/-- A pattern recognises the longest text that it describes at the head of a
source. -/
theorem lexeme?_eq_some_iff : pattern.lexeme? source = some lexeme ↔
    pattern.Spells lexeme ∧ lexeme <+: source ∧
      ∀ front, pattern.Spells front → front <+: source → front <+: lexeme := by
  have hLongest : ∀ {lexeme}, pattern.lexeme? source = some lexeme →
      ∀ front, pattern.Spells front → front <+: source → front <+: lexeme := by
    rintro lexeme h front hSpells ⟨rest, rfl⟩
    obtain ⟨found, hFound, hPrefix⟩ := hSpells.exists_lexeme? rest
    rw [h] at hFound
    rwa [Option.some.inj hFound]
  constructor
  · intro h
    exact ⟨spells_of_lexeme? h, (lexeme?_taken h).1, hLongest h⟩
  · rintro ⟨hSpells, ⟨rest, rfl⟩, hMost⟩
    obtain ⟨found, hFound, hPrefix⟩ := hSpells.exists_lexeme? rest
    have hBack : found <+: lexeme :=
      hMost found (spells_of_lexeme? hFound) (lexeme?_taken hFound).1
    rw [hFound, hBack.eq_of_length_le hPrefix.length_le]

/-! ## The order of the table -/

/-- A mark and a spelling that is apart from it stand at the same place only if the
spelling goes on behind the mark. -/
theorem prefix_of_apartFrom {spelling : List Char} (hApart : apartFrom spelling mark = true)
    (hSpelling : spelling <+: source) (hMark : mark <+: source) : mark <+: spelling := by
  obtain ⟨rest, rfl⟩ := hSpelling
  induction spelling generalizing mark with
  | nil => exact absurd hApart (by rw [apartFrom]; decide)
  | cons c spelling ih =>
      cases mark with
      | nil => exact List.nil_prefix
      | cons d mark =>
          obtain ⟨hHead, hTail⟩ := List.cons_prefix_cons.1 hMark
          rw [apartFrom, hHead, bne_self_eq_false, Bool.false_or] at hApart
          exact List.cons_prefix_cons.2 ⟨hHead, ih hApart hTail⟩

/-- Where a mark stands, a pattern that is apart from it recognises the mark and
more, if it matches at all. -/
theorem prefix_of_apart (hApart : pattern.apart mark = true)
    (hLexeme : pattern.lexeme? source = some lexeme) (hMark : mark <+: source) :
    mark <+: lexeme := by
  have hHead : (mark.head?.any fun c => !pattern.startsAt c) = true → mark <+: lexeme := by
    intro hAny
    cases mark with
    | nil => exact List.nil_prefix
    | cons c mark =>
        obtain ⟨rest, rfl⟩ := hMark
        have hStarts := startsAt_of_lexeme? hLexeme
        simp [hStarts] at hAny
  cases pattern with
  | comment =>
      obtain ⟨line, rfl, rfl⟩ := lexeme?_comment.1 hLexeme
      have hSlashes : mark <+: ['/', '/'] := prefix_of_apartFrom hApart ⟨line, rfl⟩ hMark
      exact hSlashes.trans ⟨_, rfl⟩
  | fixed spelling =>
      obtain ⟨hSpelling, rfl⟩ := lexeme?_fixed.1 hLexeme
      exact prefix_of_apartFrom hApart hSpelling hMark
  | word | digits | blanks | quoted | greater => exact hHead hApart

/-- Whether the later pattern has first characters of its own, which start no
lexeme of the earlier. Words need no case, since they come first in the table, and
of marks nothing is asked, since they may share their starts. -/
def startsApart (earlier : Pattern) : (later : Pattern) → Bool
  | .word => false
  | .digits => earlier == .word
  | .blanks => [' ', '\t', '\r'].all fun c => !earlier.startsAt c
  | .quoted => !earlier.startsAt '\x22'
  | .comment => !earlier.startsAt '/'
  | .greater => !earlier.startsAt '>'
  | .fixed _ => true

theorem startsAt_of_startsApart (hApart : earlier.startsApart later = true)
    (hOther : ∀ mark, later ≠ .fixed mark) (hStarts : later.startsAt c = true) :
    earlier.startsAt c = false := by
  cases later with
  | word => exact absurd hApart Bool.false_ne_true
  | digits =>
      have hWord : earlier = .word := eq_of_beq hApart
      rw [hWord]
      exact Text.isWordStart_of_isDigit hStarts
  | blanks =>
      simp only [startsApart, List.all_cons, List.all_nil, Bool.and_true, Bool.and_eq_true,
        Bool.not_eq_true'] at hApart
      simp only [startsAt, isBlank, Bool.or_eq_true, beq_iff_eq] at hStarts
      rcases hStarts with (rfl | rfl) | rfl
      · exact hApart.1
      · exact hApart.2.1
      · exact hApart.2.2
  | quoted | comment | greater =>
      have hHere := eq_of_beq hStarts
      rw [hHere]
      simpa only [startsApart, Bool.not_eq_true'] using hApart
  | fixed mark => exact absurd rfl (hOther mark)

end Pattern

/-- Only marks start as a lexeme of a rule in front of them does. -/
theorem rules_startApart : rules.Pairwise fun earlier later =>
    earlier.pattern.startsApart later.pattern = true := by
  decide

/-- What a rule recognises where an earlier one has matched is a front of what the
earlier one recognised. -/
theorem Rule.prefix_of_earlier {earlier later : Rule} (hClear : earlier.clearOf later = true)
    (hApart : earlier.pattern.startsApart later.pattern = true)
    (hLexeme : earlier.pattern.lexeme? source = some lexeme)
    (hOther : later.pattern.lexeme? source = some other) : other <+: lexeme := by
  obtain ⟨pattern, action⟩ := later
  by_cases hFixed : ∃ mark, pattern = .fixed mark
  · obtain ⟨mark, rfl⟩ := hFixed
    obtain ⟨hMark, rfl⟩ := Pattern.lexeme?_fixed.1 hOther
    exact Pattern.prefix_of_apart hClear hLexeme hMark
  · have hOtherFixed : ∀ mark, pattern ≠ .fixed mark := fun mark hMark => hFixed ⟨mark, hMark⟩
    obtain ⟨hTaken, hSome⟩ := Pattern.lexeme?_taken hOther
    have hSource : source ≠ [] := by
      rintro rfl
      exact hSome (hOtherFixed []) (List.prefix_nil.1 hTaken)
    obtain ⟨c, rest, rfl⟩ := List.exists_cons_of_ne_nil hSource
    have hNone := Pattern.startsAt_of_startsApart hApart hOtherFixed
      (Pattern.startsAt_of_lexeme? hOther)
    rw [Pattern.lexeme?_of_startsAt hNone] at hLexeme
    exact absurd hLexeme nofun

/-! ## The first match -/

/-- The first rule of the table that matches at the head of a source, with its
lexeme. Nothing that a rule recognises there is longer, and nothing that the
pattern of a rule describes. -/
structure LongestMatch (source : List Char) (first : Rule) (lexeme : List Char) : Prop where
  found : rules.find? (fun rule => (rule.pattern.lexeme? source).isSome) = some first
  recognised : first.pattern.lexeme? source = some lexeme
  nonempty : lexeme ≠ []
  longest : ∀ rule ∈ rules, ∀ other, rule.pattern.lexeme? source = some other →
    other <+: lexeme
  maximal : ∀ rule ∈ rules, ∀ front, rule.pattern.Spells front → front <+: source →
    front <+: lexeme

/-- The lexeme of the first match is as long as that of any other. -/
theorem prefix_of_first {before after : List Rule} {first : Rule}
    (hRules : rules = before ++ first :: after)
    (hBefore : ∀ earlier ∈ before, earlier.pattern.lexeme? source = none)
    (hLexeme : first.pattern.lexeme? source = some lexeme)
    (hRule : rule ∈ rules) (hOther : rule.pattern.lexeme? source = some other) :
    other <+: lexeme := by
  have hClear := rules_clearOf
  have hApart := rules_startApart
  rw [hRules, List.pairwise_append, List.pairwise_cons] at hClear hApart
  rw [hRules, List.mem_append, List.mem_cons] at hRule
  rcases hRule with hEarlier | rfl | hLater
  · rw [hBefore rule hEarlier] at hOther
    exact absurd hOther nofun
  · obtain rfl : lexeme = other := Option.some.inj (hLexeme.symm.trans hOther)
    exact List.prefix_rfl
  · exact Rule.prefix_of_earlier (hClear.2.1.1 rule hLater) (hApart.2.1.1 rule hLater) hLexeme
      hOther

/-- The rule that reads the head of a source is the first that matches there, and
its lexeme is the longest. -/
theorem longestMatch_of_firstLexeme? (h : firstLexeme? source = some (action, lexeme)) :
    ∃ first, first.action = action ∧ LongestMatch source first lexeme := by
  obtain ⟨before, first, after, hRules, hFound, hMissed⟩ := List.findSome?_eq_some_iff.1 h
  obtain ⟨found, hLexeme, hPair⟩ := Option.map_eq_some_iff.1 hFound
  cases hPair
  have hBefore : ∀ earlier ∈ before, earlier.pattern.lexeme? source = none :=
    fun earlier hEarlier => Option.map_eq_none_iff.1 (hMissed earlier hEarlier)
  have hLongest : ∀ rule ∈ rules, ∀ other, rule.pattern.lexeme? source = some other →
      other <+: lexeme :=
    fun rule hRule other hOther => prefix_of_first hRules hBefore hLexeme hRule hOther
  refine ⟨first, rfl, ?_, hLexeme, (firstLexeme?_taken h).2, hLongest, ?_⟩
  · rw [List.find?_eq_some_iff_append]
    refine ⟨by rw [hLexeme]; rfl, before, after, hRules, fun earlier hEarlier => ?_⟩
    rw [hBefore earlier hEarlier]
    rfl
  · rintro rule hRule front hSpells ⟨rest, rfl⟩
    obtain ⟨other, hOther, hFront⟩ := hSpells.exists_lexeme? rest
    exact hFront.trans (hLongest rule hRule other hOther)

/-! ## Steps over longest matches -/

/-- The text is scanned to its end, each step over its portion of the longest match
at its place, and the tokens are read. -/
inductive Context.Munches : Context → List Char → List Token → Prop
  | done {ctx : Context} : Munches ctx [] []
  | step {ctx : Context} {first : Rule} {lexeme rest : List Char} {token? : Option Token}
      {ts : List Token}
      (hMatch : LongestMatch (ctx.portion first.action lexeme ++ rest) first lexeme)
      (hDoes : ctx.Does first.action lexeme token?)
      (hMore : Munches (ctx.afterAll token?.toList) rest ts) :
      Munches ctx (ctx.portion first.action lexeme ++ rest) (token?.toList ++ ts)

/-- The first match is the lexeme that a step is about. -/
theorem LongestMatch.firstLexeme?_eq {first : Rule} (h : LongestMatch source first lexeme) :
    firstLexeme? source = some (first.action, lexeme) := by
  obtain ⟨-, before, after, hRules, hBefore⟩ := List.find?_eq_some_iff_append.1 h.found
  refine firstLexeme?_eq_some hRules (fun earlier hEarlier => ?_) h.recognised
  simpa using hBefore earlier hEarlier

namespace Context

theorem Munches.reads (h : ctx.Munches source ts) : ctx.Reads source ts := by
  induction h with
  | done => exact .nil
  | step hMatch hDoes hMore ih =>
      exact .step ⟨_, _, hMatch.firstLexeme?_eq, hDoes, rfl⟩ ih

theorem Scans.munches (h : ctx.Scans [] source ts) : ctx.Munches source ts := by
  induction h with
  | stop => exact .done
  | @step ctx taken behind token? ts hTakes hMore ih =>
      rw [List.append_nil] at hTakes
      obtain ⟨action, lexeme, hFirst, hDoes, rfl⟩ := hTakes behind (.refl _)
      obtain ⟨first, rfl, hMatch⟩ := longestMatch_of_firstLexeme? hFirst
      exact .step hMatch hDoes ih

end Context

/-- The tokens of a source are those read by steps over longest matches, from its
start to its end. -/
theorem tokenize_eq_ok_iff_munches {source : String} :
    tokenize source = .ok ts ↔ Context.start.Munches source.toList ts := by
  constructor
  · intro h
    rcases tokenize_cases source with ⟨ts', hScans, hOk⟩ | ⟨_, _, _, _, _, _, _, hError⟩
    · obtain rfl := Except.ok.inj (h.symm.trans hOk)
      exact hScans.munches
    · rw [h] at hError
      exact absurd hError nofun
  · exact fun h => tokenize_of_reads h.reads

theorem rules_digits : ∀ rule ∈ rules, rule.pattern = .digits → rule.action = .number := by
  decide

/-- A first match is taken whole, but for a `>=` while an angle bracket is open. -/
theorem Context.portion_eq (ctx : Context)
    (hFirst : firstLexeme? source = some (action, lexeme)) :
    ctx.portion action lexeme =
      if lexeme = ['>', '='] ∧ 0 < ctx.depth then ['>'] else lexeme := by
  by_cases hAngle : action = .closeAngle
  · subst hAngle
    rw [portion]
    cases meets_of_firstLexeme? hFirst with
    | greater =>
        have hAlone : ¬ (['>'] = ['>', '='] ∧ 0 < ctx.depth) := fun hEqual =>
          absurd hEqual.1 (by decide)
        rw [if_neg hAlone, ite_self]
    | greaterEqual => exact if_congr (iff_and_self.2 fun _ => rfl) rfl rfl
  · have hOther : lexeme ≠ ['>', '='] := by
      rintro rfl
      obtain ⟨rest, rfl⟩ := (firstLexeme?_taken hFirst).1
      have hGreater : firstLexeme? ('>' :: '=' :: rest) = _ := firstLexeme?_greater
      exact hAngle (Prod.mk.inj (Option.some.inj (hFirst.symm.trans hGreater))).1
    rw [if_neg fun hEqual => hOther hEqual.1]
    cases action with
    | closeAngle => exact absurd rfl hAngle
    | _ => rfl

/-- Behind a text in front of which the scanner stands is the rest of the source. -/
theorem Scanner.behind_rest {s : Scanner} {taken : List Char} (token? : Option Token)
    (hWhole : s.within = 0) (hRest : s.rest = taken ++ rest) :
    (s.behind taken token?).rest = rest ∧ (s.behind taken token?).within = 0 := by
  have hDropped : dropBytes (s.within + byteLength taken) s.rest = (0, rest) := by
    rw [hWhole, hRest, Nat.zero_add, dropBytes_byteLength]
  rw [behind, advance, hDropped]
  exact ⟨rfl, rfl⟩

/-- Where any rule matches, the first that does has the longest match. Its action
either refuses a number and leaves the scanner as it was, or moves on by as many
bytes as the match has and reads one token at most. Of a `>=` it takes the `>` while
an angle bracket is open. -/
theorem first_match_longest {s : Scanner} (hWhole : s.within = 0) (hRule : rule ∈ rules)
    (hMatch : rule.pattern.lexeme? s.rest ≠ none) :
    ∃ first lexeme, LongestMatch s.rest first lexeme ∧
      Scanner.step s = Scanner.act lexeme first.action s ∧
      ((first.pattern = .digits ∧ 2147483647 < digitsValue lexeme ∧
          Scanner.step s = .error ⟨.number (String.ofList lexeme), s.position⟩ s) ∨
        (¬ (first.pattern = .digits ∧ 2147483647 < digitsValue lexeme) ∧
          ∃ (taken rest : List Char) (token? : Option Token) (next : Scanner),
            taken = (if lexeme = ['>', '='] ∧ 0 < s.depth then ['>'] else lexeme) ∧
            s.rest = taken ++ rest ∧ Scanner.step s = .ok () next ∧
            next.position = s.position + byteLength taken ∧ next.rest = rest ∧
            next.within = 0 ∧ next.tokens.toList = s.tokens.toList ++ token?.toList)) := by
  have hSome : firstLexeme? s.rest ≠ none := fun hNone =>
    hMatch (firstLexeme?_eq_none.1 hNone rule hRule)
  obtain ⟨⟨action, lexeme⟩, hFirst⟩ := Option.ne_none_iff_exists'.1 hSome
  obtain ⟨first, rfl, hLongest⟩ := longestMatch_of_firstLexeme? hFirst
  have hTable : first ∈ rules := List.mem_of_find?_eq_some hLongest.found
  have hStep := Scanner.step_of_first hFirst
  have hMeets := meets_of_firstLexeme? hFirst
  refine ⟨first, lexeme, hLongest, hStep, ?_⟩
  rcases s.context.does_or_large hMeets with ⟨token?, hDoes⟩ | ⟨hNumber, hLarge⟩
  · have hFits : ¬ (first.pattern = .digits ∧ 2147483647 < digitsValue lexeme) := by
      rintro ⟨hDigits, hLarge⟩
      rw [rules_digits first hTable hDigits] at hDoes
      cases hDoes with
      | number hFits => exact absurd hLarge (Nat.not_lt.2 hFits)
    obtain ⟨rest, hRest⟩ := (s.context.portion_prefix hMeets).trans (firstLexeme?_taken hFirst).1
    obtain ⟨hBehind, hUncut⟩ := Scanner.behind_rest token? hWhole hRest.symm
    refine .inr ⟨hFits, _, rest, token?, _, s.context.portion_eq hFirst, hRest.symm,
      hStep.trans (Scanner.act_eq hDoes), rfl, hBehind, hUncut, ?_⟩
    exact Context.tokens_afterAll
  · refine .inl ⟨rules_number first hTable hNumber, hLarge, ?_⟩
    rw [hStep, hNumber]
    exact Scanner.act_of_large hLarge

/-- Three rules match at the slashes, and the first of them takes the line with its
character of two bytes. No token is read. -/
theorem longest_match_at_slashes :
    let s : Scanner := ⟨2, ['/', '/', '=', 'é', '\n', '2'], 0, #[.int 8], 0⟩
    let division : Rule := .mark "/" (.infixMark (.binary (.arithmetic .divide))) "/"
    s.within = 0 ∧ division ∈ rules ∧ division.pattern.lexeme? s.rest ≠ none ∧
      LongestMatch s.rest ⟨.comment, .skip⟩ ['/', '/', '=', 'é'] ∧
      Scanner.step s = .ok () ⟨7, ['\n', '2'], 0, #[.int 8], 0⟩ := by
  intro s division
  have hRule : division ∈ rules := by decide
  have hMatch : division.pattern.lexeme? s.rest ≠ none := by decide
  obtain ⟨first, lexeme, hLongest, -, -⟩ := first_match_longest (s := s) rfl hRule hMatch
  have hFirst : first = ⟨.comment, .skip⟩ := Option.some.inj (hLongest.found.symm.trans (by decide))
  subst hFirst
  have hLine : lexeme = ['/', '/', '=', 'é'] :=
    Option.some.inj (hLongest.recognised.symm.trans (by decide))
  subst hLine
  exact ⟨rfl, hRule, hMatch, hLongest, rfl⟩

/-- While an angle bracket is open, the `=` of a `>=` is left for the next step; and a
number that is too large leaves everything as it was. -/
example :
    Scanner.step ⟨0, ['>', '='], 0, #[], 1⟩ =
        .ok () ⟨1, ['='], 0, #[.bracket .closeAngle], 0⟩ ∧
      (Scanner.step ⟨0, "2147483648".toList, 0, #[], 1⟩ =
        .error ⟨.number "2147483648", 0⟩ ⟨0, "2147483648".toList, 0, #[], 1⟩) :=
  ⟨rfl, rfl⟩

end ScriptLang
