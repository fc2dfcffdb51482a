import ScriptLang.Proofs.Scanning.SourceText

/-!
# Where lexemes end

The text behind a lexeme decides whether the lexeme ends there, and it decides
by its first character alone. A line break is as good as the end of the text,
since no lexeme goes on over it but a text in quotes, whose end is seen inside
(`firstLexeme?_endsLike`).

So a text that is scanned up to some place is scanned in the same way when what
stands behind this place is taken away, or when a line break follows in its
stead (`Context.Scans.endsLike`). Every text is scanned to its end, or to a place
where no step is possible (`Context.exists_scans`).
-/

namespace ScriptLang

/-! ## What stands behind a lexeme -/

namespace Text

/-- What ends in front of `rest` ends in front of `rest'`, which is empty or
starts as `rest` does or with a line break. -/
def EndsLike (rest rest' : List Char) : Prop := ∀ c ∈ rest'.head?, c ∈ rest.head? ∨ c = '\n'

variable {p : Char → Bool} {rest rest' : List Char}

theorem EndsLike.refl (rest : List Char) : EndsLike rest rest := fun _ hc => .inl hc

theorem EndsLike.nil (rest : List Char) : EndsLike rest [] := nofun

theorem EndsLike.lineBreak (rest behind : List Char) : EndsLike rest ('\n' :: behind) := by
  rintro _ ⟨⟩
  exact .inr rfl

theorem EndsLike.trans {rest'' : List Char} (h : EndsLike rest rest')
    (h' : EndsLike rest' rest'') : EndsLike rest rest'' := by
  intro c hc
  rcases h' c hc with hSame | hBreak
  · exact h c hSame
  · exact .inr hBreak

theorem EndsLike.append (h : EndsLike rest rest') (text : List Char) :
    EndsLike (text ++ rest) (text ++ rest') := by
  cases text with
  | nil => exact h
  | cons c text => exact .refl (c :: text ++ rest)

theorem EndsLike.ends (h : EndsLike rest rest') (hBreak : p '\n' = false) (hEnds : Ends p rest) :
    Ends p rest' := by
  intro c hc
  rcases h c hc with hSame | rfl
  · exact hEnds c hSame
  · exact hBreak

/-- A run that was taken whole is taken whole again. -/
theorem EndsLike.takeWhile (h : EndsLike rest rest') (hBreak : p '\n' = false) {run : List Char}
    (hRun : (run ++ rest).takeWhile p = run) : (run ++ rest').takeWhile p = run := by
  have hEnds : Ends p rest := by
    have hDropped : (run ++ rest).dropWhile p = rest := by
      have hSplit := List.takeWhile_append_dropWhile (p := p) (l := run ++ rest)
      rw [hRun] at hSplit
      exact List.append_cancel_left hSplit
    rw [← hDropped]
    exact ends_dropWhile _
  refine takeWhile_append_ends ?_ (h.ends hBreak hEnds)
  rw [← hRun]
  exact List.all_eq_true.1 List.all_takeWhile

end Text

open Text (EndsLike)

variable {ctx : Context} {source taken behind rest rest' lexeme : List Char}
  {action : Action} {t : Token} {ts ts' : List Token} {token? : Option Token} {fault : ParseFault}
  {position : Nat}

/-! ## Lexemes that are taken up to a place -/

/-- A spelling has at most two characters, and the second is no line break. -/
def Pattern.isShort : Pattern → Bool
  | .fixed spelling => spelling.tail.all (· != '\n') && spelling.tail.tail.isEmpty
  | _ => true

theorem rules_isShort : ∀ rule ∈ rules, rule.pattern.isShort = true := by decide

/-- A spelling that does not stand in front of one text does not stand in front
of the other. -/
theorem isPrefixOf_endsLike {spelling : List Char} (hLike : EndsLike rest rest')
    (hShort : (Pattern.fixed spelling).isShort = true) (hSome : lexeme ≠ [])
    (h : spelling.isPrefixOf (lexeme ++ rest) = false) :
    spelling.isPrefixOf (lexeme ++ rest') = false := by
  obtain ⟨c, lexeme, rfl⟩ := List.exists_cons_of_ne_nil hSome
  rcases spelling with _ | ⟨d, _ | ⟨e, _ | ⟨f, spelling⟩⟩⟩
  · exact absurd h nofun
  · exact h
  · cases lexeme with
    | cons a lexeme => exact h
    | nil =>
        -- The second character of the spelling would be the first behind the lexeme.
        rw [Bool.eq_false_iff] at h ⊢
        intro hPrefix
        apply h
        obtain ⟨behind, hBehind⟩ := List.isPrefixOf_iff_prefix.1 hPrefix
        obtain ⟨rfl, hRest⟩ := List.cons.inj hBehind
        have hBreak : e ≠ '\n' := by simpa [Pattern.isShort] using hShort
        have hHead : e ∈ rest.head? := by
          refine (hLike e ?_).resolve_right hBreak
          have hRest' : e :: behind = rest' := hRest
          rw [← hRest']
          rfl
        obtain ⟨more, rfl⟩ := List.head?_eq_some_iff.1 hHead
        exact List.isPrefixOf_iff_prefix.2 ⟨more, rfl⟩
  · exact absurd hShort (by simp [Pattern.isShort])

theorem Pattern.lexeme?_comment : Pattern.comment.lexeme? source = some lexeme ↔
    ∃ line, source = '/' :: '/' :: line ∧
      lexeme = '/' :: '/' :: line.takeWhile (· != '\n') := by
  constructor
  · intro h
    unfold lexeme? at h
    split at h
    case h_5 line _ =>
      cases h
      exact ⟨line, rfl, rfl⟩
    all_goals contradiction
  · rintro ⟨line, rfl, rfl⟩
    rfl

theorem Pattern.lexeme?_comment_eq_none : Pattern.comment.lexeme? source = none ↔
    ['/', '/'].isPrefixOf source = false := by
  rw [Option.eq_none_iff_forall_ne_some, Bool.eq_false_iff]
  constructor
  · intro h hPrefix
    obtain ⟨line, rfl⟩ := List.isPrefixOf_iff_prefix.1 hPrefix
    exact h _ (lexeme?_comment.2 ⟨line, rfl, rfl⟩)
  · intro h lexeme hLexeme
    obtain ⟨line, rfl, -⟩ := lexeme?_comment.1 hLexeme
    exact h (List.isPrefixOf_iff_prefix.2 ⟨line, rfl⟩)

/-- A lexeme is recognised as before. -/
theorem Pattern.lexeme?_endsLike {pattern : Pattern} (hLike : EndsLike rest rest')
    (h : pattern.lexeme? (lexeme ++ rest) = some lexeme) (hSome : lexeme ≠ []) :
    pattern.lexeme? (lexeme ++ rest') = some lexeme := by
  obtain ⟨c, lexeme, rfl⟩ := List.exists_cons_of_ne_nil hSome
  have hRun : ∀ {p : Char → Bool} {start : Bool}, p '\n' = false →
      (if start = true then some (c :: (lexeme ++ rest).takeWhile p) else none) =
        some (c :: lexeme) →
      (if start = true then some (c :: (lexeme ++ rest').takeWhile p) else none) =
        some (c :: lexeme) := by
    intro p start hBreak hFound
    obtain ⟨hStart, hTaken⟩ := Option.ite_none_right_eq_some.1 hFound
    have hWhole : (lexeme ++ rest).takeWhile p = lexeme :=
      (List.cons.inj (Option.some.inj hTaken)).2
    rw [if_pos hStart, hLike.takeWhile hBreak hWhole]
  cases pattern with
  | word => exact hRun (by decide) h
  | digits => exact hRun (by decide) h
  | blanks => exact hRun (by decide) h
  | quoted =>
      obtain ⟨body, hBody, hLexeme⟩ := exists_body_of_lexeme? h
      rw [hLexeme]
      have hClosed : '\x22' ∈ body ++ '\x22' :: rest' := by simp
      have hShape : '\x22' :: (body ++ ['\x22']) ++ rest' =
          '\x22' :: (body ++ '\x22' :: rest') := by simp
      rw [hShape, lexeme?, if_pos hClosed, Text.takeWhile_ne_append hBody]
      rfl
  | comment =>
      obtain ⟨line, hSource, hLexeme⟩ := lexeme?_comment.1 h
      rw [hLexeme] at hSource ⊢
      have hLine : line.takeWhile (· != '\n') ++ rest = line :=
        (List.cons.inj (List.cons.inj hSource).2).2
      have hTaken : (line.takeWhile (· != '\n') ++ rest).takeWhile (· != '\n') =
          line.takeWhile (· != '\n') := by rw [hLine]
      have hAgain := hLike.takeWhile (by decide) hTaken
      exact lexeme?_comment.2 ⟨_, rfl, congrArg (fun taken => '/' :: '/' :: taken) hAgain.symm⟩
  | fixed spelling =>
      obtain ⟨-, rfl⟩ := lexeme?_fixed.1 h
      exact lexeme?_fixed.2 ⟨List.prefix_append _ _, rfl⟩
  | greater =>
      have hHere : c = '>' := eq_of_beq (startsAt_of_lexeme? h)
      rw [hHere, List.cons_append, lexeme?_greater] at h
      rw [hHere, List.cons_append, lexeme?_greater]
      by_cases hEqual : (lexeme ++ rest).head? = some '='
      · rw [if_pos hEqual] at h
        cases h
        rfl
      · rw [if_neg hEqual] at h
        cases h
        have hOther : rest'.head? ≠ some '=' := by
          intro hHead
          exact hEqual ((hLike '=' hHead).resolve_right (by decide))
        exact congrArg some (if_neg hOther)

/-- A pattern that did not match the one text does not match the other. Only a
closing quote may be behind the lexeme. -/
theorem Pattern.lexeme?_none_endsLike {pattern : Pattern} (hLike : EndsLike rest rest')
    (hShort : pattern.isShort = true) (h : pattern.lexeme? (lexeme ++ rest) = none)
    (hSome : lexeme ≠ []) (hQuote : pattern = .quoted → lexeme.head? ≠ some '\x22') :
    pattern.lexeme? (lexeme ++ rest') = none := by
  obtain ⟨c, lexeme, rfl⟩ := List.exists_cons_of_ne_nil hSome
  have hRun : ∀ {start : Bool} {x y : List Char},
      (if start = true then some x else none) = none →
      (if start = true then some y else none) = none := by
    intro start x y hNone
    cases start with
    | true => exact absurd hNone nofun
    | false => rfl
  cases pattern with
  | word => exact hRun h
  | digits => exact hRun h
  | blanks => exact hRun h
  | quoted =>
      have hOther : c ≠ '\x22' := by simpa using hQuote rfl
      exact lexeme?_of_startsAt (beq_false_of_ne hOther)
  | comment =>
      have hSlashes := lexeme?_comment_eq_none.1 h
      exact lexeme?_comment_eq_none.2 (isPrefixOf_endsLike hLike (by decide) hSome hSlashes)
  | fixed spelling =>
      have hPrefix : spelling.isPrefixOf (c :: lexeme ++ rest) = false := by
        rw [Bool.eq_false_iff]
        intro hPrefix
        rw [lexeme?, if_pos hPrefix] at h
        cases h
      rw [lexeme?, isPrefixOf_endsLike hLike hShort hSome hPrefix, if_neg Bool.false_ne_true]
  | greater =>
      refine lexeme?_of_startsAt (beq_false_of_ne ?_)
      rintro rfl
      rw [List.cons_append, lexeme?_greater] at h
      cases h

/-- Rules that read a lexeme which starts with a quote are alike. -/
theorem rules_quoted : ∀ rule ∈ rules, rule.pattern.startsAt '\x22' = true →
    rule.pattern = .quoted := by decide

/-- The lexeme at the head of a text is recognised in front of everything that
ends it in the same way. -/
theorem firstLexeme?_endsLike (hLike : EndsLike rest rest')
    (h : firstLexeme? (lexeme ++ rest) = some (action, lexeme)) :
    firstLexeme? (lexeme ++ rest') = some (action, lexeme) := by
  have hSome : lexeme ≠ [] := (firstLexeme?_taken h).2
  obtain ⟨before, rule, after, hRules, hFound, hBefore⟩ := List.findSome?_eq_some_iff.1 h
  obtain ⟨found, hLexeme, hPair⟩ := Option.map_eq_some_iff.1 hFound
  cases hPair
  refine firstLexeme?_eq_some hRules ?_ (Pattern.lexeme?_endsLike hLike hLexeme hSome)
  intro earlier hEarlier
  have hNone : earlier.pattern.lexeme? (lexeme ++ rest) = none :=
    Option.map_eq_none_iff.1 (hBefore earlier hEarlier)
  have hShort : earlier.pattern.isShort = true := rules_isShort earlier (by simp [hRules, hEarlier])
  refine Pattern.lexeme?_none_endsLike hLike hShort hNone hSome ?_
  -- A quote in front is read by one rule only, and that one has matched.
  intro hQuoted hHead
  obtain ⟨tail, rfl⟩ := List.head?_eq_some_iff.1 hHead
  have hSame := rules_quoted rule (by simp [hRules]) (Pattern.startsAt_of_lexeme? hLexeme)
  rw [hQuoted, ← hSame, hLexeme] at hNone
  exact absurd hNone nofun

/-! ## Lengths in bytes -/

theorem utf8ByteSize_ofList (text : List Char) :
    (String.ofList text).utf8ByteSize = byteLength text := by
  induction text with
  | nil => rfl
  | cons c text ih => simp [byteLength, ← ih]

/-! ## Steps -/

/-- No step is possible in front of the text: it starts with no lexeme, or with a
number that is too large. -/
inductive Stuck : List Char → ParseFault → Prop
  | unrecognised {c : Char} {rest : List Char} (hNone : firstLexeme? (c :: rest) = none) :
      Stuck (c :: rest) (.unrecognised c.toString)
  | large {source digits : List Char} (hFirst : firstLexeme? source = some (.number, digits))
      (hLarge : maxInt < digitsValue digits) : Stuck source (.number (String.ofList digits))

namespace Context

/-- One step takes `taken` from the front of a text, and it would do so in front
of everything that ends a lexeme as `rest` does. -/
def Takes (ctx : Context) (taken rest : List Char) (token? : Option Token) : Prop :=
  ∀ rest', EndsLike rest rest' → ctx.Steps taken rest' token?

/-- An action takes its portion of a lexeme from every text that ends the lexeme
alike. Where it leaves some of the lexeme, any text will do. -/
theorem Does.takes (hDoes : ctx.Does action lexeme token?)
    (hFirst : firstLexeme? (lexeme ++ rest) = some (action, lexeme)) :
    ∃ behind, lexeme = ctx.portion action lexeme ++ behind ∧
      ctx.Takes (ctx.portion action lexeme) (behind ++ rest) token? := by
  by_cases hWhole : ctx.portion action lexeme = lexeme
  · rw [hWhole]
    exact ⟨[], (List.append_nil _).symm, fun rest' hLike =>
      ⟨action, lexeme, firstLexeme?_endsLike hLike hFirst, hDoes, hWhole⟩⟩
  · obtain ⟨behind, hParts⟩ := ctx.portion_prefix hDoes.meets
    refine ⟨behind, hParts.symm, fun rest' _ => ?_⟩
    cases hDoes with
    | closeAngle _ hOpen =>
        rw [portion, if_pos hOpen]
        exact steps_closeAngle hOpen
    | greater hNone | greaterEqual hNone =>
        exact absurd (if_neg (Nat.not_lt.2 (Nat.le_of_eq hNone))) hWhole
    | _ => exact absurd rfl hWhole

/-- A text that is not empty has a front that is taken, or no step is possible in
front of it. -/
theorem takes_or_stuck (ctx : Context) (hSome : source ≠ []) :
    (∃ taken rest token?, source = taken ++ rest ∧ taken ≠ [] ∧ ctx.Takes taken rest token?) ∨
      ∃ fault, Stuck source fault := by
  cases hFirst : firstLexeme? source with
  | none =>
      obtain ⟨c, rest, rfl⟩ := List.exists_cons_of_ne_nil hSome
      exact .inr ⟨_, .unrecognised hFirst⟩
  | some found =>
      obtain ⟨action, lexeme⟩ := found
      obtain ⟨⟨rest, rfl⟩, hLexeme⟩ := firstLexeme?_taken hFirst
      rcases ctx.does_or_large (meets_of_firstLexeme? hFirst) with
        ⟨token?, hDoes⟩ | ⟨rfl, hLarge⟩
      · obtain ⟨behind, hParts, hTakes⟩ := hDoes.takes hFirst
        refine .inl ⟨_, behind ++ rest, token?, ?_, portion_ne_nil hLexeme, hTakes⟩
        rw [← List.append_assoc, ← hParts]
      · exact .inr ⟨_, .large hFirst hLarge⟩

/-- Where no step is possible, a step fails and leaves the scanner as it is. -/
theorem step_of_stuck (h : Stuck source fault) (position : Nat) :
    Scanner.step (ctx.scanner position source) =
      .error ⟨fault, position⟩ (ctx.scanner position source) := by
  cases h with
  | @unrecognised c rest hNone =>
      have hHere : firstLexeme? (ctx.scanner position (c :: rest)).rest = none := hNone
      rw [Scanner.step, hHere]
      rfl
  | large hFirst hLarge =>
      rw [Scanner.step_of_first hFirst]
      exact Scanner.act_of_large hLarge

/-! ## Runs -/

/-- Reading the text fails behind its first `offset` bytes. -/
def Fails (ctx : Context) (source : List Char) (fault : ParseFault) (offset : Nat) : Prop :=
  ∀ position bound, source.length ≤ bound → ∃ s,
    Scanner.run bound (ctx.scanner position source) = .error ⟨fault, position + offset⟩ s

namespace Fails

theorem of_stuck (h : Stuck source fault) : ctx.Fails source fault 0 := by
  intro position bound hBound
  have hSome : source ≠ [] := by
    rintro rfl
    have hNone : firstLexeme? [] = none := rfl
    cases h with
    | large hFirst _ =>
        rw [hNone] at hFirst
        exact absurd hFirst nofun
  have hLonger := List.length_pos_iff.2 hSome
  obtain ⟨bound, rfl⟩ : ∃ k, bound = k + 1 := ⟨bound - 1, by omega⟩
  have hNotEnd : ¬ (ctx.scanner position source).atEnd = true := by
    show ¬ source.isEmpty = true
    rwa [List.isEmpty_iff]
  refine ⟨ctx.scanner position source, ?_⟩
  rw [Scanner.run_succ, Scanner.runStep, if_neg hNotEnd, step_of_stuck h]
  rfl

/-- One step in front of a reading that fails. -/
theorem step {offset : Nat} (hStep : ctx.Steps taken rest token?)
    (hRest : (ctx.afterAll token?.toList).Fails rest fault offset) :
    ctx.Fails (taken ++ rest) fault (byteLength taken + offset) := by
  intro position bound hBound
  obtain ⟨bound', hCovers, hRun⟩ := run_of_steps hStep position hBound
  rw [hRun, ← Nat.add_assoc]
  exact hRest _ bound' hCovers

end Fails

/-- The text is scanned up to `rest` step by step, and its tokens are read. -/
inductive Scans (rest : List Char) : Context → List Char → List Token → Prop
  | stop {ctx : Context} : Scans rest ctx [] []
  | step {ctx : Context} {taken behind : List Char} {token? : Option Token} {ts : List Token}
      (hTakes : ctx.Takes taken (behind ++ rest) token?)
      (hMore : Scans rest (ctx.afterAll token?.toList) behind ts) :
      Scans rest ctx (taken ++ behind) (token?.toList ++ ts)

namespace Scans

/-- A text is scanned in the same way in front of everything that ends a lexeme
alike. -/
theorem endsLike (h : ctx.Scans rest taken ts) (hLike : EndsLike rest rest') :
    ctx.Scans rest' taken ts := by
  induction h with
  | stop => exact .stop
  | @step ctx taken behind token? ts hTakes hMore ih =>
      refine .step ?_ ih
      intro rest'' hLike'
      exact hTakes rest'' ((hLike.append behind).trans hLike')

/-- What is read behind the text is read behind its tokens. -/
theorem reads (h : ctx.Scans rest taken ts) (hRest : (ctx.afterAll ts).Reads rest ts') :
    ctx.Reads (taken ++ rest) (ts ++ ts') := by
  induction h with
  | stop => exact hRest
  | @step ctx taken behind token? ts hTakes hMore ih =>
      rw [afterAll_append] at hRest
      rw [List.append_assoc, List.append_assoc]
      exact .step (hTakes _ (.refl _)) (ih hRest)

/-- What fails behind the text fails there. -/
theorem fails {offset : Nat} (h : ctx.Scans rest taken ts)
    (hRest : (ctx.afterAll ts).Fails rest fault offset) :
    ctx.Fails (taken ++ rest) fault (byteLength taken + offset) := by
  induction h with
  | stop => rwa [List.nil_append, byteLength, Nat.zero_add]
  | @step ctx taken behind token? ts hTakes hMore ih =>
      rw [afterAll_append] at hRest
      rw [List.append_assoc, byteLength_append, Nat.add_assoc]
      exact .step (hTakes _ (.refl _)) (ih hRest)

end Scans

/-- A text is scanned to its end, or up to a place where no step is possible. -/
theorem exists_scans (source : List Char) (ctx : Context) :
    ∃ taken rest ts, source = taken ++ rest ∧ ctx.Scans rest taken ts ∧
      (rest = [] ∨ ∃ fault, Stuck rest fault) := by
  induction hLength : source.length using Nat.strongRecOn generalizing source ctx with
  | ind n ih =>
      subst hLength
      by_cases hNone : source = []
      · exact ⟨[], [], [], hNone, .stop, .inl rfl⟩
      · rcases ctx.takes_or_stuck hNone with ⟨taken, behind, token?, rfl, hTaken, hTakes⟩ | hStuck
        · have hShorter : behind.length < (taken ++ behind).length := by
            have hLonger := List.length_pos_iff.2 hTaken
            rw [List.length_append]
            omega
          obtain ⟨more, rest, ts, rfl, hScans, hEnd⟩ :=
            ih _ hShorter behind (ctx.afterAll token?.toList) rfl
          exact ⟨taken ++ more, rest, _, (List.append_assoc _ _ _).symm, .step hTakes hScans,
            hEnd⟩
        · exact ⟨[], source, [], rfl, .stop, .inr hStuck⟩

end Context

open Context

theorem tokenize_of_scans {source : String} (h : Context.start.Scans [] source.toList ts) :
    tokenize source = .ok ts := by
  have hReads := h.reads .nil
  rw [List.append_nil, List.append_nil] at hReads
  exact tokenize_of_reads hReads

theorem tokenize_of_fails {source : String} {offset : Nat}
    (h : Context.start.Fails source.toList fault offset) :
    tokenize source = .error ⟨fault, offset⟩ := by
  obtain ⟨s, hError⟩ := h 0 source.length (Nat.le_of_eq String.length_toList)
  have hRun : Scanner.run source.length (.start source) = .error ⟨fault, 0 + offset⟩ s := hError
  rw [tokenize, hRun, Nat.zero_add]
  rfl

/-- A source text is scanned to its end, or up to a place where no step is
possible. -/
theorem tokenize_cases (source : String) :
    (∃ ts, Context.start.Scans [] source.toList ts ∧ tokenize source = .ok ts) ∨
      ∃ taken rest ts fault, source.toList = taken ++ rest ∧ Context.start.Scans rest taken ts ∧
        Stuck rest fault ∧ tokenize source = .error ⟨fault, byteLength taken⟩ := by
  obtain ⟨taken, rest, ts, hSource, hScans, rfl | ⟨fault, hStuck⟩⟩ :=
    exists_scans source.toList .start
  · rw [List.append_nil] at hSource
    rw [← hSource] at hScans
    exact .inl ⟨ts, hScans, tokenize_of_scans hScans⟩
  · have hFails := hScans.fails (.of_stuck hStuck)
    rw [← hSource] at hFails
    exact .inr ⟨taken, rest, ts, fault, hSource, hScans, hStuck, tokenize_of_fails hFails⟩

end ScriptLang
