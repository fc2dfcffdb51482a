import ScriptLang.Proofs.Recursion
import ScriptLang.Proofs.Scanning.Context

/-!
# What scanning takes from a source text

Every lexeme is a part of the source text from the place of the scanner on, and
is not empty. So each step shortens what is left (`step_shorter`), the scanner
comes to the end of its source (`run_recursion`), and what a text token holds is
shorter than the source by its two quotes (`length_of_tokenize`).
-/

namespace ScriptLang

variable {source lexeme text : List Char} {action : Action} {contents : String}

/-! ## Lexemes -/

theorem Pattern.lexeme?_taken {pattern : Pattern} (h : pattern.lexeme? source = some lexeme) :
    lexeme <+: source ∧ (pattern ≠ .fixed [] → lexeme ≠ []) := by
  have hRun : ∀ (c : Char) (rest : List Char) (p : Char → Bool),
      c :: rest.takeWhile p <+: c :: rest := fun c rest p =>
    (List.prefix_cons_inj c).2 (List.takeWhile_prefix p)
  -- Words, numbers and blanks are runs behind a first character.
  have hClass : ∀ {c : Char} {rest : List Char} {first : Bool} {p : Char → Bool},
      (if first then some (c :: rest.takeWhile p) else none) = some lexeme →
        lexeme <+: c :: rest ∧ (pattern ≠ .fixed [] → lexeme ≠ []) := by
    intro c rest first p hFound
    obtain ⟨-, hLexeme⟩ := Option.ite_none_right_eq_some.1 hFound
    rw [← Option.some.inj hLexeme]
    exact ⟨hRun c rest p, fun _ => List.cons_ne_nil _ _⟩
  unfold lexeme? at h
  split at h
  · exact hClass h
  · exact hClass h
  · exact hClass h
  · next rest =>
      obtain ⟨hClosed, hLexeme⟩ := Option.ite_none_right_eq_some.1 h
      obtain ⟨body, behind, rfl, hBody⟩ := List.eq_append_cons_of_mem hClosed
      rw [Text.takeWhile_ne_append hBody] at hLexeme
      cases hLexeme
      exact ⟨⟨behind, by simp⟩, fun _ => nofun⟩
  · next rest =>
      cases h
      exact ⟨(List.prefix_cons_inj _).2 (hRun '/' rest _), fun _ => nofun⟩
  · next spelling =>
      obtain ⟨hPrefix, rfl⟩ := lexeme?_fixed.1 h
      refine ⟨hPrefix, ?_⟩
      rintro hSpelled rfl
      exact hSpelled rfl
  · next behind =>
      cases h
      exact ⟨⟨behind, rfl⟩, fun _ => nofun⟩
  · next behind _ =>
      cases h
      exact ⟨⟨behind, rfl⟩, fun _ => nofun⟩
  · exact absurd h nofun

theorem rules_ne_fixed_nil : ∀ rule ∈ rules, rule.pattern ≠ .fixed [] := by decide

/-- A lexeme is a part of the text in front of which the scanner stands, and it is
not empty. -/
theorem firstLexeme?_taken (h : firstLexeme? source = some (action, lexeme)) :
    lexeme <+: source ∧ lexeme ≠ [] := by
  obtain ⟨rule, hRule, rfl, hLexeme⟩ := exists_rule_of_firstLexeme? h
  obtain ⟨hPrefix, hSome⟩ := Pattern.lexeme?_taken hLexeme
  exact ⟨hPrefix, hSome (rules_ne_fixed_nil rule hRule)⟩

/-! ## Steps and runs -/

theorem length_dropBytes_le (n : Nat) (text : List Char) :
    (dropBytes n text).2.length ≤ text.length := by
  induction text generalizing n with
  | nil => exact Nat.le_refl _
  | cons c rest ih =>
      rw [dropBytes]
      split
      · exact Nat.le_succ_of_le (ih _)
      · exact Nat.le_refl _

theorem length_unescape_le (text : List Char) : (unescape text).length ≤ text.length := by
  fun_induction unescape text with
  | case1 => exact Nat.le_refl _
  | _ => simp only [List.length_cons]; omega

/-- A text is shorter than its lexeme by the quotes. -/
theorem Context.Does.length_text {ctx : Context}
    (h : ctx.Does action lexeme (some (.text contents))) :
    contents.length + 2 ≤ lexeme.length := by
  generalize hRead : some (Token.text contents) = token? at h
  cases h with
  | word hWord => exact absurd (Option.some.inj hRead).symm Token.ofWord_ne_text
  | @text body hBody =>
      cases hRead
      have hLength := length_unescape_le body
      rw [String.length_ofList]
      simp only [List.length_cons, List.length_append, List.length_nil]
      omega
  | emit hMark =>
      cases hRead
      exact absurd hMark nofun
  | _ => exact absurd hRead nofun

namespace Scanner

variable {s s' : Scanner} {bound : Nat}

/-- Moving on over a text that starts with the current character shortens what is
left. -/
theorem length_advance_lt {taken : List Char} (hTaken : taken <+: s.rest) (hSome : taken ≠ []) :
    (s.advance (byteLength taken)).rest.length < s.rest.length := by
  obtain ⟨c, more, rfl⟩ := List.exists_cons_of_ne_nil hSome
  obtain ⟨rest, hRest⟩ := hTaken
  have hSize : c.utf8Size ≤ s.within + byteLength (c :: more) := by
    rw [byteLength]
    omega
  show (dropBytes (s.within + byteLength (c :: more)) s.rest).2.length < s.rest.length
  rw [← hRest, List.cons_append, dropBytes, if_pos hSize]
  exact Nat.lt_succ_of_le (length_dropBytes_le _ _)

/-- Behind its portion of a lexeme, a scanner has less in front of it. -/
theorem length_behind_lt {token? : Option Token}
    (hFirst : firstLexeme? s.rest = some (action, lexeme))
    (hDoes : s.context.Does action lexeme token?) :
    (s.behind (s.context.portion action lexeme) token?).rest.length < s.rest.length := by
  obtain ⟨hPrefix, hSome⟩ := firstLexeme?_taken hFirst
  have hTaken := (s.context.portion_prefix hDoes.meets).trans hPrefix
  exact length_advance_lt hTaken (Context.portion_ne_nil hSome)

/-- A step shortens what is left. -/
theorem step_shorter (h : step s = .ok () s') : s'.rest.length < s.rest.length := by
  obtain ⟨action, lexeme, token?, hFirst, hDoes, rfl⟩ := step_eq_ok h
  exact length_behind_lt hFirst hDoes

/-- The scanner comes to the end of its source. -/
theorem run_recursion : Recursion (·.rest.length) runStep (fun s => run s.rest.length s) := by
  refine (Recursion.of_bounded (F := run) (·.rest.length) runStep (fun _ _ => True)
    (fun bound s => congrFun (run_succ bound) s) ?_ ?_).1
  · intro s hNone
    have hEnd : s.atEnd = true := List.isEmpty_iff.2 (List.eq_nil_of_length_eq_zero hNone)
    rw [run_succ, runStep, if_pos hEnd]
    rfl
  · intro x y s hSmaller
    refine ⟨?_, trivial⟩
    unfold runStep
    cases hStep : step s with
    | error e next => rfl
    | ok _ next =>
        have hSame : x next = y next := (hSmaller next (step_shorter hStep)).1
        simp only [hSame]

/-- The texts that a run reads are shorter than what was left by their quotes. -/
theorem length_of_run (h : run bound s = .ok () s') :
    ∃ ts, s'.context = s.context.afterAll ts ∧
      ∀ contents, .text contents ∈ ts → contents.length + 2 ≤ s.rest.length := by
  refine run_induction (P := fun s ts => ∀ contents, .text contents ∈ ts →
    contents.length + 2 ≤ s.rest.length) (fun _ _ hNone => absurd hNone nofun) ?_ h
  intro s action lexeme token? ts hFirst hDoes hMore contents hText
  rcases List.mem_append.1 hText with hHere | hLater
  · obtain rfl := Option.mem_toList.1 hHere
    exact Nat.le_trans hDoes.length_text (firstLexeme?_taken hFirst).1.length_le
  · exact Nat.le_trans (hMore contents hLater) (Nat.le_of_lt (length_behind_lt hFirst hDoes))

end Scanner

/-- What stands in a text token is shorter than the source by its quotes. -/
theorem length_of_tokenize {source : String} {ts : List Token} (h : tokenize source = .ok ts)
    (hText : .text contents ∈ ts) : contents.length + 2 ≤ source.length := by
  obtain ⟨s, hRun, rfl⟩ := tokenize_eq_ok.1 h
  obtain ⟨ts, hContext, hTexts⟩ := Scanner.length_of_run hRun
  rw [Scanner.tokens_of_context hContext] at hText
  rw [← String.length_toList]
  exact hTexts contents hText

end ScriptLang
