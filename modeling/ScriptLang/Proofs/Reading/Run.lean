import ScriptLang.Grammar.Cursor

/-!
# Successful runs of parsers

A run of a parser that succeeds is taken apart by the `…_eq_ok` lemmas, one for
each primitive and one for sequencing: they turn the run into facts about the
tokens that were left before and after. In the other direction `Parser.Reads`
says that a parser reads a value from the front of some tokens, and the
`Reads.…` lemmas put such runs together.

Positions matter to errors only. `Parser.Reads` therefore speaks of tokens and
holds at every position.
-/

namespace ScriptLang

/-! ## Line breaks, separators and `else` -/

/-- A number of line breaks. -/
def breaks (n : Nat) : List Token := List.replicate n (.symbol .lineBreak)

@[simp] theorem breaks_zero : breaks 0 = [] := rfl

theorem breaks_succ (n : Nat) : breaks (n + 1) = .symbol .lineBreak :: breaks n := rfl

theorem breaks_append (m n : Nat) : breaks m ++ breaks n = breaks (m + n) :=
  List.replicate_append_replicate

@[simp] theorem length_breaks (n : Nat) : (breaks n).length = n := by
  simp [breaks]

/-- Whether an `else` comes next, on this line or a later one. -/
def ElseAhead (tokens : List Token) : Prop :=
  ∃ n ts, tokens = breaks n ++ .keyword .elseWord :: ts

/-- Tokens that do not start with a line break. -/
def NoBreak (tokens : List Token) : Prop := tokens.head? ≠ some (.symbol .lineBreak)

/-- Tokens that do not start with a separator. -/
def NoSeparator (tokens : List Token) : Prop := ∀ t ∈ tokens.head?, t.isSeparator = false

/-- Only separators. -/
def Separators (tokens : List Token) : Prop := ∀ t ∈ tokens, t.isSeparator = true

instance (tokens : List Token) : Decidable (Separators tokens) :=
  inferInstanceAs (Decidable (∀ t ∈ tokens, t.isSeparator = true))

theorem NoSeparator.noBreak {tokens : List Token} (h : NoSeparator tokens) : NoBreak tokens := by
  intro hHead
  exact absurd (h _ hHead) (by decide)

theorem separators_breaks (n : Nat) : Separators (breaks n) := by
  intro t ht
  rw [(List.mem_replicate.1 ht).2]
  rfl

theorem Separators.append {q r : List Token} (hq : Separators q) (hr : Separators r) :
    Separators (q ++ r) := by
  intro t ht
  exact (List.mem_append.1 ht).elim (hq t) (hr t)

/-- Dropping line breaks stops at the first token that is none. -/
theorem dropWhile_breaks {n : Nat} {tokens : List Token} (h : NoBreak tokens) :
    (breaks n ++ tokens).dropWhile (· == .symbol .lineBreak) = tokens := by
  induction n with
  | zero =>
      cases tokens with
      | nil => rfl
      | cons t ts =>
          have hHead : t ≠ .symbol .lineBreak := fun hEq => h (by rw [hEq]; rfl)
          simp [hHead]
  | succ n ih =>
      rw [breaks_succ, List.cons_append, List.dropWhile_cons_of_pos (by decide)]
      exact ih

/-- What dropping line breaks takes away are line breaks, and it takes all of them. -/
theorem exists_breaks (tokens : List Token) :
    ∃ n, tokens = breaks n ++ tokens.dropWhile (· == .symbol .lineBreak) ∧
      NoBreak (tokens.dropWhile (· == .symbol .lineBreak)) := by
  induction tokens with
  | nil => exact ⟨0, rfl, nofun⟩
  | cons t ts ih =>
      by_cases hHead : t = .symbol .lineBreak
      · obtain ⟨n, hTokens, hNoBreak⟩ := ih
        rw [hHead, List.dropWhile_cons_of_pos (by decide)]
        refine ⟨n + 1, ?_, hNoBreak⟩
        rw [breaks_succ, List.cons_append, ← hTokens]
      · rw [List.dropWhile_cons_of_neg (by simpa using hHead)]
        refine ⟨0, rfl, ?_⟩
        intro hEq
        exact hHead (Option.some.inj hEq)

/-- Dropping separators stops at the first token that is none. -/
theorem dropWhile_separators {q tokens : List Token} (hq : Separators q)
    (h : NoSeparator tokens) : (q ++ tokens).dropWhile Token.isSeparator = tokens := by
  induction q with
  | nil =>
      cases tokens with
      | nil => rfl
      | cons t ts =>
          have hHead : t.isSeparator = false := h t rfl
          simp [hHead]
  | cons s q ih =>
      rw [List.cons_append, List.dropWhile_cons_of_pos (hq s (by simp))]
      exact ih fun t ht => hq t (by simp [ht])

/-- What dropping separators takes away are separators, and it takes all of them. -/
theorem exists_separators (tokens : List Token) :
    ∃ q, tokens = q ++ tokens.dropWhile Token.isSeparator ∧ Separators q ∧
      NoSeparator (tokens.dropWhile Token.isSeparator) := by
  induction tokens with
  | nil => exact ⟨[], rfl, nofun, nofun⟩
  | cons t ts ih =>
      by_cases hHead : t.isSeparator = true
      · obtain ⟨q, hTokens, hSeparators, hNone⟩ := ih
        rw [List.dropWhile_cons_of_pos hHead]
        refine ⟨t :: q, ?_, ?_, hNone⟩
        · rw [List.cons_append, ← hTokens]
        · intro s hs
          cases List.mem_cons.1 hs with
          | inl hEq => rw [hEq]; exact hHead
          | inr hMem => exact hSeparators s hMem
      · rw [List.dropWhile_cons_of_neg hHead]
        refine ⟨[], rfl, nofun, ?_⟩
        intro s hs
        rw [← Option.some.inj hs]
        simpa using hHead

/-! ## Lists with commas -/

section Listed

variable {α : Type} {spell : α → List Token} {a : α} {as : List α}

/-- Items one after another, each behind a comma. -/
def listedMore (spell : α → List Token) (as : List α) : List Token :=
  as.flatMap fun a => .symbol .comma :: spell a

/-- Items with commas between them. -/
def listed (spell : α → List Token) : List α → List Token
  | [] => []
  | a :: as => spell a ++ listedMore spell as

theorem listed_cons_cons {b : α} :
    listed spell (a :: b :: as) = spell a ++ .symbol .comma :: listed spell (b :: as) := by
  rw [listed, listed, listedMore, listedMore, List.flatMap_cons, List.cons_append]

theorem length_le_listedMore (spell : α → List Token) (as : List α) :
    as.length ≤ (listedMore spell as).length := by
  induction as with
  | nil => exact Nat.le_refl _
  | cons a as ih =>
      simp only [listedMore, List.flatMap_cons, List.length_append, List.length_cons] at ih ⊢
      omega

/-- A list is at least as long as each of its items. -/
theorem length_spell_le_listed (spell : α → List Token) (ha : a ∈ as) :
    (spell a).length ≤ (listed spell as).length := by
  cases as with
  | nil => exact absurd ha (by simp)
  | cons b as =>
      rw [listed, List.length_append]
      cases List.mem_cons.1 ha with
      | inl hEq => rw [hEq]; omega
      | inr hMem =>
          have hSub := List.Sublist.length_le (List.sublist_flatten_of_mem
            (List.mem_map_of_mem (f := fun a => Token.symbol .comma :: spell a) hMem))
          rw [List.length_cons, ← List.flatMap_def] at hSub
          rw [listedMore]
          omega

end Listed

/-! ## Kinds of tokens -/

namespace Token

variable {t : Token}

@[simp] theorem kind_eq_keyword {w : Keyword} : t.kind = .keyword w ↔ t = .keyword w := by
  cases t <;> simp [kind]

@[simp] theorem kind_eq_symbol {m : Symbol} : t.kind = .symbol m ↔ t = .symbol m := by
  cases t <;> simp [kind]

@[simp] theorem kind_eq_bracket {m : Bracket} : t.kind = .bracket m ↔ t = .bracket m := by
  cases t <;> simp [kind]

@[simp] theorem kind_eq_infixMark {m : InfixMark} : t.kind = .infixMark m ↔ t = .infixMark m := by
  cases t <;> simp [kind]

@[simp] theorem kind_eq_unaryMark {m : UnaryMark} : t.kind = .unaryMark m ↔ t = .unaryMark m := by
  cases t <;> simp [kind]

@[simp] theorem kind_eq_typeWord {w : TypeWord} : t.kind = .typeWord w ↔ t = .typeWord w := by
  cases t <;> simp [kind]

theorem kind_eq_name : t.kind = .name ↔ ∃ n, t = .name n := by
  cases t <;> simp [kind]

end Token

namespace Cursor

@[simp] theorem kind?_cons (n : Nat) (t : Token) (ts : List Token) :
    (Cursor.mk n (t :: ts)).kind? = some t.kind := rfl

theorem isAt_iff {c : Cursor} {k : Kind} :
    c.isAt k = true ↔ ∃ t ts, c.rest = t :: ts ∧ t.kind = k := by
  rcases c with ⟨n, _ | ⟨t, ts⟩⟩ <;> simp [isAt, kind?, current?]

theorem kind_of_isAt {c : Cursor} {k : Kind} {t : Token} {ts : List Token}
    (hAt : c.isAt k = true) (hRest : c.rest = t :: ts) : t.kind = k := by
  obtain ⟨s, ss, hRest', hKind⟩ := isAt_iff.1 hAt
  rw [hRest, List.cons.injEq] at hRest'
  rw [hRest'.1, hKind]

theorem head?_ne_of_not_isAt {c : Cursor} {k : Kind} {t : Token} (hAt : ¬ c.isAt k = true)
    (hKind : t.kind = k) : c.rest.head? ≠ some t := by
  intro hHead
  obtain ⟨ts, hRest⟩ := List.head?_eq_some_iff.1 hHead
  exact hAt (isAt_iff.2 ⟨t, ts, hRest, hKind⟩)

end Cursor

namespace Parser

variable {α β : Type} {c c' : Cursor} {k : Kind} {t : Token}

/-! ## Taking runs apart -/

theorem bind_eq_ok {p : Parser α} {f : α → Parser β} {b : β} :
    (p >>= f) c = .ok b c' ↔ ∃ a m, p c = .ok a m ∧ f a m = .ok b c' := by
  show EStateM.bind p f c = _ ↔ _
  unfold EStateM.bind
  cases hRun : p c with
  | error e m => simp
  | ok a m =>
      constructor
      · exact fun h => ⟨a, m, rfl, h⟩
      · rintro ⟨_, _, hEq, h⟩
        cases hEq
        exact h

/-- The same for a parser that is given as a function of the cursor. -/
theorem bind_run_eq_ok {p : Cursor → EStateM.Result ParseError Cursor α} {f : α → Parser β}
    {b : β} :
    (bind (m := Parser) p f) c = .ok b c' ↔ ∃ a m, p c = .ok a m ∧ f a m = .ok b c' :=
  bind_eq_ok

theorem pure_eq_ok {a b : α} : (pure a : Parser α) c = .ok b c' ↔ a = b ∧ c = c' := by
  show EStateM.Result.ok a c = .ok b c' ↔ _
  simp

theorem throw_ne_ok {e : ParseError} {a : α} : (throw e : Parser α) c ≠ .ok a c' := nofun

theorem unexpected_ne_ok {message : String} {a : α} :
    (unexpected message : Parser α) c ≠ .ok a c' := nofun

theorem position_eq_ok {n : Nat} : position c = .ok n c' ↔ c.position = n ∧ c = c' := by
  simp [position]

theorem isAt_eq_ok {b : Bool} : isAt k c = .ok b c' ↔ c.isAt k = b ∧ c = c' := by
  simp [isAt]

/-- What runs behind a test of the current kind is one of the two branches. -/
theorem branch_cases {here : Bool} {p q : Parser β} {b : β}
    (hRun : (if here = true then p else q) c = .ok b c') :
    (here = true ∧ p c = .ok b c') ∨ (here ≠ true ∧ q c = .ok b c') := by
  cases here with
  | true => exact .inl ⟨rfl, hRun⟩
  | false => exact .inr ⟨by decide, hRun⟩

theorem ofExcept_eq_ok {x : Except ParseError α} {a : α} :
    Parser.ofExcept x c = .ok a c' ↔ x = .ok a ∧ c = c' := by
  cases x <;> simp [Parser.ofExcept]

theorem skipLineBreaks_eq_ok {u : Unit} :
    skipLineBreaks c = .ok u c' ↔ c.skipLineBreaks = c' := by
  simp [skipLineBreaks]

theorem advance_eq_ok :
    advance c = .ok t c' ↔ c.rest = t :: c'.rest ∧ c'.position = c.position + 1 := by
  rcases c with ⟨n, _ | ⟨s, ts⟩⟩
  · simp [advance]
  · rcases c' with ⟨m, us⟩
    simp only [advance, EStateM.Result.ok.injEq, Cursor.mk.injEq, List.cons.injEq]
    grind

theorem expect_eq_ok :
    expect k c = .ok t c' ↔
      t.kind = k ∧ c.rest = t :: c'.rest ∧ c'.position = c.position + 1 := by
  rw [expect, expectOr, ← advance_eq_ok]
  by_cases hAt : c.isAt k = true
  · obtain ⟨s, ts, hRest, hKind⟩ := Cursor.isAt_iff.1 hAt
    rw [if_pos hAt, advance_eq_ok, hRest, List.cons.injEq]
    grind
  · rw [if_neg hAt]
    simp only [reduceCtorEq, false_iff, not_and, advance_eq_ok]
    intro hKind hRest
    exact absurd (Cursor.isAt_iff.2 ⟨t, _, hRest, hKind⟩) hAt

theorem identifier_eq_ok {name : String} :
    identifier c = .ok name c' ↔
      c.rest = .name name :: c'.rest ∧ c'.position = c.position + 1 := by
  rcases c with ⟨n, _ | ⟨s, ts⟩⟩
  · simp [identifier]
  · rcases c' with ⟨m, us⟩
    cases s <;> simp [identifier]
    grind

/-- Skipping line breaks leaves the tokens behind them. -/
theorem skipLineBreaks_rest (c : Cursor) :
    ∃ n, c.rest = breaks n ++ c.skipLineBreaks.rest ∧ NoBreak c.skipLineBreaks.rest :=
  exists_breaks c.rest

/-- An `else` is looked for behind line breaks. Where there is none, nothing is
read; where there is one, the branch stands behind it. -/
theorem elseBranch?_cases {branch : Parser α} {a? : Option α}
    (hRun : elseBranch? branch c = .ok a? c') :
    (a? = none ∧ ¬ ElseAhead c.rest ∧ c = c') ∨
      ∃ a n c₁, a? = some a ∧ c.rest = breaks n ++ .keyword .elseWord :: c₁.rest ∧
        branch c₁ = .ok a c' := by
  obtain ⟨n, hBefore, hNoBreak⟩ := skipLineBreaks_rest c
  rw [elseBranch?] at hRun
  by_cases hAt : c.skipLineBreaks.isAt (.keyword .elseWord) = true
  · rw [if_pos hAt] at hRun
    simp only [bind_eq_ok, advance_eq_ok, pure_eq_ok] at hRun
    obtain ⟨t, c₁, ⟨hRest, -⟩, a, c₂, hBranch, rfl, rfl⟩ := hRun
    have hKind := Cursor.kind_of_isAt hAt hRest
    rw [Token.kind_eq_keyword.1 hKind] at hRest
    exact .inr ⟨a, n, c₁, rfl, by rw [hBefore, hRest], hBranch⟩
  · rw [if_neg hAt] at hRun
    cases hRun
    refine .inl ⟨rfl, ?_, rfl⟩
    rintro ⟨k, ts, hElse⟩
    refine Cursor.head?_ne_of_not_isAt hAt (t := .keyword .elseWord) rfl ?_
    have hNone : NoBreak (.keyword .elseWord :: ts) := nofun
    have hDrop := dropWhile_breaks (n := k) hNone
    rw [← hElse] at hDrop
    show (c.rest.dropWhile _).head? = _
    rw [hDrop]
    rfl

/-! ## Putting runs together -/

/-- The parser reads `a` from the front of `tokens` and leaves `rest`, at
whatever position the tokens stand. -/
def Reads (p : Parser α) (tokens : List Token) (a : α) (rest : List Token) : Prop :=
  ∀ n, ∃ m, p ⟨n, tokens⟩ = .ok a ⟨m, rest⟩

namespace Reads

variable {p : Parser α} {f : α → Parser β} {tokens mid rest : List Token} {a : α} {b : β}

theorem bind (hp : p.Reads tokens a mid) (hf : (f a).Reads mid b rest) :
    (p >>= f).Reads tokens b rest := by
  intro n
  obtain ⟨m, hRun⟩ := hp n
  obtain ⟨k, hRun'⟩ := hf m
  exact ⟨k, bind_eq_ok.2 ⟨a, _, hRun, hRun'⟩⟩

theorem pure : (Pure.pure a : Parser α).Reads tokens a tokens := fun n => ⟨n, rfl⟩

theorem position_bind {f : Nat → Parser β} (hf : ∀ n, (f n).Reads tokens b rest) :
    (Parser.position >>= f).Reads tokens b rest := by
  intro n
  obtain ⟨m, hRun⟩ := hf n n
  exact ⟨m, bind_eq_ok.2 ⟨n, _, rfl, hRun⟩⟩

theorem advance : Parser.advance.Reads (t :: rest) t rest := fun n => ⟨n + 1, rfl⟩

theorem expect (t : Token) : (Parser.expect t.kind).Reads (t :: rest) t rest :=
  fun n => ⟨n + 1, expect_eq_ok.2 ⟨rfl, rfl, rfl⟩⟩

theorem identifier {name : String} :
    Parser.identifier.Reads (.name name :: rest) name rest := fun n => ⟨n + 1, rfl⟩

theorem skipLineBreaks {n : Nat} (hRest : NoBreak rest) :
    Parser.skipLineBreaks.Reads (breaks n ++ rest) () rest := by
  intro k
  refine ⟨k + ((breaks n ++ rest).takeWhile (· == .symbol .lineBreak)).length, ?_⟩
  rw [skipLineBreaks_eq_ok, Cursor.skipLineBreaks, Cursor.skipWhile, dropWhile_breaks hRest]

/-- A parser that branches on the current kind takes the first branch at that kind. -/
theorem isAt_then {q : Parser β} {r : Parser β} (hKind : t.kind = k)
    (hq : q.Reads (t :: mid) b rest) :
    (Parser.isAt k >>= fun here => if here = true then q else r).Reads (t :: mid) b rest := by
  have hHere : (Parser.isAt k).Reads (t :: mid) true (t :: mid) := fun n =>
    ⟨n, isAt_eq_ok.2 ⟨Cursor.isAt_iff.2 ⟨t, mid, rfl, hKind⟩, rfl⟩⟩
  exact hHere.bind (by simpa using hq)

/-- A parser that branches on the current kind takes the second branch at any other. -/
theorem isAt_else {q : Parser β} {r : Parser β}
    (hKind : ∀ t ∈ tokens.head?, t.kind ≠ k) (hr : r.Reads tokens b rest) :
    (Parser.isAt k >>= fun here => if here = true then q else r).Reads tokens b rest := by
  have hHere : (Parser.isAt k).Reads tokens false tokens := by
    intro n
    refine ⟨n, isAt_eq_ok.2 ⟨?_, rfl⟩⟩
    rw [Bool.eq_false_iff]
    intro hAt
    obtain ⟨t, ts, hTokens, hThere⟩ := Cursor.isAt_iff.1 hAt
    have hTokens' : tokens = t :: ts := hTokens
    exact hKind t (by rw [hTokens']; rfl) hThere
  exact hHere.bind (by simpa using hr)

/-- A parser that fails is rewound. -/
theorem orRewind_fallback {fallback : α} (hFails : ∀ n a c', p ⟨n, tokens⟩ ≠ .ok a c') :
    (orRewind p fallback).Reads tokens fallback tokens := by
  intro n
  refine ⟨n, ?_⟩
  rw [orRewind]
  cases hRun : p ⟨n, tokens⟩ with
  | ok a c' => exact absurd hRun (hFails n a c')
  | error e c' => rfl

theorem orRewind {fallback : α} (hp : p.Reads tokens a rest) :
    (Parser.orRewind p fallback).Reads tokens a rest := by
  intro n
  obtain ⟨m, hRun⟩ := hp n
  exact ⟨m, by rw [Parser.orRewind, hRun]⟩

theorem elseBranch?_none (hNoElse : ¬ ElseAhead tokens) :
    (elseBranch? p).Reads tokens none tokens := by
  intro n
  refine ⟨n, ?_⟩
  have hNotAt : ¬ (Cursor.mk n tokens).skipLineBreaks.isAt (.keyword .elseWord) = true := by
    intro hAt
    obtain ⟨t, ts, hRest, hKind⟩ := Cursor.isAt_iff.1 hAt
    obtain ⟨k, hTokens, -⟩ := skipLineBreaks_rest ⟨n, tokens⟩
    rw [hRest, Token.kind_eq_keyword.1 hKind] at hTokens
    exact hNoElse ⟨k, ts, hTokens⟩
  rw [elseBranch?, if_neg hNotAt]

theorem elseBranch?_some {n : Nat} (hBranch : p.Reads tokens a rest) :
    (elseBranch? p).Reads (breaks n ++ .keyword .elseWord :: tokens) (some a) rest := by
  intro k
  have hNone : NoBreak (.keyword .elseWord :: tokens) := nofun
  obtain ⟨m, hSkip⟩ := skipLineBreaks (n := n) hNone k
  have hBehind : (Parser.advance >>= fun _ => p >>= fun a => Pure.pure (some a)).Reads
      (.keyword .elseWord :: tokens) (some a) rest := .bind .advance (.bind hBranch .pure)
  rw [elseBranch?, skipLineBreaks_eq_ok.1 hSkip, if_pos (by rfl)]
  exact hBehind m

end Reads

/-! ## Lists of items -/

section Items

variable {item : Parser α} {gap : Parser Unit} {a : α} {as : List α}

/-- Reading the rest of a list of items keeps every relation that holds at the
closing parenthesis and is kept by one more item. The bound covers all tokens
that are left, so it never ends the list. -/
theorem moreItems_sound (Read : List α → List Token → List Token → Prop)
    (hClose : ∀ rest, Read [] (.bracket .closeParen :: rest) rest)
    (hNext : ∀ (c₀ c₁ c₂ c₃ : Cursor) (a : α) (as : List α) (rest : List Token),
      gap c₀ = .ok () c₁ → item c₁ = .ok a c₂ → gap c₂ = .ok () c₃ →
      Read as c₃.rest rest → Read (a :: as) (.symbol .comma :: c₀.rest) rest)
    (hGap : ∀ c c', gap c = .ok () c' → c'.rest.length ≤ c.rest.length)
    (hItem : ∀ c a c', item c = .ok a c' → c'.rest.length ≤ c.rest.length) :
    ∀ (bound : Nat) (c c' : Cursor) (as : List α), c.rest.length ≤ bound →
      moreItems item gap bound c = .ok as c' → Read as c.rest c'.rest := by
  intro bound
  induction bound with
  | zero =>
      intro c c' as hBound hRun
      simp only [moreItems, bind_eq_ok, expect_eq_ok] at hRun
      obtain ⟨t, m, ⟨_, hRest, _⟩, _⟩ := hRun
      simp [hRest] at hBound
  | succ bound ih =>
      intro c c' as hBound hRun
      simp only [moreItems, bind_eq_ok, isAt_eq_ok] at hRun
      obtain ⟨here, m, ⟨hHere, rfl⟩, hRun⟩ := hRun
      rcases branch_cases hRun with ⟨hThere, hRun⟩ | ⟨-, hRun⟩
      · simp only [bind_eq_ok, advance_eq_ok, pure_eq_ok] at hRun
        obtain ⟨t, m, ⟨hRest, _⟩, rfl, rfl⟩ := hRun
        have hKind := Cursor.kind_of_isAt (hHere.trans hThere) hRest
        rw [hRest, Token.kind_eq_bracket.1 hKind]
        exact hClose _
      · simp only [bind_eq_ok, expect_eq_ok, pure_eq_ok, Token.kind_eq_symbol] at hRun
        obtain ⟨t, c₀, ⟨rfl, hRest, _⟩, _, c₁, hGap₁, a, c₂, hItem₂, _, c₃, hGap₃, as, c₄,
          hMore, rfl, rfl⟩ := hRun
        have hLe₁ := hGap _ _ hGap₁
        have hLe₂ := hItem _ _ _ hItem₂
        have hLe₃ := hGap _ _ hGap₃
        have hLe : c₃.rest.length ≤ bound := by
          rw [hRest, List.length_cons] at hBound
          omega
        rw [hRest]
        exact hNext _ _ _ _ _ _ _ hGap₁ hItem₂ hGap₃ (ih _ _ _ hLe hMore)

/-- A list of items is empty or starts with an item. -/
theorem items_cases (hRun : items item gap c = .ok as c') :
    ∃ c₁, gap c = .ok () c₁ ∧
      ((c₁.rest = .bracket .closeParen :: c'.rest ∧ as = []) ∨
        ∃ a c₂ c₃ as', item c₁ = .ok a c₂ ∧ gap c₂ = .ok () c₃ ∧
          moreItems item gap c₃.rest.length c₃ = .ok as' c' ∧ as = a :: as') := by
  simp only [items, bind_eq_ok, isAt_eq_ok] at hRun
  obtain ⟨_, c₁, hGap, here, m, ⟨hHere, rfl⟩, hRun⟩ := hRun
  refine ⟨c₁, hGap, ?_⟩
  rcases branch_cases hRun with ⟨hThere, hRun⟩ | ⟨-, hRun⟩
  · simp only [bind_eq_ok, advance_eq_ok, pure_eq_ok] at hRun
    obtain ⟨t, m, ⟨hRest, _⟩, rfl, rfl⟩ := hRun
    have hKind := Cursor.kind_of_isAt (hHere.trans hThere) hRest
    rw [hRest, Token.kind_eq_bracket.1 hKind]
    exact .inl ⟨rfl, rfl⟩
  · simp only [bind_eq_ok, bind_run_eq_ok, pure_eq_ok] at hRun
    obtain ⟨a, c₂, hItem, _, c₃, hGap', as', m, hMore, rfl, rfl⟩ := hRun
    exact .inr ⟨a, c₂, c₃, as', hItem, hGap', hMore, rfl⟩

variable {bound : Nat} {ts ts₁ ts₂ ts₃ rest : List Token}

theorem Reads.moreItems_close :
    (moreItems item gap (bound + 1)).Reads (.bracket .closeParen :: rest) [] rest :=
  .isAt_then rfl (.bind .advance .pure)

theorem Reads.moreItems_next (hGap₁ : gap.Reads ts () ts₁) (hItem : item.Reads ts₁ a ts₂)
    (hGap₂ : gap.Reads ts₂ () ts₃) (hMore : (moreItems item gap bound).Reads ts₃ as rest) :
    (moreItems item gap (bound + 1)).Reads (.symbol .comma :: ts) (a :: as) rest := by
  refine .isAt_else ?_ ?_
  · intro t ht
    rw [← Option.some.inj ht]
    decide
  · apply Reads.bind (.expect (.symbol .comma))
    apply Reads.bind hGap₁
    apply Reads.bind hItem
    apply Reads.bind hGap₂
    exact .bind hMore .pure

theorem Reads.items_none (hGap : gap.Reads ts () (.bracket .closeParen :: rest)) :
    (items item gap).Reads ts [] rest :=
  .bind hGap (.isAt_then rfl (.bind .advance .pure))

theorem Reads.items_some (hGap₁ : gap.Reads ts () ts₁)
    (hOpen : ts₁.head? ≠ some (.bracket .closeParen)) (hItem : item.Reads ts₁ a ts₂)
    (hGap₂ : gap.Reads ts₂ () ts₃) (hMore : (moreItems item gap ts₃.length).Reads ts₃ as rest) :
    (items item gap).Reads ts (a :: as) rest := by
  refine .bind hGap₁ (.isAt_else ?_ ?_)
  · intro t ht hKind
    exact hOpen (by rw [ht, Token.kind_eq_bracket.1 hKind])
  · apply Reads.bind hItem
    apply Reads.bind hGap₂
    refine .bind ?_ .pure
    exact fun n => hMore n

end Items

/-! ### Items without gaps

Types and the parameters of functions are listed without line breaks, and each
of them has one spelling. Such a list then has one spelling too. -/

section Listed

variable {item : Parser α} {spell : α → List Token} {as : List α} {rest : List Token}

/-- A list of items without gaps is read as it is spelled. -/
theorem items_listed (hItem : ∀ c a c', item c = .ok a c' → c.rest = spell a ++ c'.rest)
    (hRun : items item (pure ()) c = .ok as c') :
    c.rest = listed spell as ++ .bracket .closeParen :: c'.rest := by
  obtain ⟨c₁, hGap, hCases⟩ := items_cases hRun
  rw [(pure_eq_ok.1 hGap).2]
  rcases hCases with ⟨hRest, rfl⟩ | ⟨a, c₂, c₃, as', hFirst, hGap', hMore, rfl⟩
  · exact hRest
  · rw [← (pure_eq_ok.1 hGap').2] at hMore
    have hRest := moreItems_sound
      (fun as ts rest => ts = listedMore spell as ++ .bracket .closeParen :: rest)
      (fun _ => rfl)
      (fun c₀ c₁ c₂ c₃ a as rest h₁ h₂ h₃ hRead => by
        rw [(pure_eq_ok.1 h₁).2, hItem _ _ _ h₂, (pure_eq_ok.1 h₃).2, hRead]
        simp [listedMore])
      (fun c c' h => Nat.le_of_eq (by rw [(pure_eq_ok.1 h).2]))
      (fun c a c' h => by rw [hItem _ _ _ h, List.length_append]; omega)
      _ _ _ _ (Nat.le_refl _) hMore
    rw [hItem _ _ _ hFirst, hRest, listed, List.append_assoc]

/-- A list of items without gaps that is spelled out is read. -/
theorem Reads.items_listed (hItem : ∀ a ∈ as, ∀ rest, item.Reads (spell a ++ rest) a rest)
    (hOpen : ∀ a ∈ as, ∃ t ts, spell a = t :: ts ∧ t ≠ .bracket .closeParen) :
    (items item (Pure.pure ())).Reads (listed spell as ++ .bracket .closeParen :: rest) as
      rest := by
  have hMore : ∀ (as : List α) (bound : Nat),
      (∀ a ∈ as, ∀ rest, item.Reads (spell a ++ rest) a rest) → as.length < bound →
      (moreItems item (Pure.pure ()) bound).Reads
        (listedMore spell as ++ .bracket .closeParen :: rest) as rest := by
    intro as
    induction as with
    | nil =>
        intro bound _ hBound
        obtain ⟨bound, rfl⟩ : ∃ k, bound = k + 1 := ⟨bound - 1, by simp at hBound; omega⟩
        exact .moreItems_close
    | cons a as ih =>
        intro bound hAll hBound
        obtain ⟨bound, rfl⟩ : ∃ k, bound = k + 1 := ⟨bound - 1, by simp at hBound; omega⟩
        have hRest := ih bound (fun b hb => hAll b (by simp [hb])) (by simpa using hBound)
        have hFirst := hAll a (by simp) (listedMore spell as ++ .bracket .closeParen :: rest)
        simpa [listedMore] using Reads.moreItems_next .pure hFirst .pure hRest
  cases as with
  | nil => exact .items_none .pure
  | cons a as =>
      rw [listed, List.append_assoc]
      refine .items_some .pure ?_ (hItem a (by simp) _) .pure (hMore as _ ?_ ?_)
      · obtain ⟨t, ts, hSpell, hNe⟩ := hOpen a (by simp)
        rw [hSpell]
        simpa using hNe
      · exact fun b hb => hItem b (by simp [hb])
      · have hLe := length_le_listedMore spell as
        rw [List.length_append, List.length_cons]
        omega

end Listed

end Parser

end ScriptLang
