import ScriptLang.Grammar.Statement
import ScriptLang.Proofs.Reading.Run

/-!
# Parsers that agree

`Parser.Agree P least bound p q` says that `p` and `q` do the same wherever fewer
than `bound` tokens are left, all of which satisfy `P`, and that a success of
`p` takes at least `least` tokens there. With `q := p` this is progress; with a
different `q` it says how far an outcome depends on the parsers inside.

Agreement is put together stage by stage. A parser that takes a token first
(`Agree.step`) needs the parsers behind it to agree for one token less only.
-/

namespace ScriptLang

/-! ## Taking tokens -/

namespace Cursor

variable {c c₁ c₂ : Cursor} {k l : Nat}

/-- `c'` is reached from `c` by taking at least `least` tokens. -/
def Reaches (least : Nat) (c c' : Cursor) : Prop :=
  ∃ us, least ≤ us.length ∧ c.rest = us ++ c'.rest ∧ c'.position = c.position + us.length

theorem Reaches.refl (c : Cursor) : Reaches 0 c c := ⟨[], Nat.le_refl _, rfl, rfl⟩

theorem Reaches.trans (h₁ : Reaches k c c₁) (h₂ : Reaches l c₁ c₂) : Reaches (k + l) c c₂ := by
  obtain ⟨us₁, hLeast₁, hRest₁, hPosition₁⟩ := h₁
  obtain ⟨us₂, hLeast₂, hRest₂, hPosition₂⟩ := h₂
  refine ⟨us₁ ++ us₂, ?_, ?_, ?_⟩
  · rw [List.length_append]
    omega
  · rw [hRest₁, hRest₂, List.append_assoc]
  · rw [hPosition₂, hPosition₁, List.length_append, Nat.add_assoc]

theorem Reaches.mono (h : Reaches k c c₁) (hLe : l ≤ k) : Reaches l c c₁ := by
  obtain ⟨us, hLeast, hTaken⟩ := h
  exact ⟨us, Nat.le_trans hLe hLeast, hTaken⟩

theorem Reaches.length_le (h : Reaches k c c₁) : c₁.rest.length + k ≤ c.rest.length := by
  obtain ⟨us, hLeast, hRest, -⟩ := h
  rw [hRest, List.length_append]
  omega

theorem Reaches.mem (h : Reaches k c c₁) {t : Token} (ht : t ∈ c₁.rest) : t ∈ c.rest := by
  obtain ⟨us, -, hRest, -⟩ := h
  rw [hRest]
  exact List.mem_append_right us ht

theorem reaches_skipWhile (c : Cursor) (p : Token → Bool) : Reaches 0 c (c.skipWhile p) :=
  ⟨c.rest.takeWhile p, Nat.zero_le _, List.takeWhile_append_dropWhile.symm, rfl⟩

end Cursor

namespace Parser

variable {α β : Type} {P : Token → Prop} {j k m n : Nat} {p q p' q' : Parser α}
  {f g : α → Parser β}

/-- Where fewer than `bound` tokens are left, and each of them satisfies `P`, `p`
does as `q` and takes at least `least` tokens if it succeeds. -/
def Agree (P : Token → Prop) (least bound : Nat) (p q : Parser α) : Prop :=
  ∀ c : Cursor, c.rest.length < bound → (∀ t ∈ c.rest, P t) →
    p c = q c ∧ ∀ a c', p c = .ok a c' → Cursor.Reaches least c c'

namespace Agree

/-! ## Stages -/

theorem mono (h : Agree P k m p q) (hLe : n ≤ m) : Agree P k n p q :=
  fun c hBound => h c (Nat.lt_of_lt_of_le hBound hLe)

/-- No cursor has fewer than no tokens left. -/
theorem none : Agree P k 0 p q := fun _ hBound => absurd hBound (Nat.not_lt_zero _)

/-- A success takes no fewer tokens than it takes. -/
theorem fewer (h : Agree P k n p q) (hLe : j ≤ k) : Agree P j n p q := by
  intro c hBound hAll
  obtain ⟨hSame, hTaken⟩ := h c hBound hAll
  exact ⟨hSame, fun a c' hRun => (hTaken a c' hRun).mono hLe⟩

/-- Behind `j` tokens that are taken first, agreement is needed for `j` tokens
less. -/
theorem sequence (hFirst : Agree P j n p q) (hThen : ∀ a, Agree P k (n - j) (f a) (g a)) :
    Agree P (j + k) n (p >>= f) (q >>= g) := by
  intro c hBound hAll
  obtain ⟨hSame, hTaken⟩ := hFirst c hBound hAll
  have hRest : ∀ a c₁, p c = .ok a c₁ → f a c₁ = g a c₁ ∧
      ∀ b c₂, f a c₁ = .ok b c₂ → Cursor.Reaches k c₁ c₂ := by
    intro a c₁ hRun
    have hReached := hTaken a c₁ hRun
    have hLength := hReached.length_le
    exact hThen a c₁ (by omega) fun t ht => hAll t (hReached.mem ht)
  constructor
  · show EStateM.bind p f c = EStateM.bind q g c
    unfold EStateM.bind
    rw [← hSame]
    cases hRun : p c with
    | ok a c₁ => exact (hRest a c₁ hRun).1
    | error e c₁ => rfl
  · intro b c₂ hRun
    obtain ⟨a, c₁, hFirstRun, hThenRun⟩ := bind_eq_ok.1 hRun
    exact (hTaken a c₁ hFirstRun).trans ((hRest a c₁ hFirstRun).2 b c₂ hThenRun)

theorem bind (hFirst : Agree P j n p q) (hThen : ∀ a, Agree P k n (f a) (g a)) :
    Agree P k n (p >>= f) (q >>= g) := by
  have hAll := hFirst.sequence fun a => (hThen a).mono (Nat.sub_le n j)
  exact hAll.fewer (Nat.le_add_left k j)

/-- What stands behind a token is read with one token less. -/
theorem step (hFirst : Agree P 1 (n + 1) p q) (hThen : ∀ a, Agree P 0 n (f a) (g a)) :
    Agree P 1 (n + 1) (p >>= f) (q >>= g) :=
  hFirst.sequence hThen

/-- A part that takes a token is enough for the whole to take one. -/
theorem head (hFirst : Agree P 1 n p q) (hThen : ∀ a, Agree P 0 n (f a) (g a)) :
    Agree P 1 n (p >>= f) (q >>= g) :=
  hFirst.sequence fun a => (hThen a).mono (Nat.sub_le n 1)

theorem ite {b : Bool} (hThen : Agree P k n p q) (hElse : Agree P k n p' q') :
    Agree P k n (if b = true then p else p') (if b = true then q else q') := by
  cases b with
  | true => exact hThen
  | false => exact hElse

/-- A parser may depend on the cursor at which it starts. -/
theorem atCursor {r s : Cursor → Parser α} (h : ∀ c, Agree P k n (r c) (s c)) :
    Agree P k n (fun c => r c c) (fun c => s c c) :=
  fun c => h c c

/-! ## Primitives -/

/-- A parser agrees with itself; how many tokens it takes is left to show. -/
theorem self (h : ∀ c a c', p c = .ok a c' → Cursor.Reaches k c c') : Agree P k n p p :=
  fun c _ _ => ⟨rfl, h c⟩

theorem of_ne_ok (h : ∀ c a c', p c ≠ .ok a c') : Agree P k n p p :=
  self fun c a c' hRun => absurd hRun (h c a c')

theorem throw (e : ParseError) : Agree P k n (throw e : Parser α) (throw e) :=
  of_ne_ok fun _ _ _ => throw_ne_ok

theorem unexpected (message : String) :
    Agree P k n (Parser.unexpected message : Parser α) (Parser.unexpected message) :=
  of_ne_ok fun _ _ _ => unexpected_ne_ok

theorem pure (a : α) : Agree P 0 n (Pure.pure a : Parser α) (Pure.pure a) := by
  refine self fun c b c' hRun => ?_
  rw [(pure_eq_ok.1 hRun).2]
  exact .refl c'

theorem position : Agree P 0 n Parser.position Parser.position := by
  refine self fun c a c' hRun => ?_
  rw [(position_eq_ok.1 hRun).2]
  exact .refl c'

theorem isAt (kind : Kind) : Agree P 0 n (Parser.isAt kind) (Parser.isAt kind) := by
  refine self fun c a c' hRun => ?_
  rw [(isAt_eq_ok.1 hRun).2]
  exact .refl c'

theorem ofExcept (x : Except ParseError α) :
    Agree P 0 n (Parser.ofExcept x) (Parser.ofExcept x) := by
  refine self fun c a c' hRun => ?_
  rw [(ofExcept_eq_ok.1 hRun).2]
  exact .refl c'

theorem advance : Agree P 1 n Parser.advance Parser.advance := by
  refine self fun c t c' hRun => ?_
  obtain ⟨hRest, hPosition⟩ := advance_eq_ok.1 hRun
  exact ⟨[t], Nat.le_refl _, hRest, hPosition⟩

/-- What stands behind a token may depend on it, as a token that satisfies `P`. -/
theorem token {f g : Token → Parser β} (hThen : ∀ t, P t → Agree P 0 n (f t) (g t)) :
    Agree P 1 (n + 1) (Parser.advance >>= f) (Parser.advance >>= g) := by
  intro c hBound hAll
  rcases c with ⟨position, _ | ⟨t, rest⟩⟩
  · exact ⟨rfl, nofun⟩
  · have hToken : P t := hAll t List.mem_cons_self
    have hFewer : rest.length < n := Nat.lt_of_succ_lt_succ hBound
    obtain ⟨hSame, hTaken⟩ := hThen t hToken ⟨position + 1, rest⟩ hFewer fun u hu =>
      hAll u (List.mem_cons_of_mem t hu)
    refine ⟨hSame, fun b c' hRun => ?_⟩
    have hFirst : Cursor.Reaches 1 ⟨position, t :: rest⟩ ⟨position + 1, rest⟩ :=
      ⟨[t], Nat.le_refl 1, rfl, rfl⟩
    exact hFirst.trans (hTaken b c' hRun)

theorem expect (kind : Kind) : Agree P 1 n (Parser.expect kind) (Parser.expect kind) := by
  refine self fun c t c' hRun => ?_
  obtain ⟨-, hRest, hPosition⟩ := expect_eq_ok.1 hRun
  exact ⟨[t], Nat.le_refl _, hRest, hPosition⟩

theorem identifier : Agree P 1 n Parser.identifier Parser.identifier := by
  refine self fun c name c' hRun => ?_
  obtain ⟨hRest, hPosition⟩ := identifier_eq_ok.1 hRun
  exact ⟨[.name name], Nat.le_refl _, hRest, hPosition⟩

theorem skipLineBreaks : Agree P 0 n Parser.skipLineBreaks Parser.skipLineBreaks := by
  refine self fun c a c' hRun => ?_
  rw [← skipLineBreaks_eq_ok.1 hRun]
  exact Cursor.reaches_skipWhile c _

theorem skipSeparators : Agree P 0 n Parser.skipSeparators Parser.skipSeparators := by
  refine self fun c a c' hRun => ?_
  cases hRun
  exact Cursor.reaches_skipWhile c _

/-- Where a parser fails and is given up, nothing is taken. -/
theorem orRewind (h : Agree P 0 n p q) (a : α) :
    Agree P 0 n (Parser.orRewind p a) (Parser.orRewind q a) := by
  intro c hBound hAll
  obtain ⟨hSame, hTaken⟩ := h c hBound hAll
  rw [Parser.orRewind, Parser.orRewind, ← hSame]
  refine ⟨rfl, ?_⟩
  intro b c' hRun
  cases hFirst : p c with
  | ok b' c₁ =>
      rw [hFirst] at hRun
      exact hTaken b c' (hFirst.trans hRun)
  | error e c₁ =>
      rw [hFirst] at hRun
      cases hRun
      exact .refl c

theorem elseBranch? (h : Agree P k n p q) :
    Agree P 0 n (Parser.elseBranch? p) (Parser.elseBranch? q) := by
  intro c hBound hAll
  have hSkipped := Cursor.reaches_skipWhile c (· == .symbol .lineBreak)
  have hBranch : Agree P 0 n (do let _ ← Parser.advance; let a ← p; return some a)
      (do let _ ← Parser.advance; let a ← q; return some a) :=
    .bind .advance fun _ => .bind h fun _ => .pure _
  rw [Parser.elseBranch?, Parser.elseBranch?]
  by_cases hElse : c.skipLineBreaks.isAt (.keyword .elseWord) = true
  · rw [if_pos hElse, if_pos hElse]
    have hLength := hSkipped.length_le
    have hFewer : c.skipLineBreaks.rest.length < n := Nat.lt_of_le_of_lt hLength hBound
    obtain ⟨hSame, hTaken⟩ := hBranch _ hFewer fun t ht => hAll t (hSkipped.mem ht)
    exact ⟨hSame, fun a c' hRun => hSkipped.trans (hTaken a c' hRun)⟩
  · rw [if_neg hElse, if_neg hElse]
    refine ⟨rfl, ?_⟩
    intro a c' hRun
    cases hRun
    exact .refl c

end Agree

/-! ## Lists of items -/

section Items

variable {item item' : Parser α} {gap : Parser Unit} {more more' : Parser (List α)}

/-- The rest of a list, with `more` for what stands behind its next item. -/
def moreItemsStep (item : Parser α) (gap : Parser Unit) (more : Parser (List α)) :
    Parser (List α) := do
  if ← isAt (.bracket .closeParen) then
    let _ ← advance
    return []
  else
    let _ ← expect (.symbol .comma)
    gap
    let a ← item
    gap
    let as ← more
    return a :: as

theorem moreItems_succ (item : Parser α) (gap : Parser Unit) (bound : Nat) :
    moreItems item gap (bound + 1) = moreItemsStep item gap (moreItems item gap bound) := rfl

theorem moreItemsStep_agree (hItem : Agree P j n item item') (hGap : ∀ n, Agree P 0 n gap gap)
    (hMore : Agree P k n more more') :
    Agree P 1 (n + 1) (moreItemsStep item gap more) (moreItemsStep item' gap more') := by
  refine .bind (.isAt _) fun _ => .ite ?_ ?_
  · exact .head .advance fun _ => .pure _
  · refine .step (.expect _) fun _ => .bind (hGap n) fun _ => .bind hItem fun _ => ?_
    exact .bind (hGap n) fun _ => .bind hMore fun _ => .pure _

theorem moreItems_agree (hItem : Agree P j n item item') (hGap : ∀ n, Agree P 0 n gap gap)
    (bound : Nat) : Agree P 1 (n + 1) (moreItems item gap bound) (moreItems item' gap bound) := by
  induction bound with
  | zero => exact .head (.expect _) fun _ => .pure _
  | succ bound ih =>
      rw [moreItems_succ, moreItems_succ]
      exact moreItemsStep_agree hItem hGap (ih.mono (Nat.le_succ n))

theorem items_agree (hItem : Agree P j n item item') (hGap : ∀ n, Agree P 0 n gap gap) :
    Agree P 1 n (items item gap) (items item' gap) := by
  refine .bind (hGap n) fun _ => .bind (.isAt _) fun _ => .ite ?_ ?_
  · exact .head .advance fun _ => .pure _
  · refine .bind hItem fun _ => .bind (hGap n) fun _ => .head ?_ fun _ => .pure _
    exact .atCursor fun c => (moreItems_agree hItem hGap _).mono (Nat.le_succ n)

end Items

end Parser

end ScriptLang
