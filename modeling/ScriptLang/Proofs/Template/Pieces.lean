import ScriptLang.Grammar.Template
import ScriptLang.Proofs.Outcome
import ScriptLang.Proofs.Recursion

/-!
# The pieces of a template

Where the brace stands that closes a splice (`closing?_eq_some`), and how a
literal is cut from its first character on: `piecesStep` is the body of the
recursion, and `pieces_source`, `pieces_name` and the like are its cases.

What is cut out is shorter than the literal, so the reading of a literal only
depends on how shorter texts are read (`parse_congr`).
-/

namespace ScriptLang.Template

variable {depth : Nat} {c : Char} {u inner after rest text : List Char}

/-! ## Braces -/

/-- The number of braces that are open behind a character. -/
def depthAfter (depth : Nat) (c : Char) : Nat :=
  if c = '\x7b' then depth + 1 else if c = '\x7d' then depth - 1 else depth

/-- No part of the text from its start on closes more braces than it opens and
`depth` others. -/
def StaysOpen (depth : Nat) (u : List Char) : Prop :=
  ∀ v, v <+: u → v.count '\x7d' ≤ depth + v.count '\x7b'

/-- Behind the text, and nowhere inside, a closing brace closes one brace more
than the `depth` that are open in front of the text and those opened inside. -/
structure Closes (depth : Nat) (u : List Char) : Prop where
  staysOpen : StaysOpen depth u
  closed : u.count '\x7d' = depth + u.count '\x7b'

theorem count_depthAfter (h : c = '\x7d' → 0 < depth) (v : List Char) :
    depth + (c :: v).count '\x7b' + v.count '\x7d' =
      depthAfter depth c + v.count '\x7b' + (c :: v).count '\x7d' := by
  rw [List.count_cons, List.count_cons, depthAfter]
  by_cases hOpen : c = '\x7b'
  · subst hOpen
    simp
    omega
  · by_cases hClose : c = '\x7d'
    · have hDepth := h hClose
      subst hClose
      simp
      omega
    · simp [hOpen, hClose]

theorem staysOpen_nil : StaysOpen depth [] := by
  intro v hPrefix
  rw [List.prefix_nil.1 hPrefix]
  exact Nat.zero_le _

theorem staysOpen_cons : StaysOpen depth (c :: u) ↔
    (c = '\x7d' → 0 < depth) ∧ StaysOpen (depthAfter depth c) u := by
  constructor
  · intro h
    have hFirst : c = '\x7d' → 0 < depth := by
      rintro rfl
      exact h ['\x7d'] ⟨u, rfl⟩
    refine ⟨hFirst, fun v hPrefix => ?_⟩
    have hCount := h (c :: v) ((List.prefix_cons_inj c).2 hPrefix)
    have hBalance := count_depthAfter hFirst v
    omega
  · rintro ⟨hFirst, h⟩ v hPrefix
    rcases List.prefix_cons_iff.1 hPrefix with rfl | ⟨v, rfl, hRest⟩
    · exact Nat.zero_le _
    · have hCount := h v hRest
      have hBalance := count_depthAfter hFirst v
      omega

theorem closes_nil : Closes depth [] ↔ depth = 0 :=
  ⟨fun h => h.closed.symm, fun h => ⟨staysOpen_nil, h.symm⟩⟩

theorem closes_cons : Closes depth (c :: u) ↔
    (c = '\x7d' → 0 < depth) ∧ Closes (depthAfter depth c) u := by
  constructor
  · rintro ⟨hOpen, hClosed⟩
    obtain ⟨hFirst, hOpen⟩ := staysOpen_cons.1 hOpen
    have hBalance := count_depthAfter hFirst u
    exact ⟨hFirst, hOpen, by omega⟩
  · rintro ⟨hFirst, hOpen, hClosed⟩
    have hBalance := count_depthAfter hFirst u
    exact ⟨staysOpen_cons.2 ⟨hFirst, hOpen⟩, by omega⟩

theorem closing?_cons : closing? depth (c :: rest) =
    if c = '\x7d' ∧ depth = 0 then some ([], rest)
    else (closing? (depthAfter depth c) rest).map fun (inner, after) => (c :: inner, after) := by
  by_cases hClose : c = '\x7d'
  · subst hClose
    cases depth with
    | zero => rfl
    | succ depth => rfl
  · by_cases hOpen : c = '\x7b'
    · subst hOpen
      rfl
    · simp [closing?, depthAfter, hClose, hOpen]

/-- The closing brace that is found is the first that closes the open one. -/
theorem closing?_eq_some : closing? depth text = some (inner, after) ↔
    text = inner ++ '\x7d' :: after ∧ Closes depth inner := by
  induction text generalizing depth inner with
  | nil => simp [closing?]
  | cons c rest ih =>
      rw [closing?_cons]
      by_cases hHere : c = '\x7d' ∧ depth = 0
      · obtain ⟨rfl, rfl⟩ := hHere
        rw [if_pos ⟨rfl, rfl⟩]
        constructor
        · intro h
          cases h
          exact ⟨rfl, closes_nil.2 rfl⟩
        · rintro ⟨hText, hCloses⟩
          cases inner with
          | nil =>
              cases hText
              rfl
          | cons d inner =>
              cases hText
              exact absurd ((closes_cons.1 hCloses).1 rfl) (Nat.lt_irrefl 0)
      · have hFirst : c = '\x7d' → 0 < depth := fun hClose =>
          Nat.pos_of_ne_zero fun hZero => hHere ⟨hClose, hZero⟩
        rw [if_neg hHere, Option.map_eq_some_iff]
        constructor
        · rintro ⟨⟨inner, after⟩, hRest, hFound⟩
          cases hFound
          obtain ⟨rfl, hCloses⟩ := ih.1 hRest
          exact ⟨rfl, closes_cons.2 ⟨hFirst, hCloses⟩⟩
        · rintro ⟨hText, hCloses⟩
          cases inner with
          | nil =>
              cases hText
              exact absurd ⟨rfl, closes_nil.1 hCloses⟩ hHere
          | cons d inner =>
              cases hText
              exact ⟨(inner, after), ih.2 ⟨rfl, (closes_cons.1 hCloses).2⟩, rfl⟩

/-- No closing brace is found exactly where none closes the open one. -/
theorem closing?_eq_none : closing? depth text = none ↔ StaysOpen depth text := by
  induction text generalizing depth with
  | nil => exact ⟨fun _ => staysOpen_nil, fun _ => rfl⟩
  | cons c rest ih =>
      rw [closing?_cons, staysOpen_cons]
      by_cases hHere : c = '\x7d' ∧ depth = 0
      · rw [if_pos hHere]
        refine ⟨nofun, fun h => ?_⟩
        have hDepth := h.1 hHere.1
        omega
      · have hFirst : c = '\x7d' → 0 < depth := fun hClose =>
          Nat.pos_of_ne_zero fun hZero => hHere ⟨hClose, hZero⟩
        rw [if_neg hHere, Option.map_eq_none_iff, ih]
        exact ⟨fun h => ⟨hFirst, h⟩, fun h => h.2⟩

/-! ## Cutting -/

/-- The cutting of a text, with `pieces` for what stands behind the first
piece. -/
def piecesStep (pieces : List Char → List Piece) : List Char → List Piece
  | [] => []
  | '$' :: '\x7b' :: rest =>
    match closing? 0 rest with
    | some (inner, after) => .source inner :: pieces after
    | none => [.unclosed]
  | '$' :: c :: rest =>
    if Text.isWordStart c then
      .name (c :: rest.takeWhile Text.isWordChar) :: pieces (rest.dropWhile Text.isWordChar)
    else .dollar :: pieces (c :: rest)
  | ['$'] => .dollar :: pieces []
  | c :: rest => .plain c :: pieces rest

theorem piecesAt_succ (bound : Nat) (text : List Char) :
    piecesAt (bound + 1) text = piecesStep (piecesAt bound) text := by
  fun_cases piecesStep (piecesAt bound) text <;> simp_all [piecesAt]

/-- Behind a piece stands less than the text. -/
theorem piecesStep_smaller {x y : List Char → List Piece} (text : List Char)
    (h : ∀ rest, rest.length < text.length → x rest = y rest) :
    piecesStep x text = piecesStep y text := by
  fun_cases piecesStep x text with
  | case1 => rfl
  | case2 rest inner after hClosing =>
      obtain ⟨rfl, -⟩ := closing?_eq_some.1 hClosing
      have hAfter : x after = y after := h after (by simp; omega)
      simp only [piecesStep, hClosing, hAfter]
  | case3 rest hClosing => simp only [piecesStep, hClosing]
  | case4 c rest hBrace hStart =>
      have hLength := (List.dropWhile_sublist (l := rest) Text.isWordChar).length_le
      have hAfter : x (rest.dropWhile Text.isWordChar) = y (rest.dropWhile Text.isWordChar) :=
        h _ (by rw [List.length_cons, List.length_cons]; omega)
      simp [piecesStep, hStart, hAfter]
  | case5 c rest hBrace hStart =>
      have hAfter : x (c :: rest) = y (c :: rest) := h _ (Nat.lt_succ_self _)
      simp [piecesStep, hStart, hAfter]
  | case6 => rw [piecesStep, h [] (Nat.lt_succ_self _)]
  | case7 c rest hBrace hNext hEnd =>
      have hAfter : x rest = y rest := h rest (Nat.lt_succ_self _)
      simp [piecesStep, hAfter]

/-- The cutting of a text ends after as many pieces as it has characters. -/
theorem pieces_recursion : Recursion List.length piecesStep pieces := by
  refine (Recursion.of_bounded List.length piecesStep (fun _ _ => True) piecesAt_succ ?_ ?_).1
  · intro text hNone
    rw [List.eq_nil_of_length_eq_zero hNone]
    rfl
  · intro x y text hSmaller
    exact ⟨piecesStep_smaller text fun rest hLess => (hSmaller rest hLess).1, trivial⟩

theorem pieces_nil : pieces [] = [] := rfl

theorem pieces_source (h : Closes 0 inner) :
    pieces ('$' :: '\x7b' :: (inner ++ '\x7d' :: after)) = .source inner :: pieces after := by
  rw [← pieces_recursion.unfold, piecesStep, closing?_eq_some.2 ⟨rfl, h⟩]

theorem pieces_unclosed (h : StaysOpen 0 rest) :
    pieces ('$' :: '\x7b' :: rest) = [.unclosed] := by
  rw [← pieces_recursion.unfold, piecesStep, closing?_eq_none.2 h]

/-- No name starts as a source does. -/
theorem isWordStart_brace : Text.isWordStart '\x7b' = false := by decide

theorem pieces_name (h : Text.isWordStart c = true) :
    pieces ('$' :: c :: rest) =
      .name (c :: rest.takeWhile Text.isWordChar) ::
        pieces (rest.dropWhile Text.isWordChar) := by
  have hBrace : c ≠ '\x7b' := by
    rintro rfl
    rw [isWordStart_brace] at h
    exact absurd h Bool.false_ne_true
  rw [← pieces_recursion.unfold]
  simp [piecesStep, h]

/-- A `$` stays plain in front of anything that starts no splice. -/
theorem pieces_dollar (h : ∀ d ∈ rest.head?, d ≠ '\x7b' ∧ Text.isWordStart d = false) :
    pieces ('$' :: rest) = .dollar :: pieces rest := by
  rw [← pieces_recursion.unfold]
  cases rest with
  | nil => rfl
  | cons d rest =>
      obtain ⟨hBrace, hStart⟩ := h d rfl
      simp [piecesStep, hStart]

theorem pieces_plain (h : c ≠ '$') : pieces (c :: rest) = .plain c :: pieces rest := by
  rw [← pieces_recursion.unfold]
  simp [piecesStep, h]

/-- What holds of a text if it holds behind its first piece holds of every
text. -/
@[elab_as_elim]
theorem cut_induction {motive : List Char → Prop} (text : List Char) (nil : motive [])
    (plain : ∀ c rest, c ≠ '$' → motive rest → motive (c :: rest))
    (dollar : ∀ rest, (∀ d ∈ rest.head?, d ≠ '\x7b' ∧ Text.isWordStart d = false) →
      motive rest → motive ('$' :: rest))
    (source : ∀ inner after, Closes 0 inner → motive after →
      motive ('$' :: '\x7b' :: (inner ++ '\x7d' :: after)))
    (unclosed : ∀ rest, StaysOpen 0 rest → motive ('$' :: '\x7b' :: rest))
    (name : ∀ c rest, Text.isWordStart c = true → motive (rest.dropWhile Text.isWordChar) →
      motive ('$' :: c :: rest)) : motive text := by
  induction hLength : text.length using Nat.strongRecOn generalizing text with
  | ind n ih =>
      subst hLength
      have hShorter : ∀ rest, rest.length < text.length → motive rest :=
        fun rest hLess => ih _ hLess rest rfl
      rcases text with _ | ⟨c, rest⟩
      · exact nil
      · by_cases hDollar : c = '$'
        · subst hDollar
          rcases rest with _ | ⟨d, rest⟩
          · exact dollar [] nofun nil
          · by_cases hBrace : d = '\x7b'
            · subst hBrace
              cases hClosing : closing? 0 rest with
              | none => exact unclosed rest (closing?_eq_none.1 hClosing)
              | some found =>
                  obtain ⟨inner, after⟩ := found
                  obtain ⟨rfl, hCloses⟩ := closing?_eq_some.1 hClosing
                  exact source inner after hCloses (hShorter after (by simp; omega))
            · by_cases hStart : Text.isWordStart d = true
              · have hLength :=
                  (List.dropWhile_sublist (l := rest) Text.isWordChar).length_le
                refine name d rest hStart (hShorter _ ?_)
                rw [List.length_cons, List.length_cons]
                omega
              · refine dollar (d :: rest) ?_ (hShorter _ (Nat.lt_succ_self _))
                rintro _ ⟨⟩
                exact ⟨hBrace, Bool.eq_false_iff.2 hStart⟩
        · exact plain c rest hDollar (hShorter rest (Nat.lt_succ_self _))

/-! ## What is cut out -/

/-- The source of a splice is shorter than the literal by the three characters
around it at least. -/
theorem length_source (h : .source inner ∈ pieces text) : inner.length + 3 ≤ text.length := by
  induction text using cut_induction with
  | nil => exact absurd h nofun
  | plain c rest hDollar ih =>
      rw [pieces_plain hDollar] at h
      cases h with
      | tail _ hRest => exact Nat.le_succ_of_le (ih hRest)
  | dollar rest hNext ih =>
      rw [pieces_dollar hNext] at h
      cases h with
      | tail _ hRest => exact Nat.le_succ_of_le (ih hRest)
  | source u after hCloses ih =>
      rw [pieces_source hCloses] at h
      rw [List.length_cons, List.length_cons, List.length_append, List.length_cons]
      cases h with
      | head => omega
      | tail _ hRest =>
          have hLength := ih hRest
          omega
  | unclosed rest hOpen =>
      rw [pieces_unclosed hOpen] at h
      cases h with
      | tail _ hRest => exact absurd hRest nofun
  | name c rest hStart ih =>
      rw [pieces_name hStart] at h
      have hDropped := (List.dropWhile_sublist (l := rest) Text.isWordChar).length_le
      rw [List.length_cons, List.length_cons]
      cases h with
      | tail _ hRest =>
          have hLength := ih hRest
          omega

variable {embed embed' : String → Except ParseError Expr} {literal : String}
  {position offset : Nat} {ps : List Piece}

theorem assemble_congr
    (h : ∀ inner, .source inner ∈ ps → embed (String.ofList inner) = embed' (String.ofList inner)) :
    assemble embed literal position offset ps = assemble embed' literal position offset ps := by
  induction ps generalizing offset with
  | nil => rfl
  | cons p ps ih =>
      have hTail : ∀ offset, assemble embed literal position offset ps =
          assemble embed' literal position offset ps := fun _ =>
        ih fun inner hMem => h inner (List.mem_cons_of_mem p hMem)
      cases p with
      | plain c => rw [assemble, assemble, hTail]
      | dollar => rw [assemble, assemble, hTail]
      | name text => rw [assemble, assemble, hTail]
      | unclosed => rfl
      | source text =>
          rw [assemble, assemble, hTail, readSource, readSource, h text List.mem_cons_self]

/-- The reading of a literal depends on the reading of shorter texts only. -/
theorem parse_congr (h : ∀ source : String, source.length + 3 ≤ literal.length →
    embed source = embed' source) :
    parse embed literal position = parse embed' literal position := by
  have hPieces : ∀ inner, .source inner ∈ pieces literal.toList →
      embed (String.ofList inner) = embed' (String.ofList inner) := by
    intro inner hMem
    have hLength := length_source hMem
    rw [String.length_toList] at hLength
    refine h _ ?_
    rw [String.length_ofList]
    exact hLength
  rw [parse, parse, assemble_congr hPieces]

end ScriptLang.Template
