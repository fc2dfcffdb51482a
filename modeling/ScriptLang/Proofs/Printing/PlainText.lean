import ScriptLang.Proofs.Template.Pieces

/-!
# Texts without splices

A text is plain if none of its `$` starts a splice. The contents of a literal
are read as themselves exactly when they are plain: `parse_plain` reads a plain
text as it stands, and `text_of_parse` shows that a literal that is read
without splices was plain.
-/

namespace ScriptLang

/-- No `$` in the text stands in front of an opening brace, a letter or an
underscore. -/
def PlainChars (l : List Char) : Prop :=
  ∀ c, ['$', c] <:+: l → c ≠ '\x7b' ∧ Text.isWordStart c = false

/-- A text that splices nothing in. -/
def PlainText (text : String) : Prop := PlainChars text.toList

theorem plainChars_nil : PlainChars [] := by
  intro c hInfix
  exact absurd hInfix.length_le (by simp)

/-- A plain text starts with any character before a plain text, except that a
`$` asks for what follows it. -/
theorem plainChars_cons {c : Char} {l : List Char} : PlainChars (c :: l) ↔
    (c = '$' → ∀ d ∈ l.head?, d ≠ '\x7b' ∧ Text.isWordStart d = false) ∧ PlainChars l := by
  constructor
  · intro h
    refine ⟨?_, fun d hd => h d (hd.trans (List.infix_cons (List.infix_refl l)))⟩
    rintro rfl d hHead
    obtain ⟨l', rfl⟩ := List.head?_eq_some_iff.1 hHead
    exact h d ⟨[], l', rfl⟩
  · rintro ⟨hHead, hTail⟩ d hInfix
    rcases List.infix_cons_iff.1 hInfix with hPrefix | hInfix
    · obtain ⟨l', hEq⟩ := hPrefix
      rw [List.cons_append, List.cons.injEq] at hEq
      refine hHead hEq.1.symm d ?_
      rw [← hEq.2]
      rfl
    · exact hTail d hInfix

namespace Template

variable {embed : String → Except ParseError Expr} {literal : String} {position : Nat}

/-! ## Assembling without splices -/

/-- The character that a piece keeps in the remainder, and by how much it moves the
offset. -/
def Piece.kept? : Piece → Option (Char × Nat)
  | .plain c => some (c, 1)
  | .dollar => some ('$', 2)
  | .source _ | .name _ | .unclosed => none

variable {offset width : Nat} {piece : Piece} {ps : List Piece} {c : Char} {l r : List Char}
  {splices : List (Nat × Expr)}

/-- A character that is kept stands in front of what the rest leaves. -/
theorem assemble_kept (hKept : piece.kept? = some (c, width)) :
    assemble embed literal position offset (piece :: ps) = .ok (r, splices) ↔
      ∃ r', assemble embed literal position (offset + width) ps = .ok (r', splices) ∧
        r = c :: r' := by
  cases piece with
  | plain d | dollar =>
      cases hKept
      constructor
      · intro h
        obtain ⟨⟨r', found⟩, hRest, hMade⟩ := except_bind_eq_ok.1 h
        cases hMade
        exact ⟨r', hRest, rfl⟩
      · rintro ⟨r', hRest, rfl⟩
        exact except_bind_eq_ok.2 ⟨(r', splices), hRest, rfl⟩
  | source | name | unclosed => cases hKept

/-- A piece that keeps no character makes a splice, where it has a reading. -/
theorem assemble_cut_ne (hCut : piece.kept? = none) :
    assemble embed literal position offset (piece :: ps) ≠ .ok (r, []) := by
  intro h
  cases piece with
  | plain | dollar => cases hCut
  | source text =>
      obtain ⟨e, -, hRest⟩ := except_bind_eq_ok.1 h
      obtain ⟨found, -, hMade⟩ := except_bind_eq_ok.1 hRest
      cases hMade
  | name text =>
      obtain ⟨found, -, hMade⟩ := except_bind_eq_ok.1 h
      cases hMade
  | unclosed => cases h

/-- A text that starts with a kept character is plain if the text behind it is, and
is read as it stands if that one is. -/
theorem assemble_pieces_cons (hKept : piece.kept? = some (c, width))
    (hPieces : pieces (c :: l) = piece :: pieces l)
    (hHead : c = '$' → ∀ d ∈ l.head?, d ≠ '\x7b' ∧ Text.isWordStart d = false)
    (hRest : ∀ {offset : Nat} {r : List Char},
      assemble embed literal position offset (pieces l) = .ok (r, []) ↔ r = l ∧ PlainChars l) :
    assemble embed literal position offset (pieces (c :: l)) = .ok (r, []) ↔
      r = c :: l ∧ PlainChars (c :: l) := by
  rw [hPieces, assemble_kept hKept, plainChars_cons]
  constructor
  · rintro ⟨r', hRead, rfl⟩
    obtain ⟨rfl, hPlain⟩ := hRest.1 hRead
    exact ⟨rfl, hHead, hPlain⟩
  · rintro ⟨rfl, -, hPlain⟩
    exact ⟨l, hRest.2 ⟨rfl, hPlain⟩, rfl⟩

/-- The pieces of a text leave it as it stands and splice nothing in exactly
where the text is plain. -/
theorem assemble_pieces (l : List Char) :
    assemble embed literal position offset (pieces l) = .ok (r, []) ↔ r = l ∧ PlainChars l := by
  induction l using cut_induction generalizing offset r with
  | nil => simp [pieces_nil, assemble, plainChars_nil, eq_comm]
  | plain c l hDollar ih =>
      exact assemble_pieces_cons rfl (pieces_plain hDollar) (fun h => absurd h hDollar) ih
  | dollar l hNext ih => exact assemble_pieces_cons rfl (pieces_dollar hNext) (fun _ => hNext) ih
  | source inner after hCloses ih =>
      rw [pieces_source hCloses]
      refine ⟨fun h => absurd h (assemble_cut_ne rfl), fun h => ?_⟩
      exact absurd rfl ((plainChars_cons.1 h.2).1 rfl _ rfl).1
  | unclosed rest hOpen =>
      rw [pieces_unclosed hOpen]
      refine ⟨fun h => absurd h (assemble_cut_ne rfl), fun h => ?_⟩
      exact absurd rfl ((plainChars_cons.1 h.2).1 rfl _ rfl).1
  | name c rest hStart ih =>
      rw [pieces_name hStart]
      refine ⟨fun h => absurd h (assemble_cut_ne rfl), fun h => ?_⟩
      rw [((plainChars_cons.1 h.2).1 rfl _ rfl).2] at hStart
      exact absurd hStart Bool.false_ne_true

/-- A plain text is read as it stands. -/
theorem parse_plain {text : String} (h : PlainText text) :
    parse embed text position = .ok (.text text []) := by
  have hPieces : assemble embed text position 0 (pieces text.toList) = .ok (text.toList, []) :=
    (assemble_pieces _).2 ⟨rfl, h⟩
  rw [parse, hPieces]
  simp [bind, Except.bind, pure, Except.pure]

/-- What is read from a literal is a text, and a plain one if nothing is
spliced in. -/
theorem text_of_parse {e : Expr} (h : parse embed literal position = .ok e) :
    ∃ text splices, e = .text text splices ∧ (splices = [] → PlainText text) := by
  rw [parse] at h
  cases hPieces : assemble embed literal position 0 (pieces literal.toList) with
  | error fault =>
      rw [hPieces] at h
      cases h
  | ok made =>
      rw [hPieces] at h
      refine ⟨_, _, (Except.ok.inj h).symm, ?_⟩
      intro hNone
      obtain ⟨r, splices⟩ := made
      cases hNone
      obtain ⟨rfl, hPlain⟩ := (assemble_pieces _).1 hPieces
      rw [PlainText, String.toList_ofList]
      exact hPlain

end Template

end ScriptLang
