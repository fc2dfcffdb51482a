import ScriptLang.Proofs.Reading.Termination
import ScriptLang.Proofs.Scanning.Rules

/-!
# Where a template is cut

`Cuts` says declaratively how a literal falls into plain texts and splices up
to some place: no `$` of a plain text starts a splice, a source stands between
`$` with a brace and the first brace that closes this one, and a name reaches as
far as it can. There is at most one way to cut a literal whole (`Cuts.unique`),
and a literal that cannot be cut whole can be cut up to a site that `Fails`.

`parseTemplate_cuts` says that literals are read by cutting them so. An offset
counts each `$` in front of it twice, and is still enough to find the place of
its splice in the remainder.
-/

namespace ScriptLang.Template

variable {embed : String → Except ParseError Expr} {literal : String} {position offset : Nat}
  {c : Char} {l rest tail t t' u : List Char} {texts texts' : List (List Char)}

/-! ## Cuts -/

/-- A splice with what it stands for. -/
inductive Splice
  | source (inner : List Char) (e : Expr)
  | name (word : List Char)

namespace Splice

/-- The text of a splice. -/
def chars : Splice → List Char
  | .source inner _ => '$' :: '\x7b' :: (inner ++ ['\x7d'])
  | .name word => '$' :: word

def expr : Splice → Expr
  | .source _ e => e
  | .name word => .var (String.ofList word)

/-- A splice stands in front of `tail`: its source is closed by the brace behind
it and is read by `embed`, or its name is a word that does not go on. -/
inductive Stands (embed : String → Except ParseError Expr) (tail : List Char) : Splice → Prop
  | source {inner : List Char} {e : Expr} (hCloses : Closes 0 inner)
      (hRead : embed (String.ofList inner) = .ok e) : Stands embed tail (.source inner e)
  | name {word : List Char} (hWord : Text.isWord word = true)
      (hEnds : Text.Ends Text.isWordChar tail) : Stands embed tail (.name word)

theorem source_chars (inner : List Char) (e : Expr) (tail : List Char) :
    (Splice.source inner e).chars ++ tail = '$' :: '\x7b' :: (inner ++ '\x7d' :: tail) := by
  simp [chars]

theorem name_chars (c : Char) (word tail : List Char) :
    (Splice.name (c :: word)).chars ++ tail = '$' :: c :: (word ++ tail) := rfl

end Splice

/-- No `$` of the text is followed by an opening brace, a letter or an
underscore, be it in the text or in what stands behind it. -/
def PlainBefore (rest t : List Char) : Prop :=
  ∀ before after, t = before ++ '$' :: after →
    ∀ c ∈ (after ++ rest).head?, c ≠ '\x7b' ∧ Text.isWordStart c = false

/-- A literal up to `rest`: plain texts with splices between them. -/
inductive Cuts (embed : String → Except ParseError Expr) :
    List Char → List (List Char) → List Splice → List Char → Prop
  | last {t rest : List Char} (hPlain : PlainBefore rest t) : Cuts embed (t ++ rest) [t] [] rest
  | splice {t tail rest : List Char} {s : Splice} {texts : List (List Char)}
      {splices : List Splice} (hPlain : PlainBefore (s.chars ++ tail) t)
      (hStands : s.Stands embed tail) (hTail : Cuts embed tail texts splices rest) :
      Cuts embed (t ++ (s.chars ++ tail)) (t :: texts) (s :: splices) rest

/-- What stands from a site on that has no reading, with the error for it: the
brace of its source is never closed, or its source is refused. -/
inductive Fails (embed : String → Except ParseError Expr) (literal : String) (position : Nat) :
    List Char → ParseError → Prop
  | unterminated {rest : List Char} (hOpen : StaysOpen 0 rest) :
      Fails embed literal position ('$' :: '\x7b' :: rest)
        ⟨.unterminatedTemplate literal, position⟩
  | refused {inner after : List Char} {e : ParseError} (hCloses : Closes 0 inner)
      (hRefused : embed (String.ofList inner) = .error e) :
      Fails embed literal position ('$' :: '\x7b' :: (inner ++ '\x7d' :: after))
        ⟨.invalidTemplate (String.ofList inner) e.message, position⟩

variable {splices splices' : List Splice} {s s' : Splice}

/-! ## Offsets -/

/-- The number of characters, each `$` counted twice. -/
def weight (t : List Char) : Nat := t.length + t.count '$'

theorem weight_nil : weight [] = 0 := rfl

theorem weight_append (t u : List Char) : weight (t ++ u) = weight t + weight u := by
  rw [weight, weight, weight, List.length_append, List.count_append]
  omega

/-- The weight of a part from the start tells where the part ends. -/
theorem prefix_eq_of_weight (ht : t <+: l) (hu : u <+: l) (h : weight t = weight u) : t = u := by
  have hPrefix : ∀ {t u : List Char}, t <+: u → weight t = weight u → t = u := by
    rintro t _ ⟨v, rfl⟩ hWeight
    rw [weight_append, weight] at hWeight
    have hNil : v = [] := List.eq_nil_of_length_eq_zero (by rw [weight] at hWeight; omega)
    rw [hNil, List.append_nil]
  rcases List.prefix_or_prefix_of_prefix ht hu with hLess | hLess
  · exact hPrefix hLess h
  · exact (hPrefix hLess h.symm).symm

/-- The offset of a splice: the weight of the texts in front of it. -/
def offsetAt (texts : List (List Char)) (i : Nat) : Nat := weight (texts.take (i + 1)).flatten

/-- The splices with their offsets. -/
def placed (offset : Nat) (texts : List (List Char)) (splices : List Splice) :
    List (Nat × Expr) :=
  splices.mapIdx fun i s => (offset + offsetAt texts i, s.expr)

theorem placed_cons : placed offset (t :: texts) (s :: splices) =
    (offset + weight t, s.expr) :: placed (offset + weight t) texts splices := by
  simp [placed, offsetAt, List.mapIdx_cons, weight_append, weight_nil, Nat.add_assoc]

/-- Offsets do not decrease. -/
theorem placed_pairwise (offset : Nat) (texts : List (List Char)) (splices : List Splice) :
    (placed offset texts splices).Pairwise (fun a b => a.1 ≤ b.1) := by
  rw [List.pairwise_iff_getElem]
  intro i j hi hj hLess
  have hSplit : texts.take (j + 1) = texts.take (i + 1) ++ (texts.take (j + 1)).drop (i + 1) := by
    have hTake : (texts.take (j + 1)).take (i + 1) = texts.take (i + 1) := by
      rw [List.take_take, Nat.min_eq_left (by omega)]
    rw [← hTake, List.take_append_drop]
  simp only [placed, List.getElem_mapIdx, offsetAt]
  rw [hSplit, List.flatten_append, weight_append]
  omega

/-- An offset tells where its splice stands in the remainder. -/
theorem cut_eq_of_offset {i : Nat} (hPrefix : u <+: texts.flatten)
    (h : weight u = offsetAt texts i) : u = (texts.take (i + 1)).flatten := by
  refine prefix_eq_of_weight hPrefix ⟨(texts.drop (i + 1)).flatten, ?_⟩ h
  rw [← List.flatten_append, List.take_append_drop]

/-! ## Cutting is reading -/

/-- What is read when a text and some splices stand in front of what `x` reads. -/
def extend (t : List Char) (found : List (Nat × Expr))
    (x : Except ParseError (List Char × List (Nat × Expr))) :
    Except ParseError (List Char × List (Nat × Expr)) :=
  x.map fun (remainder, splices) => (t ++ remainder, found ++ splices)

theorem extend_extend {x : Except ParseError (List Char × List (Nat × Expr))}
    {found found' : List (Nat × Expr)} :
    extend t found (extend t' found' x) = extend (t ++ t') (found ++ found') x := by
  cases x with
  | error e => rfl
  | ok made => simp [extend, Except.map]

theorem extend_nil {x : Except ParseError (List Char × List (Nat × Expr))} :
    extend [] [] x = x := by
  cases x with
  | error e => rfl
  | ok made => rfl

/-- A plain text is read as it stands, and counts by its weight. -/
theorem assemble_plainBefore (h : PlainBefore rest t) :
    assemble embed literal position offset (pieces (t ++ rest)) =
      extend t [] (assemble embed literal position (offset + weight t) (pieces rest)) := by
  induction t generalizing offset with
  | nil => rw [extend_nil, List.nil_append, weight_nil, Nat.add_zero]
  | cons c t ih =>
      have hTail : PlainBefore rest t := fun before after hText =>
        h (c :: before) after (by rw [hText, List.cons_append])
      by_cases hDollar : c = '$'
      · subst hDollar
        have hWeight : offset + weight ('$' :: t) = offset + 2 + weight t := by
          simp [weight]
          omega
        rw [List.cons_append, pieces_dollar (h [] t rfl), assemble, ih hTail, hWeight]
        show extend ['$'] [] (extend t [] _) = _
        rw [extend_extend]
        rfl
      · have hWeight : offset + weight (c :: t) = offset + 1 + weight t := by
          rw [weight, weight, List.length_cons, List.count_cons_of_ne hDollar]
          omega
        rw [List.cons_append, pieces_plain hDollar, assemble, ih hTail, hWeight]
        show extend [c] [] (extend t [] _) = _
        rw [extend_extend]
        rfl

theorem word_cases {word : List Char} (h : Text.isWord word = true) :
    ∃ c rest, word = c :: rest ∧ Text.isWordStart c = true ∧
      ∀ d ∈ rest, Text.isWordChar d = true := by
  cases word with
  | nil => exact absurd h nofun
  | cons c rest =>
      rw [Text.isWord, Bool.and_eq_true, List.all_eq_true] at h
      exact ⟨c, rest, rfl, h⟩

/-- A splice is read at the offset where it stands. -/
theorem assemble_stands (h : s.Stands embed tail) :
    assemble embed literal position offset (pieces (s.chars ++ tail)) =
      extend [] [(offset, s.expr)] (assemble embed literal position offset (pieces tail)) := by
  cases h with
  | @source inner e hCloses hRead =>
      rw [Splice.source_chars, pieces_source hCloses, assemble, readSource, hRead]
      rfl
  | @name word hWord hEnds =>
      obtain ⟨c, rest, rfl, hStart, hRest⟩ := word_cases hWord
      have hTaken := Text.takeWhile_append_ends hRest hEnds
      have hDropped : (rest ++ tail).dropWhile Text.isWordChar = tail := by
        have hSplit := List.takeWhile_append_dropWhile (p := Text.isWordChar) (l := rest ++ tail)
        rw [hTaken] at hSplit
        exact List.append_cancel_left hSplit
      rw [Splice.name_chars, pieces_name hStart, hTaken, hDropped, assemble]
      rfl

/-- What stands in front of the place up to which a literal is cut is read, and
the reading goes on from there. -/
theorem Cuts.assemble (h : Cuts embed l texts splices rest) :
    assemble embed literal position offset (pieces l) =
      extend texts.flatten (placed offset texts splices)
        (Template.assemble embed literal position (offset + weight texts.flatten)
          (pieces rest)) := by
  induction h generalizing offset with
  | last hPlain =>
      rw [assemble_plainBefore hPlain, List.flatten_singleton]
      rfl
  | splice hPlain hStands hTail ih =>
      rw [assemble_plainBefore hPlain, assemble_stands hStands, ih, extend_extend, extend_extend,
        placed_cons, List.flatten_cons, weight_append, Nat.add_assoc, List.append_nil]
      rfl

theorem Fails.assemble {e : ParseError} (h : Fails embed literal position rest e) :
    assemble embed literal position offset (pieces rest) = .error e := by
  cases h with
  | unterminated hOpen =>
      rw [pieces_unclosed hOpen]
      rfl
  | refused hCloses hRefused =>
      rw [pieces_source hCloses, Template.assemble, readSource, hRefused]
      rfl

/-! ## Every literal is cut -/

/-- A character in front belongs to the first text, if it starts no splice. -/
theorem Cuts.cons (h : Cuts embed l texts splices rest)
    (hPlain : c = '$' → ∀ d ∈ l.head?, d ≠ '\x7b' ∧ Text.isWordStart d = false) :
    ∃ texts, Cuts embed (c :: l) texts splices rest := by
  have hCons : ∀ {t rest : List Char}, l = t ++ rest → PlainBefore rest t →
      PlainBefore rest (c :: t) := by
    rintro t rest rfl hText before after hSplit
    cases before with
    | nil =>
        obtain ⟨hDollar, rfl⟩ := List.cons.inj hSplit
        exact hPlain hDollar
    | cons d before => exact hText before after (List.cons.inj hSplit).2
  cases h with
  | last hText => exact ⟨_, .last (hCons rfl hText)⟩
  | splice hText hStands hTail => exact ⟨_, .splice (hCons rfl hText) hStands hTail⟩

/-- A literal is cut whole, or up to a site that has no reading. -/
theorem exists_cuts (embed : String → Except ParseError Expr) (literal : String) (position : Nat)
    (l : List Char) : ∃ texts splices rest, Cuts embed l texts splices rest ∧
      (rest = [] ∨ ∃ e, Fails embed literal position rest e) := by
  have hEmpty : ∀ rest, PlainBefore rest [] := fun rest before after hSplit =>
    absurd hSplit (by simp)
  induction l using cut_induction with
  | nil => exact ⟨_, _, _, .last (hEmpty []), .inl rfl⟩
  | plain c l hDollar ih =>
      obtain ⟨texts, splices, rest, hCuts, hEnd⟩ := ih
      obtain ⟨texts, hCuts⟩ := hCuts.cons (c := c) fun h => absurd h hDollar
      exact ⟨texts, splices, rest, hCuts, hEnd⟩
  | dollar l hNext ih =>
      obtain ⟨texts, splices, rest, hCuts, hEnd⟩ := ih
      obtain ⟨texts, hCuts⟩ := hCuts.cons fun _ => hNext
      exact ⟨texts, splices, rest, hCuts, hEnd⟩
  | source inner after hCloses ih =>
      cases hRead : embed (String.ofList inner) with
      | error e => exact ⟨_, _, _, .last (hEmpty _), .inr ⟨_, .refused hCloses hRead⟩⟩
      | ok e =>
          obtain ⟨texts, splices, rest, hCuts, hEnd⟩ := ih
          have hSite : Cuts embed ((Splice.source inner e).chars ++ after) ([] :: texts)
              (.source inner e :: splices) rest := .splice (hEmpty _) (.source hCloses hRead) hCuts
          rw [Splice.source_chars] at hSite
          exact ⟨_, _, rest, hSite, hEnd⟩
  | unclosed rest hOpen => exact ⟨_, _, _, .last (hEmpty _), .inr ⟨_, .unterminated hOpen⟩⟩
  | name c l hStart ih =>
      obtain ⟨texts, splices, rest, hCuts, hEnd⟩ := ih
      have hWord : Text.isWord (c :: l.takeWhile Text.isWordChar) = true := by
        rw [Text.isWord, hStart, List.all_takeWhile]
        rfl
      have hSite : Cuts embed ((Splice.name (c :: l.takeWhile Text.isWordChar)).chars ++
          l.dropWhile Text.isWordChar) ([] :: texts)
          (.name (c :: l.takeWhile Text.isWordChar) :: splices) rest :=
        .splice (hEmpty _) (.name hWord (Text.ends_dropWhile l)) hCuts
      rw [Splice.name_chars, List.takeWhile_append_dropWhile] at hSite
      exact ⟨_, _, rest, hSite, hEnd⟩

/-! ## There is one way to cut -/

/-- A splice or a site that fails: a `$` that may stay in no plain text. -/
def Opens (rest : List Char) : Prop :=
  ∃ d l, rest = '$' :: d :: l ∧ ¬ (d ≠ '\x7b' ∧ Text.isWordStart d = false)

theorem opens_brace : Opens ('$' :: '\x7b' :: l) := ⟨'\x7b', l, rfl, fun h => h.1 rfl⟩

theorem Splice.Stands.opens (h : s.Stands embed tail) : Opens (s.chars ++ tail) := by
  cases h with
  | source hCloses hRead => exact opens_brace
  | name hWord hEnds =>
      obtain ⟨c, rest, rfl, hStart, -⟩ := word_cases hWord
      refine ⟨c, rest ++ tail, rfl, ?_⟩
      rw [hStart]
      exact fun h => absurd h.2 nofun

theorem Fails.opens {e : ParseError} (h : Fails embed literal position rest e) : Opens rest := by
  cases h with
  | unterminated hOpen => exact opens_brace
  | refused hCloses hRefused => exact opens_brace

/-- A plain text reaches up to the first place where a splice would start. -/
theorem plain_unique {rest' : List Char} (hEq : t ++ rest = t' ++ rest')
    (hPlain : PlainBefore rest t) (hPlain' : PlainBefore rest' t')
    (hOpens : rest = [] ∨ Opens rest) (hOpens' : rest' = [] ∨ Opens rest') :
    t = t' ∧ rest = rest' := by
  have hNone : ∀ {t u rest' : List Char}, (u ++ rest' = [] ∨ Opens (u ++ rest')) →
      PlainBefore rest' (t ++ u) → u = [] := by
    intro t u rest' hOpens hPlain
    cases u with
    | nil => rfl
    | cons d u =>
        rcases hOpens with hEmpty | ⟨e, l, hRest, hOpens⟩
        · exact absurd hEmpty nofun
        · rw [List.cons_append, List.cons.injEq] at hRest
          obtain ⟨rfl, hBehind⟩ := hRest
          have hHead : e ∈ (u ++ rest').head? := by
            rw [hBehind]
            rfl
          exact absurd (hPlain t u rfl e hHead) hOpens
  rcases List.append_eq_append_iff.1 hEq with ⟨u, rfl, rfl⟩ | ⟨u, rfl, rfl⟩
  · rw [hNone hOpens hPlain', List.append_nil]
    exact ⟨rfl, rfl⟩
  · rw [hNone hOpens' hPlain, List.append_nil]
    exact ⟨rfl, rfl⟩

theorem closes_unique {inner inner' after after' : List Char}
    (hEq : inner ++ '\x7d' :: after = inner' ++ '\x7d' :: after') (h : Closes 0 inner)
    (h' : Closes 0 inner') : inner = inner' ∧ after = after' := by
  have hFound := closing?_eq_some.2 ⟨hEq, h'⟩
  rw [closing?_eq_some.2 ⟨rfl, h⟩] at hFound
  cases hFound
  exact ⟨rfl, rfl⟩

/-- What stands at a site is read in one way. -/
theorem Splice.Stands.unique {tail' : List Char} (hEq : s.chars ++ tail = s'.chars ++ tail')
    (h : s.Stands embed tail) (h' : s'.Stands embed tail') : s = s' ∧ tail = tail' := by
  cases h with
  | source hCloses hRead =>
      cases h' with
      | source hCloses' hRead' =>
          rw [source_chars, source_chars, List.cons.injEq, List.cons.injEq] at hEq
          obtain ⟨rfl, rfl⟩ := closes_unique hEq.2.2 hCloses hCloses'
          rw [hRead] at hRead'
          cases hRead'
          exact ⟨rfl, rfl⟩
      | name hWord' hEnds' =>
          obtain ⟨c, word, rfl, hStart, -⟩ := word_cases hWord'
          rw [source_chars, name_chars, List.cons.injEq, List.cons.injEq] at hEq
          rw [← hEq.2.1, isWordStart_brace] at hStart
          exact absurd hStart Bool.false_ne_true
  | name hWord hEnds =>
      obtain ⟨c, word, rfl, hStart, hRest⟩ := word_cases hWord
      cases h' with
      | source hCloses' hRead' =>
          rw [source_chars, name_chars, List.cons.injEq, List.cons.injEq] at hEq
          rw [hEq.2.1, isWordStart_brace] at hStart
          exact absurd hStart Bool.false_ne_true
      | name hWord' hEnds' =>
          obtain ⟨c', word', rfl, -, hRest'⟩ := word_cases hWord'
          rw [name_chars, name_chars, List.cons.injEq, List.cons.injEq] at hEq
          obtain ⟨-, rfl, hEq⟩ := hEq
          have hSame : word = word' := by
            rw [← Text.takeWhile_append_ends hRest hEnds, hEq,
              Text.takeWhile_append_ends hRest' hEnds']
          subst hSame
          exact ⟨rfl, List.append_cancel_left hEq⟩

/-- No splice stands at a site that fails. -/
theorem Splice.Stands.not_fails {e : ParseError} (h : s.Stands embed tail) :
    ¬ Fails embed literal position (s.chars ++ tail) e := by
  intro hFails
  generalize hEq : s.chars ++ tail = site at hFails
  cases h with
  | source hCloses hRead =>
      rw [source_chars] at hEq
      cases hFails with
      | unterminated hOpen =>
          rw [List.cons.injEq, List.cons.injEq] at hEq
          have hFound := closing?_eq_some.2 ⟨hEq.2.2.symm, hCloses⟩
          rw [closing?_eq_none.2 hOpen] at hFound
          cases hFound
      | refused hCloses' hRefused =>
          rw [List.cons.injEq, List.cons.injEq] at hEq
          obtain ⟨rfl, -⟩ := closes_unique hEq.2.2 hCloses hCloses'
          rw [hRead] at hRefused
          cases hRefused
  | name hWord hEnds =>
      obtain ⟨c, word, rfl, hStart, -⟩ := word_cases hWord
      have hBrace : c = '\x7b' := by
        rw [name_chars] at hEq
        cases hFails with
        | unterminated hOpen => exact (List.cons.inj (List.cons.inj hEq).2).1
        | refused hCloses hRefused => exact (List.cons.inj (List.cons.inj hEq).2).1
      rw [hBrace, isWordStart_brace] at hStart
      exact absurd hStart Bool.false_ne_true

/-- A literal is cut in one way, be it whole or up to a site that fails. -/
theorem Cuts.unique {rest' : List Char} (h : Cuts embed l texts splices rest)
    (literal : String) (position : Nat) (h' : Cuts embed l texts' splices' rest')
    (hEnd : rest = [] ∨ ∃ e, Fails embed literal position rest e)
    (hEnd' : rest' = [] ∨ ∃ e, Fails embed literal position rest' e) :
    texts = texts' ∧ splices = splices' ∧ rest = rest' := by
  have hOpens : ∀ {rest : List Char}, (rest = [] ∨ ∃ e, Fails embed literal position rest e) →
      rest = [] ∨ Opens rest := fun hEnd => hEnd.imp id fun ⟨_, hFails⟩ => hFails.opens
  have hSite : ∀ {s : Splice} {tail rest : List Char}, s.Stands embed tail →
      (rest = [] ∨ ∃ e, Fails embed literal position rest e) → s.chars ++ tail ≠ rest := by
    rintro s tail rest hStands hEnd rfl
    obtain ⟨d, l, hSplice, -⟩ := hStands.opens
    rcases hEnd with hNone | ⟨e, hFails⟩
    · rw [hNone] at hSplice
      exact absurd hSplice nofun
    · exact hStands.not_fails hFails
  induction h generalizing texts' splices' with
  | @last t rest hPlain =>
      generalize hEq : t ++ rest = l at h'
      cases h' with
      | last hPlain' =>
          obtain ⟨rfl, rfl⟩ := plain_unique hEq hPlain hPlain' (hOpens hEnd) (hOpens hEnd')
          exact ⟨rfl, rfl, rfl⟩
      | splice hPlain' hStands' hTail' =>
          obtain ⟨-, hRest⟩ :=
            plain_unique hEq hPlain hPlain' (hOpens hEnd) (.inr hStands'.opens)
          exact absurd hRest.symm (hSite hStands' hEnd)
  | @splice t tail rest s texts splices hPlain hStands hTail ih =>
      generalize hEq : t ++ (s.chars ++ tail) = l at h'
      cases h' with
      | last hPlain' =>
          obtain ⟨-, hRest⟩ :=
            plain_unique hEq hPlain hPlain' (.inr hStands.opens) (hOpens hEnd')
          exact absurd hRest (hSite hStands hEnd')
      | splice hPlain' hStands' hTail' =>
          obtain ⟨rfl, hRest⟩ :=
            plain_unique hEq hPlain hPlain' (.inr hStands.opens) (.inr hStands'.opens)
          obtain ⟨rfl, rfl⟩ := hStands.unique hRest hStands'
          obtain ⟨rfl, rfl, rfl⟩ := ih hTail' hEnd
          exact ⟨rfl, rfl, rfl⟩

/-! ## Literals -/

theorem parse_of_cuts (h : Cuts embed literal.toList texts splices []) :
    parse embed literal position =
      .ok (.text (String.ofList texts.flatten) (placed 0 texts splices)) := by
  rw [parse, h.assemble, pieces_nil]
  simp [extend, Template.assemble, Except.map, bind, Except.bind, pure, Except.pure]

theorem parse_of_fails {e : ParseError} (h : Cuts embed literal.toList texts splices rest)
    (hFails : Fails embed literal position rest e) : parse embed literal position = .error e := by
  rw [parse, h.assemble, hFails.assemble]
  rfl

theorem parse_eq_ok {e : Expr} : parse embed literal position = .ok e ↔
    ∃ texts splices, Cuts embed literal.toList texts splices [] ∧
      e = .text (String.ofList texts.flatten) (placed 0 texts splices) := by
  constructor
  · intro hRead
    obtain ⟨texts, splices, rest, hCuts, rfl | ⟨fault, hFails⟩⟩ :=
      exists_cuts embed literal position literal.toList
    · rw [parse_of_cuts hCuts] at hRead
      exact ⟨texts, splices, hCuts, (Except.ok.inj hRead).symm⟩
    · rw [parse_of_fails hCuts hFails] at hRead
      exact absurd hRead nofun
  · rintro ⟨texts, splices, hCuts, rfl⟩
    exact parse_of_cuts hCuts

theorem parse_eq_error {e : ParseError} : parse embed literal position = .error e ↔
    ∃ texts splices rest, Cuts embed literal.toList texts splices rest ∧
      Fails embed literal position rest e := by
  constructor
  · intro hRead
    obtain ⟨texts, splices, rest, hCuts, rfl | ⟨fault, hFails⟩⟩ :=
      exists_cuts embed literal position literal.toList
    · rw [parse_of_cuts hCuts] at hRead
      exact absurd hRead nofun
    · rw [parse_of_fails hCuts hFails] at hRead
      cases hRead
      exact ⟨texts, splices, rest, hCuts, hFails⟩
  · rintro ⟨texts, splices, rest, hCuts, hFails⟩
    exact parse_of_fails hCuts hFails

/-- The reading of the source of a splice: as that of a whole expression. -/
def readSpliced (source : String) : Except ParseError Expr := tokenize source >>= parseExpression

/-- A literal is read exactly if it can be cut whole, which it can in one way
at most. What is read is the remainder, the plain texts together, with each
splice at the weight of the texts in front of it. These offsets do not
decrease, and each tells the one place in the remainder where its splice
stands. A literal that is not read is cut up to the first site that has no
reading, and the error says why that one has none. -/
theorem parseTemplate_cuts (literal : String) (position : Nat) :
    (∀ e, parseTemplate literal position = .ok e ↔
      ∃ texts splices, Cuts readSpliced literal.toList texts splices [] ∧
        e = .text (String.ofList texts.flatten)
          (splices.mapIdx fun i s => (offsetAt texts i, s.expr))) ∧
    (∀ texts splices texts' splices', Cuts readSpliced literal.toList texts splices [] →
      Cuts readSpliced literal.toList texts' splices' [] → texts = texts' ∧ splices = splices') ∧
    (∀ texts splices, Cuts readSpliced literal.toList texts splices [] →
      (splices.mapIdx fun i s => (offsetAt texts i, s.expr)).Pairwise (fun a b => a.1 ≤ b.1) ∧
      ∀ i u, u <+: texts.flatten → weight u = offsetAt texts i →
        u = (texts.take (i + 1)).flatten) ∧
    (∀ e, parseTemplate literal position = .error e ↔
      ∃ texts splices rest, Cuts readSpliced literal.toList texts splices rest ∧
        Fails readSpliced literal position rest e) := by
  have hEmbed : embedded = readSpliced := funext embedded_eq
  have hPlaced : ∀ texts splices, placed 0 texts splices =
      splices.mapIdx fun i s => (offsetAt texts i, s.expr) := by
    intro texts splices
    simp [placed]
  refine ⟨fun e => ?_, ?_, ?_, fun e => ?_⟩
  · rw [parseTemplate, hEmbed, parse_eq_ok]
    simp only [hPlaced]
  · intro texts splices texts' splices' h h'
    obtain ⟨hTexts, hSplices, -⟩ := h.unique literal position h' (.inl rfl) (.inl rfl)
    exact ⟨hTexts, hSplices⟩
  · intro texts splices _
    rw [← hPlaced]
    exact ⟨placed_pairwise 0 texts splices, fun i u => cut_eq_of_offset⟩
  · rw [parseTemplate, hEmbed, parse_eq_error]

/-- A `$` that stays plain counts twice, and two splices may share a place. -/
theorem cut_at_adjacent_splices :
    ∃ texts splices, Cuts readSpliced "a$ $n$\x7b1+2\x7d.".toList texts splices [] ∧
      Expr.text "a$ ." [(4, .var "n"), (4, .binary (.int 1) (.arithmetic .plus) (.int 2))] =
        .text (String.ofList texts.flatten)
          (splices.mapIdx fun i s => (offsetAt texts i, s.expr)) :=
  ((parseTemplate_cuts "a$ $n$\x7b1+2\x7d." 0).1 _).1 (by decide +kernel)

end ScriptLang.Template
