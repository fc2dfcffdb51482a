import ScriptLang.Proofs.Outcome
import ScriptLang.Proofs.Scanning.SourceText

/-!
# What a scanner can return

The token lists that scanning returns are exactly the well-formed ones
(`WellFormed`): integers fit, names are words that are not reserved, texts hold
no quote, and the marks `<`, `>` and `>=` are read by what stands before them.
Each of these lists is the reading of its own rendering, so scanning what was
rendered from scanned tokens gives the tokens again (`scanner_image`).

`WellFormed` speaks of whole lists: of the token before a `<`, and of the
numbers of angle brackets before a `>`. A context carries the same information
along a run (`Context.start_accepts_iff`).
-/

namespace ScriptLang

variable {ctx : Context} {t : Token} {ts before after : List Token} {source : String}

/-- The number of brackets `<` among some tokens. -/
def opened (ts : List Token) : Nat := ts.count (.bracket .openAngle)

/-- The number of brackets `>` among some tokens. -/
def closed (ts : List Token) : Nat := ts.count (.bracket .closeAngle)

theorem opened_append : opened (before ++ after) = opened before + opened after :=
  List.count_append

theorem closed_append : closed (before ++ after) = closed before + closed after :=
  List.count_append

theorem opened_cons : opened (t :: ts) = opened [t] + opened ts := by
  show opened ([t] ++ ts) = _
  exact opened_append

theorem closed_cons : closed (t :: ts) = closed [t] + closed ts := by
  show closed ([t] ++ ts) = _
  exact closed_append

/-- A list of tokens as scanning returns them. -/
structure WellFormed (ts : List Token) : Prop where
  int : ∀ value, .int value ∈ ts → 0 ≤ value ∧ value ≤ 2147483647
  name : ∀ name, .name name ∈ ts → Text.isWord name.toList = true ∧ isReserved name = false
  text : ∀ contents, .text contents ∈ ts → '\x22' ∉ contents.toList
  openAngle : ∀ before after, ts = before ++ .bracket .openAngle :: after →
    ∃ kind, before.getLast? = some (.typeWord (.collection kind))
  less : ∀ before after, ts = before ++ .infixMark (.binary (.comparison .less)) :: after →
    ¬ ∃ kind, before.getLast? = some (.typeWord (.collection kind))
  closeAngle : ∀ before after, ts = before ++ after → closed before ≤ opened before
  greater : ∀ before after op, op = .greater ∨ op = .greaterEqual →
    ts = before ++ .infixMark (.binary (.comparison op)) :: after → opened before = closed before

/-! ## Contexts along a list -/

namespace Context

/-- The depth counts the brackets that are opened and not closed. A bracket that
closes nothing would be lost to it. -/
theorem depth_after (h : t = .bracket .closeAngle → 0 < ctx.depth) :
    (ctx.after t).depth + closed [t] = ctx.depth + opened [t] := by
  by_cases hOpen : t = .bracket .openAngle
  · rw [hOpen]
    rfl
  · by_cases hClose : t = .bracket .closeAngle
    · have hSome := h hClose
      rw [hClose]
      show ctx.depth - 1 + 1 = ctx.depth
      omega
    · have hDepth : (ctx.after t).depth = ctx.depth := by
        unfold after
        split
        · exact absurd rfl hOpen
        · exact absurd rfl hClose
        · rfl
      rw [hDepth]
      simp [opened, closed, hOpen, hClose]

/-- Accepted tokens never close more brackets than are open. -/
theorem Accepts.closed_le (h : ctx.Accepts (before ++ after)) :
    closed before ≤ ctx.depth + opened before := by
  induction before generalizing ctx with
  | nil => exact Nat.zero_le _
  | cons t before ih =>
      have hDepth : (ctx.after t).depth + closed [t] = ctx.depth + opened [t] := by
        refine depth_after ?_
        rintro rfl
        exact h.1
      have hMore := ih h.2
      rw [closed_cons, opened_cons]
      omega

theorem depth_afterAll (before : List Token)
    (h : ∀ u v, before = u ++ v → closed u ≤ ctx.depth + opened u) :
    (ctx.afterAll before).depth + closed before = ctx.depth + opened before := by
  induction before generalizing ctx with
  | nil => rfl
  | cons t before ih =>
      have hDepth : (ctx.after t).depth + closed [t] = ctx.depth + opened [t] := by
        refine depth_after ?_
        rintro rfl
        exact h [.bracket .closeAngle] before rfl
      have hMore : ∀ u v, before = u ++ v → closed u ≤ (ctx.after t).depth + opened u := by
        rintro u v rfl
        have hLonger := h (t :: u) v rfl
        rw [closed_cons, opened_cons] at hLonger
        omega
      have hCount := ih hMore
      rw [afterAll_cons, closed_cons, opened_cons]
      omega

/-- Acceptance token by token: each is admitted behind those before it. -/
theorem accepts_iff : ctx.Accepts ts ↔
    ∀ before t after, ts = before ++ t :: after → (ctx.afterAll before).Admits t := by
  induction ts generalizing ctx with
  | nil => exact ⟨fun _ before t after hSplit => by simp at hSplit, fun _ => trivial⟩
  | cons t ts ih =>
      constructor
      · rintro ⟨hFirst, hMore⟩ before u after hSplit
        cases before with
        | nil =>
            cases hSplit
            exact hFirst
        | cons s before =>
            cases hSplit
            exact ih.1 hMore before u after rfl
      · intro h
        refine ⟨h [] t ts rfl, ih.2 ?_⟩
        rintro before u after rfl
        exact h (t :: before) u after rfl

theorem start_afterCollection : (start.afterAll ts).AfterCollection ↔
    ∃ kind, ts.getLast? = some (.typeWord (.collection kind)) := by
  have hLast : (start.afterAll ts).tokens.back? = ts.getLast? := by
    rw [← Array.getLast?_toList, tokens_afterAll]
    rfl
  rw [AfterCollection, hLast]

theorem start_depth (h : ∀ u v, ts = u ++ v → closed u ≤ opened u) :
    (start.afterAll ts).depth + closed ts = opened ts := by
  have hNone : start.depth = 0 := rfl
  have hCount := start.depth_afterAll ts fun u v hSplit => by
    have hLe := h u v hSplit
    omega
  omega

/-- Scanning accepts exactly the well-formed lists. -/
theorem start_accepts_iff : start.Accepts ts ↔ WellFormed ts := by
  constructor
  · intro h
    have hEach := accepts_iff.1 h
    have hClosed : ∀ before after, ts = before ++ after → closed before ≤ opened before := by
      rintro before after rfl
      have hLe := h.closed_le
      rwa [show start.depth = 0 from rfl, Nat.zero_add] at hLe
    have hPrefix : ∀ before after, ts = before ++ after →
        ∀ u v, before = u ++ v → closed u ≤ opened u := by
      rintro before after rfl u v rfl
      exact hClosed u (v ++ after) (List.append_assoc u v after)
    constructor
    · intro value hMem
      obtain ⟨before, after, hSplit⟩ := List.append_of_mem hMem
      exact hEach before _ after hSplit
    · intro name hMem
      obtain ⟨before, after, hSplit⟩ := List.append_of_mem hMem
      exact hEach before _ after hSplit
    · intro contents hMem
      obtain ⟨before, after, hSplit⟩ := List.append_of_mem hMem
      exact hEach before _ after hSplit
    · intro before after hSplit
      exact start_afterCollection.1 (hEach before _ after hSplit)
    · intro before after hSplit hKind
      exact hEach before _ after hSplit (start_afterCollection.2 hKind)
    · exact hClosed
    · intro before after op hOp hSplit
      have hDepth : (start.afterAll before).depth = 0 := by
        rcases hOp with rfl | rfl
        · exact hEach before _ after hSplit
        · exact hEach before _ after hSplit
      have hCount := start_depth (hPrefix before _ hSplit)
      omega
  · intro h
    -- Each token is judged at its place, where the depth is known from the prefix.
    refine accepts_iff.2 ?_
    intro before t after hSplit
    have hMem : t ∈ ts := by
      rw [hSplit]
      simp
    have hPrefix : ∀ u v, before = u ++ v → closed u ≤ opened u := by
      rintro u v rfl
      exact h.closeAngle u (v ++ t :: after) (by rw [hSplit, List.append_assoc])
    have hCount := start_depth hPrefix
    rw [Admits.eq_def]
    split
    · exact h.int _ hMem
    · exact h.name _ hMem
    · exact h.text _ hMem
    · exact start_afterCollection.2 (h.openAngle _ _ hSplit)
    · exact fun hAfter => h.less _ _ hSplit (start_afterCollection.1 hAfter)
    · have hLonger := h.closeAngle (before ++ [.bracket .closeAngle]) after (by simp [hSplit])
      have hOne : closed [.bracket .closeAngle] = 1 := rfl
      have hNone : opened [.bracket .closeAngle] = 0 := rfl
      rw [closed_append, opened_append] at hLonger
      omega
    · have hEqual := h.greater _ _ _ (.inl rfl) hSplit
      omega
    · have hEqual := h.greater _ _ _ (.inr rfl) hSplit
      omega
    · trivial

end Context

/-! ## Rendering -/

/-- Tokens written out, with a space between each two. -/
def render (ts : List Token) : String := " ".intercalate (ts.map Token.source)

theorem render_cons_cons {u : Token} : (render (t :: u :: ts)).toList =
    t.source.toList ++ ' ' :: (render (u :: ts)).toList := by
  rw [render, List.map_cons, List.map_cons, String.intercalate_cons_cons, String.toList_append,
    String.toList_append, List.append_assoc]
  rfl

theorem render_head (t : Token) (ts : List Token) :
    ∃ tail, (render (t :: ts)).toList = t.source.toList ++ tail := by
  cases ts with
  | nil => exact ⟨[], (List.append_nil _).symm⟩
  | cons u us => exact ⟨_, render_cons_cons⟩

theorem continuedBy_space (t : Token) : t.continuedBy ' ' = false := by
  unfold Token.continuedBy
  split <;> rfl

namespace Context

/-- What is accepted is read back from its rendering. -/
theorem reads_render (h : ctx.Accepts ts) : ctx.Reads (render ts).toList ts := by
  induction ts generalizing ctx with
  | nil => exact Reads.nil
  | cons t ts ih =>
      have hRest := ih h.2
      cases ts with
      | nil =>
          have hRead := Reads.token h.1 Text.ends_nil Reads.nil
          rw [List.append_nil] at hRead
          exact hRead
      | cons u us =>
          have hEnds : Text.Ends isBlank (render (u :: us)).toList := by
            obtain ⟨tail, hRender⟩ := render_head u us
            obtain ⟨c, more, hSource, hBlank⟩ := source_head h.2.1
            rw [hRender, hSource]
            exact Text.ends_cons hBlank
          rw [render_cons_cons]
          exact Reads.token h.1 (Text.ends_cons (continuedBy_space t)) (Reads.blank hEnds hRest)

end Context

/-- Scanning returns exactly the well-formed lists, and each of them is what
scanning its rendering returns. So scanned tokens are scanned again from their
rendering. -/
theorem scanner_image :
    (∀ source ts, tokenize source = .ok ts → WellFormed ts) ∧
    (∀ ts, WellFormed ts → tokenize (render ts) = .ok ts) ∧
    (∀ source ts, tokenize source = .ok ts → tokenize (render ts) = .ok ts) := by
  have hImage : ∀ source ts, tokenize source = .ok ts → WellFormed ts := by
    intro source ts h
    exact Context.start_accepts_iff.1 (tokenize_accepts h)
  have hRender : ∀ ts, WellFormed ts → tokenize (render ts) = .ok ts := by
    intro ts h
    exact tokenize_of_reads (Context.reads_render (Context.start_accepts_iff.2 h))
  refine ⟨hImage, hRender, ?_⟩
  intro source ts h
  exact hRender ts (hImage source ts h)

/-- In `val a: Array<Int>= 1 >= 07` the first `>=` closes a bracket and assigns,
and the second compares. Rendered, the tokens stand apart and are read alike. -/
theorem scanned_greaterEqual :
    let ts : List Token :=
      [.keyword (.declaration true), .name "a", .symbol .colon, .typeWord (.collection .array),
        .bracket .openAngle, .typeWord (.basic .int), .bracket .closeAngle, .infixMark .assign,
        .int 1, .infixMark (.binary (.comparison .greaterEqual)), .int 7]
    WellFormed ts ∧ render ts = "val a : Array < Int > = 1 >= 7" ∧
      tokenize (render ts) = .ok ts := by
  intro ts
  have hTokens : tokenize "val a: Array<Int>= 1 >= 07" = .ok ts := by
    unfold ts
    decide +kernel
  have hImage := scanner_image.1 _ ts hTokens
  exact ⟨hImage, by rfl, scanner_image.2.1 ts hImage⟩

end ScriptLang
