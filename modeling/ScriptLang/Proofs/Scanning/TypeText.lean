import ScriptLang.Diagnostic.TypeError
import ScriptLang.Proofs.Reading.FormAgreement
import ScriptLang.Proofs.Scanning.SourceText

/-!
# Types as text

The text in which a type is shown is scanned into the tokens that spell the
type, and from these the type is read back. So no two types are shown alike, and
neither are two signatures whose names hold no parenthesis: wherever a message
sets the expected type against the received one, the two texts differ.
-/

namespace ScriptLang

open Text (Ends)

variable {ctx : Context} {rest : List Char} {ts : List Token} {c : Char}

/-! ## Scanning the text of a type -/

namespace Ty

theorem spelling_collection (kind : Collection) (element : Basic) :
    (collection kind element).spelling.toList =
      kind.spelling.toList ++ '<' :: (element.spelling.toList ++ ['>']) := by
  simp [spelling]

theorem spelling_function (parameters : List Ty) (result : Ty) :
    (function parameters result).spelling.toList =
      '(' :: ((spellings parameters).toList ++
        ')' :: ' ' :: '-' :: '>' :: ' ' :: result.spelling.toList) := by
  simp [spelling]

theorem spellings_cons_cons (ty other : Ty) (types : List Ty) :
    (spellings (ty :: other :: types)).toList =
      ty.spelling.toList ++ ',' :: ' ' :: (spellings (other :: types)).toList := by
  simp [spellings]

/-- The text of a type starts with a letter or a parenthesis. -/
theorem spelling_head (ty : Ty) :
    ∃ c tail, ty.spelling.toList = c :: tail ∧ joinsMark c = false ∧ isBlank c = false := by
  cases ty with
  | basic kind => cases kind <;> exact ⟨_, _, rfl, rfl, rfl⟩
  | collection kind element =>
      rw [spelling_collection]
      cases kind <;> exact ⟨_, _, rfl, rfl, rfl⟩
  | function parameters result =>
      rw [spelling_function]
      exact ⟨_, _, rfl, rfl, rfl⟩

theorem spelling_ends {p : Char → Bool} (ty : Ty)
    (h : ∀ c, joinsMark c = false → isBlank c = false → p c = false) :
    Ends p (ty.spelling.toList ++ rest) := by
  obtain ⟨c, tail, hText, hJoins, hBlank⟩ := ty.spelling_head
  rw [hText]
  exact Text.ends_cons (h c hJoins hBlank)

theorem spellings_ends {p : Char → Bool} (types : List Ty) (hRest : types = [] → Ends p rest)
    (h : ∀ c, joinsMark c = false → isBlank c = false → p c = false) :
    Ends p ((spellings types).toList ++ rest) := by
  rcases types with _ | ⟨ty, _ | ⟨other, types⟩⟩
  · exact hRest rfl
  · exact ty.spelling_ends h
  · rw [spellings_cons_cons, List.append_assoc]
    exact ty.spelling_ends h

end Ty

mutual

/-- The text of a type is read as the tokens that spell it. What stands behind it
must not be a word character, or its last word would go on. -/
theorem Context.reads_spelling : ∀ (ty : Ty) (ctx : Context) (rest : List Char) (ts : List Token),
    Ends Text.isWordChar rest → (ctx.afterAll ty.tokens).Reads rest ts →
    ctx.Reads (ty.spelling.toList ++ rest) (ty.tokens ++ ts)
  | .basic kind, ctx, rest, ts, hEnds, hRest =>
    .token (t := .typeWord (.basic kind)) trivial hEnds hRest
  | .collection kind element, ctx, rest, ts, hEnds, hRest => by
    rw [Ty.spelling_collection, List.append_assoc, List.cons_append, List.append_assoc]
    apply Reads.token (t := .typeWord (.collection kind)) trivial (Text.ends_cons rfl)
    apply Reads.token (t := .bracket .openAngle) ⟨kind, back?_after⟩
    · exact (Ty.basic element).spelling_ends fun c hJoins _ => hJoins
    apply Reads.token (t := .typeWord (.basic element)) trivial (Text.ends_cons rfl)
    exact .token (t := .bracket .closeAngle) (Nat.succ_pos _) (fun _ _ => rfl) hRest
  | .function parameters result, ctx, rest, ts, hEnds, hRest => by
    have hBehind : (((((ctx.after (.bracket .openParen)).afterAll (Ty.listTokens parameters)).after
        (.bracket .closeParen)).after (.symbol .arrow)).afterAll result.tokens).Reads rest ts := by
      simpa [Ty.tokens, afterAll] using hRest
    have hResult := reads_spelling result _ rest ts hEnds hBehind
    rw [Ty.spelling_function, Ty.tokens, List.cons_append, List.cons_append, List.append_assoc,
      List.append_assoc]
    apply Reads.token (t := .bracket .openParen) trivial
    · exact Ty.spellings_ends _ (fun _ => Text.ends_cons rfl) fun c hJoins _ => hJoins
    apply reads_spellings parameters _ _ _ (Text.ends_cons rfl)
    apply Reads.token (t := .bracket .closeParen) trivial (Text.ends_cons rfl)
    apply Reads.blank (Text.ends_cons rfl)
    apply Reads.token (t := .symbol .arrow) trivial (Text.ends_cons rfl)
    exact .blank (result.spelling_ends fun c _ hBlank => hBlank) hResult

/-- The same for types with commas between them. -/
theorem Context.reads_spellings : ∀ (types : List Ty) (ctx : Context) (rest : List Char)
    (ts : List Token), Ends Text.isWordChar rest →
    (ctx.afterAll (Ty.listTokens types)).Reads rest ts →
    ctx.Reads ((Ty.spellings types).toList ++ rest) (Ty.listTokens types ++ ts)
  | [], ctx, rest, ts, hEnds, hRest => hRest
  | [ty], ctx, rest, ts, hEnds, hRest => by
    rw [Ty.listTokens, Ty.moreTokens, List.append_nil] at hRest ⊢
    exact reads_spelling ty ctx rest ts hEnds hRest
  | ty :: other :: types, ctx, rest, ts, hEnds, hRest => by
    have hBehind : (((ctx.afterAll ty.tokens).after (.symbol .comma)).afterAll
        (Ty.listTokens (other :: types))).Reads rest ts := by
      simpa [Ty.listTokens, Ty.moreTokens, afterAll] using hRest
    have hMore := reads_spellings (other :: types) _ rest ts hEnds hBehind
    have hTokens : Ty.listTokens (ty :: other :: types) =
        ty.tokens ++ .symbol .comma :: Ty.listTokens (other :: types) := rfl
    rw [Ty.spellings_cons_cons, hTokens, List.append_assoc, List.append_assoc]
    apply reads_spelling ty ctx _ _ (Text.ends_cons rfl)
    apply Reads.token (t := .symbol .comma) trivial (Text.ends_cons rfl)
    exact .blank (Ty.spellings_ends _ nofun fun c _ hBlank => hBlank) hMore

end

theorem tokenize_spelling (ty : Ty) : tokenize ty.spelling = .ok ty.tokens := by
  have hRead := Context.reads_spelling ty .start [] [] Text.ends_nil .nil
  rw [List.append_nil, List.append_nil] at hRead
  exact tokenize_of_reads hRead

/-! ## Texts that differ -/

/-- Types that are shown alike are the same: the text is scanned in one way, and
the tokens are read in one way. -/
theorem Ty.eq_of_spelling {a b : Ty} (h : a.spelling = b.spelling) : a = b := by
  have hTokens : a.tokens = b.tokens := by
    have hScan := tokenize_spelling a
    rw [h, tokenize_spelling b] at hScan
    exact (Except.ok.inj hScan).symm
  obtain ⟨m, hRun⟩ := reads_type a [] 0
  obtain ⟨n, hRun'⟩ := reads_type b [] 0
  rw [hTokens, hRun'] at hRun
  cases hRun
  rfl

/-- Parameter lists that are shown alike are the same: they are the parameters of
function types that are shown alike. -/
theorem Ty.eq_of_spellings {as bs : List Ty} (h : Ty.spellings as = Ty.spellings bs) :
    as = bs := by
  have hFunction : (Ty.function as .int).spelling = (Ty.function bs .int).spelling := by
    rw [Ty.spelling, h, ← Ty.spelling]
  exact (Ty.function.inj (Ty.eq_of_spelling hFunction)).1

/-- A text is cut in one way at the first occurrence of a character. -/
theorem eq_of_append_cons {x x' y y' : List Char} (hx : c ∉ x) (hx' : c ∉ x')
    (h : x ++ c :: y = x' ++ c :: y') : x = x' ∧ y = y' := by
  have hFront : x = x' := by
    rw [← Text.takeWhile_ne_append hx, h, Text.takeWhile_ne_append hx']
  rw [hFront] at h
  exact ⟨hFront, (List.cons.inj (List.append_cancel_left h)).2⟩

theorem Signature.eq_of_spelling {s s' : Signature} (hName : '(' ∉ s.name.toList)
    (hName' : '(' ∉ s'.name.toList) (h : s.spelling = s'.spelling) : s = s' := by
  have hText : ∀ s : Signature, s.spelling.toList =
      s.name.toList ++ '(' :: ((Ty.spellings s.parameters).toList ++ [')']) := by
    intro s
    simp [spelling]
  have hLists := congrArg String.toList h
  rw [hText, hText] at hLists
  obtain ⟨hNames, hRest⟩ := eq_of_append_cons hName hName' hLists
  have hParameters := Ty.eq_of_spellings (String.toList_inj.1 (List.append_cancel_right hRest))
  rcases s with ⟨name, parameters⟩
  rcases s' with ⟨name', parameters'⟩
  rw [Signature.mk.injEq]
  exact ⟨String.toList_inj.1 hNames, hParameters⟩

mutual

/-- No `v` stands in the text of a type. -/
theorem Ty.v_not_mem_spelling : ∀ ty : Ty, 'v' ∉ ty.spelling.toList
  | .basic kind => by cases kind <;> decide
  | .collection kind element => by cases kind <;> cases element <;> decide
  | .function parameters result => by
    have hParameters := v_not_mem_spellings parameters
    have hResult := v_not_mem_spelling result
    rw [spelling_function]
    simp [hParameters, hResult]

theorem Ty.v_not_mem_spellings : ∀ types : List Ty, 'v' ∉ (Ty.spellings types).toList
  | [] => nofun
  | [ty] => v_not_mem_spelling ty
  | ty :: other :: types => by
    have hFirst := v_not_mem_spelling ty
    have hMore := v_not_mem_spellings (other :: types)
    rw [spellings_cons_cons]
    simp [hFirst, hMore]

end

/-- Behind the same words, the texts of two types and one text shown twice
differ: the one `v` on the left is that of `received`, so the text has none, and
both sides are cut there. -/
theorem contrast_ne {expected received : Ty} (h : expected ≠ received) (front text : String) :
    front ++ expected.spelling ++ ", received " ++ received.spelling ≠
      front ++ text ++ ", received " ++ text := by
  have hSplit : ∀ x y : String, (front ++ x ++ ", received " ++ y).toList =
      front.toList ++ ((x.toList ++ ", recei".toList) ++ 'v' :: ("ed ".toList ++ y.toList)) := by
    intro x y
    simp
  have hLeft := expected.v_not_mem_spelling
  have hRight := received.v_not_mem_spelling
  have hBefore : ∀ {x : List Char}, 'v' ∉ x → 'v' ∉ x ++ ", recei".toList := by
    intro x hx hMem
    exact (List.mem_append.1 hMem).elim hx (by decide)
  intro hEqual
  have hLists := congrArg String.toList hEqual
  rw [hSplit, hSplit] at hLists
  have hBehind := List.append_cancel_left hLists
  have hNone : 'v' ∉ text.toList := by
    have hCount := congrArg (List.count 'v') hBehind
    simp [List.count_eq_zero.2 hLeft, List.count_eq_zero.2 hRight] at hCount
    rw [← List.count_eq_zero]
    omega
  obtain ⟨hExpected, hReceived⟩ := eq_of_append_cons (hBefore hLeft) (hBefore hNone) hBehind
  have hExpected' : expected.spelling = text :=
    String.toList_inj.1 (List.append_cancel_right hExpected)
  have hReceived' : received.spelling = text :=
    String.toList_inj.1 (List.append_cancel_left hReceived)
  exact h (Ty.eq_of_spelling (hExpected'.trans hReceived'.symm))

/-- The text of a type is scanned into its spelling, which is read back as the
type and is the one way to spell it. So types are told apart by their texts, and
so are signatures with plain names, and no message that sets an expected type
against another received one shows the same text for both. -/
theorem type_texts :
    (∀ ty : Ty, tokenize ty.spelling = .ok ty.tokens) ∧
    (∀ (ty : Ty) (n : Nat) (rest : List Token),
      Grammar.standard.parseType ⟨n, ty.tokens ++ rest⟩ = .ok ty ⟨n + ty.tokens.length, rest⟩) ∧
    (∀ (ts : List Token) (n : Nat) (ty : Ty) (c : Cursor),
      Grammar.standard.parseType (.ofTokens ts n) = .ok ty c →
        ts.drop n = ty.tokens ++ c.rest ∧ c.position = n + ty.tokens.length) ∧
    (∀ a b : Ty, a.spelling = b.spelling → a = b) ∧
    (∀ s s' : Signature, '(' ∉ s.name.toList → '(' ∉ s'.name.toList →
      s.spelling = s'.spelling → s = s') ∧
    (∀ (expected received : Ty) (text : String), expected ≠ received →
      (TypeError.mismatch expected received).message ≠
        "types do not match: expected " ++ text ++ ", received " ++ text ∧
      (TypeError.returnMismatch expected received).message ≠
        "return types do not match: expected " ++ text ++ ", received " ++ text) := by
  refine ⟨tokenize_spelling, ?_, ?_, fun a b => Ty.eq_of_spelling, fun s s' =>
    Signature.eq_of_spelling, ?_⟩
  · intro ty n rest
    exact parseType_eq_ok.2 ⟨rfl, rfl⟩
  · intro ts n ty c hRun
    exact parseType_eq_ok.1 hRun
  · intro expected received text hOther
    exact ⟨contrast_ne hOther _ text, contrast_ne hOther _ text⟩

/-- `(Array<Int>, () -> Any) -> Boolean` behind a colon: its thirteen tokens are
read, what is shown like it is this type, and a message in which `Int` was
received instead does not show `Int` twice. -/
theorem texts_of_nested_function :
    let ty : Ty := .function [.collection .array .int, .function [] .any] .boolean
    tokenize "(Array<Int>, () -> Any) -> Boolean" = .ok ty.tokens ∧
      (Token.symbol .colon :: ty.tokens).drop 1 = ty.tokens ++ [] ∧ 14 = 1 + ty.tokens.length ∧
      ty = .function ([.collection .array .int] ++ [.function [] .any]) .boolean ∧
      Signature.mk "f" [ty] = ⟨"f", [ty]⟩ ∧
      (TypeError.mismatch ty .int).message ≠
        "types do not match: expected Int, received Int" := by
  intro ty
  have hRun : Grammar.standard.parseType (.ofTokens (.symbol .colon :: ty.tokens) 1) =
      .ok ty ⟨14, []⟩ := by rfl
  obtain ⟨hTokens, hParsed, hSpelled, hTypes, hSignatures, hMessages⟩ := type_texts
  exact ⟨hTokens ty, (hSpelled _ 1 ty _ hRun).1, (hSpelled _ 1 ty _ hRun).2, hTypes ty _ rfl,
    hSignatures ⟨"f", [ty]⟩ ⟨"f", [ty]⟩ (by decide) (by decide) rfl,
    (hMessages ty .int "Int" (by decide)).1⟩

end ScriptLang
