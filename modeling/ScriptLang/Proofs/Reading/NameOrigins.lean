import ScriptLang.Proofs.Reading.Contents
import ScriptLang.Proofs.Reading.Termination
import ScriptLang.Proofs.Scanning.Image
import ScriptLang.Proofs.Typing.Names

/-!
# Where the names of a program come from

There are two ways for a name to get into a tree. It is a token, or it stands in
a text behind a `$`, and both may happen in the source of a splice as well
(`Occurs`). A program has exactly the names that occur in its tokens
(`Brings.occurs`, `Brings.exists_occurs`): its contents are theirs, and of the
contents, names and texts are the ones to look at.

The two ways do not agree on what a name is. A scanner looks a word up among the
reserved ones before it takes it for a name, while a template takes any word
behind a `$`. So a reserved word is a name of a program just where it is spliced
in by `$` (`names_of_source`), although the same word between braces is refused.
-/

namespace ScriptLang

open Template (Piece pieces)

variable {name : String} {ts : List Token}

/-! ## The names in contents -/

/-- The names that a content brings into a tree. A text that cannot be read is
marked by `none`, which no tree has among its names. -/
def Content.names : Content → List (Option String)
  | .name n => [some n]
  | .text (.ok e) => e.names.map some
  | .text (.error _) => [none]
  | _ => []

mutual

/-- Types hold no names. -/
theorem Ty.names_contents : ∀ ty : Ty, ty.contents.flatMap Content.names = []
  | .basic _ => rfl
  | .collection _ _ => rfl
  | .function parameters result => by
      rw [Ty.contents, List.flatMap_append, Ty.names_listContents parameters,
        Ty.names_contents result, List.append_nil]

theorem Ty.names_listContents :
    ∀ tys : List Ty, (Ty.listContents tys).flatMap Content.names = []
  | [] => rfl
  | ty :: tys => by
      rw [Ty.listContents, List.flatMap_append, Ty.names_contents ty,
        Ty.names_listContents tys, List.append_nil]

end

theorem names_annotationContents (ty? : Option Ty) :
    (annotationContents ty?).flatMap Content.names = [] := by
  cases ty? with
  | none => rfl
  | some ty => exact ty.names_contents

/-- Parameters bring in their names, and their types bring in none. -/
theorem names_parameters {α : Type} {inside : α → List Content}
    (hInside : ∀ a, (inside a).flatMap Content.names = []) (parameters : List (String × α)) :
    (parameters.flatMap fun parameter => .name parameter.1 :: inside parameter.2).flatMap
      Content.names = (parameters.map Prod.fst).map some := by
  induction parameters with
  | nil => rfl
  | cons parameter parameters ih =>
      rw [List.flatMap_cons, List.flatMap_append, ih, List.flatMap_cons, hInside]
      rfl

theorem names_lambdaParameterContents (parameters : List (String × Option Ty)) :
    (lambdaParameterContents parameters).flatMap Content.names =
      (parameters.map Prod.fst).map some :=
  names_parameters names_annotationContents parameters

theorem map_name_scope (parameters : List String) (body : List Mention) :
    (Mention.scope parameters body).map Mention.name = parameters ++ body.map Mention.name := by
  simp [Mention.scope, Mention.ofParameter, Mention.under, Function.comp_def]

/-- The names in some expressions. -/
def Expr.listNames (es : List Expr) : List String := (Expr.listMentions es).map Mention.name

mutual

theorem Expr.names_contents : ∀ e : Expr, e.contents.flatMap Content.names = e.names.map some
  | .int _ => rfl
  | .boolean _ => rfl
  | .text _ _ => by simp [Expr.contents, Content.names]
  | .var _ => rfl
  | .binary left _ right => by
      simp [Expr.contents, Content.names, Expr.names_contents left, Expr.names_contents right,
        Expr.names, Expr.mentions]
  | .not operand => by
      simp [Expr.contents, Content.names, Expr.names_contents operand, Expr.names, Expr.mentions]
  | .step _ _ true => rfl
  | .step _ _ false => rfl
  | .ifThen condition thenBranch => by
      simp [Expr.contents, Expr.names_contents condition, Expr.names_contents thenBranch,
        Expr.names, Expr.mentions]
  | .ifElse condition thenBranch elseBranch => by
      simp [Expr.contents, Expr.names_contents condition, Expr.names_contents thenBranch,
        Expr.names_contents elseBranch, Expr.names, Expr.mentions]
  | .range first last => by
      simp [Expr.contents, Content.names, Expr.names_contents first, Expr.names_contents last,
        Expr.names, Expr.mentions]
  | .generate _ size parameters body => by
      simp [Expr.contents, Content.names, Expr.names_contents size, Expr.names_contents body,
        names_lambdaParameterContents, Expr.names, Expr.mentions, map_name_scope]
  | .literal _ items => by
      rw [Expr.contents, Expr.names_listContents items]
      rfl
  | .lambda parameters body => by
      simp [Expr.contents, Expr.names_contents body, names_lambdaParameterContents, Expr.names,
        Expr.mentions, map_name_scope]
  | .call callee arguments => by
      rw [Expr.contents, List.flatMap_cons, Expr.names_listContents arguments]
      rfl
  | .index name inside => by
      rw [Expr.contents, List.flatMap_cons, Expr.names_contents inside]
      rfl

theorem Expr.names_listContents : ∀ es : List Expr,
    (Expr.listContents es).flatMap Content.names = (Expr.listNames es).map some
  | [] => rfl
  | e :: es => by
      simp [Expr.listContents, Expr.names_contents e, Expr.names_listContents es, Expr.names,
        Expr.listNames, Expr.listMentions]

end

mutual

theorem Stmt.names_contents : ∀ s : Stmt, s.contents.flatMap Content.names = s.names.map some
  | .declare name ty? _ => by
      rw [Stmt.contents, List.flatMap_cons, names_annotationContents]
      rfl
  | .assign name value ty? _ _ => by
      simp [Stmt.contents, Content.names, names_annotationContents, Expr.names_contents value,
        Stmt.names]
  | .compound name _ value => by
      simp [Stmt.contents, Content.names, Expr.names_contents value, Stmt.names]
  | .ifThen condition thenBlock => by
      simp [Stmt.contents, Expr.names_contents condition, Stmt.names_blockContents thenBlock,
        Stmt.names]
  | .ifElse condition thenBlock elseBlock => by
      simp [Stmt.contents, Expr.names_contents condition, Stmt.names_blockContents thenBlock,
        Stmt.names_blockContents elseBlock, Stmt.names]
  | .forIn name source body => by
      simp [Stmt.contents, Content.names, Expr.names_contents source,
        Stmt.names_blockContents body, Stmt.names]
  | .whileLoop condition body => by
      simp [Stmt.contents, Expr.names_contents condition, Stmt.names_blockContents body,
        Stmt.names]
  | .block body => by rw [Stmt.contents, Stmt.names_blockContents body, Stmt.names]
  | .control _ => rfl
  | .function name parameters result body => by
      have hParameters : (functionParameterContents parameters).flatMap Content.names =
          (parameters.map Prod.fst).map some := names_parameters Ty.names_contents parameters
      simp [Stmt.contents, Content.names, hParameters, Ty.names_contents result,
        Stmt.names_blockContents body, Stmt.names]
  | .returns value => by rw [Stmt.contents, Expr.names_contents value, Stmt.names]
  | .call callee arguments => by rw [Stmt.contents, Expr.names_contents, Stmt.names]
  | .step name op before => by
      rw [Stmt.contents, Expr.names_contents]
      rfl
  | .output _ value => by rw [Stmt.contents, Expr.names_contents value, Stmt.names]

theorem Stmt.names_blockContents : ∀ ss : List Stmt,
    (Stmt.blockContents ss).flatMap Content.names = (blockNames ss).map some
  | [] => rfl
  | s :: ss => by
      simp [Stmt.blockContents, Stmt.names_contents s, Stmt.names_blockContents ss, blockNames]

end

/-! ## The names in templates -/

namespace Template

variable {embed : String → Except ParseError Expr} {literal : String} {position offset : Nat}
  {ps : List Piece} {e : Expr}

theorem readSource_eq_ok {source : String} :
    readSource embed position source = .ok e ↔ embed source = .ok e := by
  rw [readSource]
  cases embed source <;> simp

/-- Each source of a splice is read. -/
theorem read_of_assemble {found : List Char × List (Nat × Expr)} {inner : List Char}
    (h : assemble embed literal position offset ps = .ok found) (hSource : .source inner ∈ ps) :
    ∃ e, embed (String.ofList inner) = .ok e := by
  induction ps generalizing offset found with
  | nil => exact absurd hSource nofun
  | cons p ps ih =>
      cases p with
      | plain | dollar | name =>
          obtain ⟨_, hMore, -⟩ := except_bind_eq_ok.1 h
          exact ih hMore (by simpa using hSource)
      | source text =>
          obtain ⟨e, hRead, hRest⟩ := except_bind_eq_ok.1 h
          rcases List.mem_cons.1 hSource with hHere | hLater
          · cases hHere
            exact ⟨e, readSource_eq_ok.1 hRead⟩
          · obtain ⟨_, hMore, -⟩ := except_bind_eq_ok.1 hRest
            exact ih hMore hLater
      | unclosed => cases h

/-- A splice brings in the name behind its `$`, or the names that its source is
read with. -/
theorem mem_names_assemble {remainder : List Char} {splices : List (Nat × Expr)}
    (h : assemble embed literal position offset ps = .ok (remainder, splices)) :
    name ∈ (Expr.spliceMentions splices).map Mention.name ↔
      .name name.toList ∈ ps ∨
        ∃ inner e, .source inner ∈ ps ∧ embed (String.ofList inner) = .ok e ∧ name ∈ e.names := by
  induction ps generalizing offset remainder splices with
  | nil =>
      cases h
      simp [Expr.spliceMentions]
  | cons p ps ih =>
      cases p with
      | plain | dollar =>
          obtain ⟨⟨more, later⟩, hMore, hBoth⟩ := except_bind_eq_ok.1 h
          cases hBoth
          simpa using ih hMore
      | source text =>
          obtain ⟨e, hRead, hRest⟩ := except_bind_eq_ok.1 h
          obtain ⟨⟨more, later⟩, hMore, hBoth⟩ := except_bind_eq_ok.1 hRest
          cases hBoth
          have hEmbed : embed (String.ofList text) = .ok e := readSource_eq_ok.1 hRead
          rw [Expr.spliceMentions, List.map_append, List.mem_append, ih hMore]
          constructor
          · rintro (hHere | hName | ⟨inner, e', hSource, hInner, hName⟩)
            · exact .inr ⟨text, e, List.mem_cons_self, hEmbed, hHere⟩
            · exact .inl (List.mem_cons_of_mem _ hName)
            · exact .inr ⟨inner, e', List.mem_cons_of_mem _ hSource, hInner, hName⟩
          · rintro (hName | ⟨inner, e', hSource, hInner, hName⟩)
            · exact .inr (.inl (by simpa using hName))
            · rcases List.mem_cons.1 hSource with hHere | hLater
              · cases hHere
                obtain rfl := Except.ok.inj (hEmbed.symm.trans hInner)
                exact .inl hName
              · exact .inr (.inr ⟨inner, e', hLater, hInner, hName⟩)
      | name text =>
          obtain ⟨⟨more, later⟩, hMore, hBoth⟩ := except_bind_eq_ok.1 h
          cases hBoth
          have hSame : name = String.ofList text ↔ Piece.name name.toList = .name text := by
            rw [Piece.name.injEq]
            constructor
            · rintro rfl
              exact String.toList_ofList
            · rintro rfl
              exact String.ofList_toList.symm
          have hHead : (Expr.spliceMentions ((offset, .var (String.ofList text)) :: later)).map
              Mention.name = String.ofList text :: (Expr.spliceMentions later).map Mention.name :=
            rfl
          rw [hHead, List.mem_cons, ih hMore, List.mem_cons, hSame, or_assoc]
          simp
      | unclosed => cases h

/-- What is cut out behind a `$` is a word. -/
theorem isWord_of_name {text word : List Char} (h : .name word ∈ pieces text) :
    Text.isWord word = true := by
  induction text using cut_induction with
  | nil => exact absurd h nofun
  | plain c rest hDollar ih =>
      rw [pieces_plain hDollar] at h
      exact ih (by simpa using h)
  | dollar rest hNext ih =>
      rw [pieces_dollar hNext] at h
      exact ih (by simpa using h)
  | source inner after hCloses ih =>
      rw [pieces_source hCloses] at h
      exact ih (by simpa using h)
  | unclosed rest hOpen =>
      rw [pieces_unclosed hOpen] at h
      exact absurd h (by simp)
  | name c rest hStart ih =>
      rw [pieces_name hStart] at h
      rcases List.mem_cons.1 h with hHere | hLater
      · cases hHere
        rw [Text.isWord, hStart, List.all_takeWhile]
        rfl
      · exact ih hLater

end Template

/-! ## The names in tokens -/

/-- A text that is read brings in the names of its node, and a name itself. -/
theorem mem_names_content {t : Token} :
    (∃ c, t.content? = some c ∧ some name ∈ c.names) ↔
      t = .name name ∨ ∃ literal e, t = .text literal ∧ parseTemplate literal 0 = .ok e ∧
        name ∈ e.names := by
  unfold Token.content?
  split
  case h_4 literal =>
    cases hRead : parseTemplate literal 0 <;> simp [Content.names, hRead]
  all_goals simp_all [Content.names, eq_comm]

/-- How a name is recognised: by the scanner, or by a template behind a `$`. -/
inductive NameSite
  | token
  | dollar

/-- The name stands among the tokens or in their texts, or it stands so in the
source of a splice. -/
inductive Occurs (name : String) : NameSite → List Token → Prop
  | token {ts : List Token} (hToken : .name name ∈ ts) : Occurs name .token ts
  | dollar {ts : List Token} {literal : String} (hText : .text literal ∈ ts)
      (hPiece : .name name.toList ∈ pieces literal.toList) : Occurs name .dollar ts
  | inside {site : NameSite} {ts inside : List Token} {literal : String} {inner : List Char}
      (hText : .text literal ∈ ts) (hPiece : .source inner ∈ pieces literal.toList)
      (hTokens : tokenize (String.ofList inner) = .ok inside) (hInside : Occurs name site inside) :
      Occurs name site ts

variable {names : List String} {literal : String} {e : Expr}

/-- The contents of the tokens have the names, and every text is read. -/
def Brings (ts : List Token) (names : List String) : Prop :=
  (contents ts).flatMap Content.names = names.map some

theorem Brings.of_expr (h : parseExpression ts = .ok e) : Brings ts e.names := by
  have hContents := contents_expr (parseExpression_eq_ok.1 h)
  rw [contents_nil, List.append_nil] at hContents
  rw [Brings, hContents, e.names_contents]

theorem Brings.of_program {p : Program} (h : parseProgram ts = .ok p) :
    Brings ts (blockNames p) := by
  have hContents := (parseProgram_eq_ok.1 h).2.contents_eq
  rw [contents_nil, List.append_nil] at hContents
  rw [Brings, hContents]
  exact Stmt.names_blockContents p

/-- Every text among the tokens is read. -/
theorem Brings.read (h : Brings ts names) (hText : .text literal ∈ ts) :
    ∃ e, parseTemplate literal 0 = .ok e := by
  cases hRead : parseTemplate literal 0 with
  | ok e => exact ⟨e, rfl⟩
  | error fault =>
      have hNone : none ∈ (contents ts).flatMap Content.names := by
        refine List.mem_flatMap.2 ⟨.text (.error fault), List.mem_filterMap.2 ⟨_, hText, ?_⟩,
          List.mem_cons_self⟩
        rw [Token.content?, hRead]
      rw [Brings] at h
      rw [h] at hNone
      exact absurd hNone (by simp)

theorem Brings.mem_iff (h : Brings ts names) : name ∈ names ↔ .name name ∈ ts ∨
    ∃ literal e, .text literal ∈ ts ∧ parseTemplate literal 0 = .ok e ∧ name ∈ e.names := by
  have hSome : name ∈ names ↔ some name ∈ names.map some := by simp
  rw [hSome, ← h, List.mem_flatMap]
  constructor
  · rintro ⟨c, hContent, hName⟩
    obtain ⟨t, hToken, hOwn⟩ := List.mem_filterMap.1 hContent
    rcases mem_names_content.1 ⟨c, hOwn, hName⟩ with rfl | ⟨literal, e, rfl, hRead, hInside⟩
    · exact .inl hToken
    · exact .inr ⟨literal, e, hToken, hRead, hInside⟩
  · intro hOrigin
    obtain ⟨t, hToken, hOwn⟩ : ∃ t ∈ ts, t = .name name ∨ ∃ literal e, t = .text literal ∧
        parseTemplate literal 0 = .ok e ∧ name ∈ e.names := by
      rcases hOrigin with hToken | ⟨literal, e, hToken, hRead, hInside⟩
      · exact ⟨_, hToken, .inl rfl⟩
      · exact ⟨_, hToken, .inr ⟨literal, e, rfl, hRead, hInside⟩⟩
    obtain ⟨c, hContent, hName⟩ := mem_names_content.2 hOwn
    exact ⟨c, List.mem_filterMap.2 ⟨t, hToken, hContent⟩, hName⟩

/-! ## Origins -/

theorem embedded_eq_ok {source : String} : embedded source = .ok e ↔
    ∃ ts, tokenize source = .ok ts ∧ parseExpression ts = .ok e := by
  rw [embedded_eq, except_bind_eq_ok]

/-- A literal has the names behind its `$` and the names in its sources. -/
theorem mem_names_template (h : parseTemplate literal 0 = .ok e) : name ∈ e.names ↔
    .name name.toList ∈ pieces literal.toList ∨
      ∃ inner e', .source inner ∈ pieces literal.toList ∧
        embedded (String.ofList inner) = .ok e' ∧ name ∈ e'.names := by
  obtain ⟨⟨remainder, splices⟩, hAssembled, hNode⟩ := except_bind_eq_ok.1 h
  cases hNode
  exact Template.mem_names_assemble hAssembled

theorem Brings.occurs {site : NameSite} (hOccurs : Occurs name site ts) (h : Brings ts names) :
    name ∈ names := by
  induction hOccurs generalizing names with
  | token hToken => exact h.mem_iff.2 (.inl hToken)
  | dollar hText hPiece =>
      obtain ⟨e, hRead⟩ := h.read hText
      exact h.mem_iff.2 (.inr ⟨_, e, hText, hRead, (mem_names_template hRead).2 (.inl hPiece)⟩)
  | inside hText hPiece hTokens hInside ih =>
      obtain ⟨e, hRead⟩ := h.read hText
      obtain ⟨found, hAssembled, -⟩ := except_bind_eq_ok.1 hRead
      obtain ⟨e', hEmbedded⟩ := Template.read_of_assemble hAssembled hPiece
      obtain ⟨inside, hAgain, hParsed⟩ := embedded_eq_ok.1 hEmbedded
      obtain rfl := Except.ok.inj (hTokens.symm.trans hAgain)
      have hName := ih (.of_expr hParsed)
      exact h.mem_iff.2 (.inr ⟨_, e, hText, hRead,
        (mem_names_template hRead).2 (.inr ⟨_, e', hPiece, hEmbedded, hName⟩)⟩)

theorem exists_text_bound (ts : List Token) :
    ∃ n, ∀ literal, .text literal ∈ ts → literal.length < n := by
  induction ts with
  | nil => exact ⟨0, nofun⟩
  | cons t ts ih =>
      obtain ⟨n, hMore⟩ := ih
      obtain ⟨m, hHead⟩ : ∃ m, ∀ literal, t = .text literal → literal.length < m := by
        cases t with
        | text literal =>
            refine ⟨literal.length + 1, ?_⟩
            rintro _ ⟨⟩
            exact Nat.lt_succ_self _
        | _ => exact ⟨0, nofun⟩
      refine ⟨max m n, fun literal hText => ?_⟩
      rcases List.mem_cons.1 hText with hHere | hLater
      · exact Nat.lt_of_lt_of_le (hHead literal hHere.symm) (Nat.le_max_left m n)
      · exact Nat.lt_of_lt_of_le (hMore literal hLater) (Nat.le_max_right m n)

/-- Each name occurs somewhere, since the texts become shorter from splice to
splice. -/
theorem Brings.exists_occurs (h : Brings ts names) (hName : name ∈ names) :
    ∃ site, Occurs name site ts := by
  obtain ⟨n, hShort⟩ := exists_text_bound ts
  induction n using Nat.strongRecOn generalizing ts names with
  | ind n ih =>
      rcases h.mem_iff.1 hName with hToken | ⟨literal, e, hText, hRead, hInside⟩
      · exact ⟨.token, .token hToken⟩
      · rcases (mem_names_template hRead).1 hInside with hPiece | ⟨inner, e', hPiece, hEmbedded,
          hDeeper⟩
        · exact ⟨.dollar, .dollar hText hPiece⟩
        · obtain ⟨inside, hTokens, hParsed⟩ := embedded_eq_ok.1 hEmbedded
          have hCut := Template.length_source hPiece
          rw [String.length_toList] at hCut
          have hLiteral := hShort literal hText
          have hInner : inner.length < n := by omega
          have hTexts : ∀ text, .text text ∈ inside → text.length < inner.length := by
            intro text hMem
            have hLength := length_of_tokenize hTokens hMem
            rw [String.length_ofList] at hLength
            omega
          obtain ⟨site, hOccurs⟩ := ih _ hInner (.of_expr hParsed) hDeeper hTexts
          exact ⟨site, .inside hText hPiece hTokens hOccurs⟩

/-! ## Reserved words -/

theorem name_of_tokenize {source : String} (h : tokenize source = .ok ts)
    (hToken : .name name ∈ ts) : Text.isWord name.toList = true ∧ isReserved name = false :=
  (Context.start_accepts_iff.1 (tokenize_accepts h)).name name hToken

/-- A name that occurs in a source is a word, and a reserved word only behind a
`$`. -/
theorem Occurs.word {site : NameSite} (hOccurs : Occurs name site ts) {source : String}
    (h : tokenize source = .ok ts) :
    Text.isWord name.toList = true ∧ (site = .token → isReserved name = false) := by
  induction hOccurs generalizing source with
  | token hToken =>
      obtain ⟨hWord, hFree⟩ := name_of_tokenize h hToken
      exact ⟨hWord, fun _ => hFree⟩
  | dollar hText hPiece => exact ⟨Template.isWord_of_name hPiece, nofun⟩
  | inside hText hPiece hTokens hInside ih => exact ih hTokens

/-- A program has just the names that occur in its source. They are words, and
those that the scanner has recognised are not reserved. So no name is reserved
if and only if no reserved word stands behind a `$` of a template. -/
theorem names_of_source {source : String} {p : Program} (hTokens : tokenize source = .ok ts)
    (hProgram : parseProgram ts = .ok p) :
    (∀ name, name ∈ blockNames p ↔ ∃ site, Occurs name site ts) ∧
    (∀ name ∈ blockNames p, Text.isWord name.toList = true) ∧
    (∀ name, Occurs name .token ts → isReserved name = false) ∧
    ((∀ name ∈ blockNames p, isReserved name = false) ↔
      ∀ name, Occurs name .dollar ts → isReserved name = false) := by
  have hNames := Brings.of_program hProgram
  have hOccurs : ∀ name, name ∈ blockNames p ↔ ∃ site, Occurs name site ts := by
    intro name
    exact ⟨hNames.exists_occurs, fun ⟨site, hSite⟩ => hNames.occurs hSite⟩
  refine ⟨hOccurs, ?_, fun name hToken => (hToken.word hTokens).2 rfl, ?_⟩
  · intro name hName
    obtain ⟨site, hSite⟩ := (hOccurs name).1 hName
    exact (hSite.word hTokens).1
  · constructor
    · intro hFree name hDollar
      exact hFree name (hNames.occurs hDollar)
    · intro hDollar name hName
      obtain ⟨site, hSite⟩ := (hOccurs name).1 hName
      cases site with
      | token => exact (hSite.word hTokens).2 rfl
      | dollar => exact hDollar name hSite

/-- In `val a = "$b${c}"` one name is recognised behind a `$`, and another one by
the scanner between the braces. -/
theorem names_of_two_splices :
    let ts : List Token := [.keyword (.declaration true), .name "a", .infixMark .assign,
      .text "$b$\x7bc\x7d"]
    tokenize "val a = \x22$b$\x7bc\x7d\x22" = .ok ts ∧
      parseProgram ts =
        .ok [.assign "a" (.text "" [(0, .var "b"), (0, .var "c")]) none true true] ∧
      (∀ name, name ∈ ["a", "b", "c"] ↔ ∃ site, Occurs name site ts) ∧
      (∀ name ∈ ["a", "b", "c"], Text.isWord name.toList = true) ∧
      (∀ name, Occurs name .token ts → isReserved name = false) ∧
      ((∀ name ∈ ["a", "b", "c"], isReserved name = false) ↔
        ∀ name, Occurs name .dollar ts → isReserved name = false) := by
  intro ts
  have hTokens : tokenize "val a = \x22$b$\x7bc\x7d\x22" = .ok ts := by
    unfold ts
    decide +kernel
  have hProgram : parseProgram ts =
      .ok [.assign "a" (.text "" [(0, .var "b"), (0, .var "c")]) none true true] := by rfl
  exact ⟨hTokens, hProgram, names_of_source hTokens hProgram⟩

/-- In `print("$for")` a reserved word is a name. -/
theorem reserved_word_behind_dollar :
    ¬ ∀ (source : String) (ts : List Token) (p : Program), tokenize source = .ok ts →
      parseProgram ts = .ok p →
        ∀ name ∈ blockNames p, Text.isWord name.toList = true ∧ isReserved name = false := by
  intro hFree
  have hTokens : tokenize "print(\x22$for\x22)" =
      .ok [.keyword (.output .print), .bracket .openParen, .text "$for",
        .bracket .closeParen] := by decide +kernel
  have hNever := (hFree _ _ [.output .print (.text "" [(0, .var "for")])] hTokens (by rfl) "for"
    (by decide)).2
  exact absurd hNever (by decide)

end ScriptLang
