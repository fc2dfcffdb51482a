import ScriptLang.Proofs.Reading.FormAgreement

/-!
# Where errors point

An error carries a place and, for most faults, the spelling of what stands
there. `ParseFault.Fits` says of a fault and of the tokens from its place on
that the one speaks of the other. A parser is *located* at a cursor
(`Parser.LocatedAt`) if a failure there has its place at or behind the cursor
and its fault fits the tokens at that place. Most forms are located wherever
they start. A form that takes its first token unseen is so where the tables
lead to it (`parse_located` for each sort of form).

Some faults fit nowhere: those that a form keeps for a token it was not made
for, or for a token that is missing where one was seen before. So whatever is
located does not fail with them.
-/

namespace ScriptLang

/-! ## Faults and tokens -/

/-- The message about a collection whose elements are themselves structured. It
is the one message that quotes a type and not a token. -/
def TypeForm.elementMessage : String := "collection elements must be a basic type"

/-- The messages that are kept for tokens which do not suit the form that reads
them, and what is said to be expected where a token is taken unseen. -/
def ParseFault.guardMessages : List String :=
  ["another token", "expected an operator", "not a binary operator", "expected a basic type"]

/-- A message that says what was expected at a token, and quotes the token. -/
def ParseFault.Plain (message : String) : Prop :=
  message ∉ TypeForm.elementMessage :: guardMessages

instance (message : String) : Decidable (ParseFault.Plain message) :=
  inferInstanceAs (Decidable (message ∉ _))

/-- The fault can be found where these tokens are left: it quotes the first of
them, or says that there is none. -/
inductive ParseFault.Fits : ParseFault → List Token → Prop
  | ended {message : String} (h : Plain message) : Fits (.unexpectedEnd message) []
  | refused {message : String} (h : Plain message) (t : Token) (ts : List Token) :
    Fits (.unexpectedDetailed t.spelling message) (t :: ts)
  | element (ty : Ty) (ts : List Token) :
    Fits (.unexpectedDetailed ty.spelling TypeForm.elementMessage) (ty.tokens ++ ts)
  | trailing (t : Token) (ts : List Token) : Fits (.trailing t.spelling) (t :: ts)
  | missingSeparator (t : Token) (ts : List Token) :
    Fits (.missingSeparator t.spelling) (t :: ts)
  | unterminated (literal : String) (ts : List Token) :
    Fits (.unterminatedTemplate literal) (.text literal :: ts)
  | invalid (literal template message : String) (ts : List Token) :
    Fits (.invalidTemplate template message) (.text literal :: ts)

theorem ParseFault.plain_expected (kind : Kind) : Plain ("expected " ++ kind.label) := by
  rcases kind with word | mark | mark | mark | mark | word | _ | _ | _
  · rcases word with _ | _ | _ | _ | _ | _ | _ | control | readOnly | form | value | kind
    case control => cases control <;> decide
    case declaration => cases readOnly <;> decide
    case output => cases form <;> decide
    case truth => cases value <;> decide
    case literal => cases kind <;> decide
    all_goals decide
  · cases mark <;> decide
  · cases mark <;> decide
  · rcases mark with op | _ | op
    · rcases op with op | op | op <;> cases op <;> decide
    · decide
    · cases op <;> decide
  · rcases mark with _ | op
    · decide
    · cases op <;> decide
  · rcases word with kind | kind <;> cases kind <;> decide
  all_goals decide

/-! ## Outcomes -/

namespace Cursor

variable {α : Type} {c c₁ : Cursor} {e : ParseError}

/-- The place of the error lies at or behind the cursor, and its fault fits the
tokens from there on. -/
def Places (c : Cursor) (e : ParseError) : Prop :=
  ∃ c', Reaches 0 c c' ∧ e.position = c'.position ∧ e.fault.Fits c'.rest

/-- An outcome of reading from `c` on: a success leaves a cursor that is reached
from `c`, and the error of a failure has its place there. -/
def Explains (c : Cursor) : EStateM.Result ParseError Cursor α → Prop
  | .ok _ c' => Reaches 0 c c'
  | .error e _ => c.Places e

theorem Places.here {fault : ParseFault} (h : fault.Fits c.rest) : c.Places ⟨fault, c.position⟩ :=
  ⟨c, .refl c, rfl, h⟩

theorem Places.behind (h : Reaches 0 c c₁) (he : c₁.Places e) : c.Places e := by
  obtain ⟨c', hReached, hFits⟩ := he
  exact ⟨c', h.trans hReached, hFits⟩

theorem Explains.behind {result : EStateM.Result ParseError Cursor α} (h : Reaches 0 c c₁)
    (hResult : c₁.Explains result) : c.Explains result := by
  cases result with
  | ok a c' => exact h.trans hResult
  | error e c' => exact Places.behind h hResult

theorem places_unexpected {message : String} (h : ParseFault.Plain message) :
    c.Places (c.unexpected message) := by
  rcases c with ⟨n, _ | ⟨t, ts⟩⟩
  · exact .here (.ended h)
  · exact .here (.refused h t ts)

/-- Where the kind of the current token is known, there is a current token. -/
theorem exists_of_kind? {kind : Kind} (h : c.kind? = some kind) :
    ∃ n t ts, c = ⟨n, t :: ts⟩ ∧ t.kind = kind := by
  rcases c with ⟨n, _ | ⟨t, ts⟩⟩
  · exact absurd h nofun
  · exact ⟨n, t, ts, rfl, Option.some.inj h⟩

/-- A form that the table gives is found by the kind of the current token. -/
theorem exists_of_table {φ : Type} {table : Kind → Option φ} {form : φ}
    (h : c.kind?.bind table = some form) :
    ∃ n t ts, c = ⟨n, t :: ts⟩ ∧ table t.kind = some form := by
  obtain ⟨kind, hKind, hForm⟩ := Option.bind_eq_some_iff.1 h
  obtain ⟨n, t, ts, rfl, rfl⟩ := exists_of_kind? hKind
  exact ⟨n, t, ts, rfl, hForm⟩

theorem exists_of_isAt {kind : Kind} (h : c.isAt kind = true) :
    ∃ n t ts, c = ⟨n, t :: ts⟩ ∧ t.kind = kind :=
  exists_of_kind? (eq_of_beq h)

end Cursor

namespace Parser

open ScriptLang.Cursor (Reaches)

variable {α β : Type} {p q : Parser α} {f : α → Parser β} {c : Cursor} {n : Nat} {t : Token}
  {ts : List Token}

/-- Whatever comes of the parser at this cursor lies at or behind it. -/
def LocatedAt (p : Parser α) (c : Cursor) : Prop := c.Explains (p c)

/-- The parser is located wherever it starts. -/
def Located (p : Parser α) : Prop := ∀ c, p.LocatedAt c

/-! ## Stages -/

namespace LocatedAt

/-- What stands behind a parser is judged from where the parser started. -/
theorem andThen (hp : p.LocatedAt c) (hf : ∀ a c', p c = .ok a c' → c.Explains (f a c')) :
    (p >>= f).LocatedAt c := by
  unfold LocatedAt at *
  show c.Explains (EStateM.bind p f c)
  unfold EStateM.bind
  cases hRun : p c with
  | ok a c' => exact hf a c' hRun
  | error e c' =>
      rw [hRun] at hp
      exact hp

theorem reaches (hp : p.LocatedAt c) {a : α} {c' : Cursor} (hRun : p c = .ok a c') :
    Reaches 0 c c' := by
  unfold LocatedAt at hp
  rw [hRun] at hp
  exact hp

theorem bindAt (hp : p.LocatedAt c) (hf : ∀ a c', p c = .ok a c' → (f a).LocatedAt c') :
    (p >>= f).LocatedAt c :=
  hp.andThen fun a c' hRun => (hf a c' hRun).behind (hp.reaches hRun)

theorem bind (hp : p.LocatedAt c) (hf : ∀ a, (f a).Located) : (p >>= f).LocatedAt c :=
  hp.bindAt fun a c' _ => hf a c'

theorem position {f : Nat → Parser β} (hf : (f c.position).LocatedAt c) :
    (Parser.position >>= f).LocatedAt c := hf

/-- A token that is there can be taken. -/
theorem advance : Parser.advance.LocatedAt ⟨n, t :: ts⟩ := ⟨[t], Nat.zero_le 1, rfl, rfl⟩

/-- What follows a token may depend on it. -/
theorem token {f : Token → Parser β} (hf : (f t).LocatedAt ⟨n + 1, ts⟩) :
    (Parser.advance >>= f).LocatedAt ⟨n, t :: ts⟩ := by
  refine advance.bindAt fun a c' hRun => ?_
  cases hRun
  exact hf

end LocatedAt

namespace Located

theorem bind (hp : p.Located) (hf : ∀ a, (f a).Located) : (p >>= f).Located :=
  fun c => (hp c).bind hf

/-! ## Primitives -/

theorem pure (a : α) : (Pure.pure a : Parser α).Located := Cursor.Reaches.refl

theorem position : Parser.position.Located := Cursor.Reaches.refl

theorem unexpected {message : String} (h : ParseFault.Plain message) :
    (Parser.unexpected message : Parser α).Located :=
  fun _ => Cursor.places_unexpected h

theorem identifier : Parser.identifier.Located := by
  rintro ⟨n, _ | ⟨t, ts⟩⟩
  · exact Cursor.places_unexpected (by decide)
  · cases t with
    | name name => exact ⟨[.name name], Nat.zero_le 1, rfl, rfl⟩
    | _ => exact Cursor.places_unexpected (by decide)

theorem skipLineBreaks : Parser.skipLineBreaks.Located := fun c => Cursor.reaches_skipWhile c _

theorem skipSeparators : Parser.skipSeparators.Located := fun c => Cursor.reaches_skipWhile c _

theorem expectEnd : Parser.expectEnd.Located := by
  rintro ⟨n, _ | ⟨t, ts⟩⟩
  · exact Cursor.Reaches.refl _
  · exact Cursor.Places.here (.trailing t ts)

/-- Behind a test of the current kind, the first branch starts at a token of
that kind. -/
theorem branch {kind : Kind} {q r : Parser β}
    (hThen : ∀ n t ts, t.kind = kind → q.LocatedAt ⟨n, t :: ts⟩) (hElse : r.Located) :
    (do if ← Parser.isAt kind then q else r : Parser β).Located := by
  intro c
  show c.Explains ((if c.isAt kind = true then q else r) c)
  split
  · next hAt =>
      obtain ⟨n, t, ts, rfl, hKind⟩ := Cursor.exists_of_isAt hAt
      exact hThen n t ts hKind
  · exact hElse c

theorem expect (kind : Kind) : (Parser.expect kind).Located := by
  intro c
  show c.Explains (if c.isAt kind = true then Parser.advance c else _)
  split
  · next hAt =>
      obtain ⟨n, t, ts, rfl, -⟩ := Cursor.exists_of_isAt hAt
      exact LocatedAt.advance
  · exact Cursor.places_unexpected (ParseFault.plain_expected kind)

/-- The error of a parser that is given up is not seen. -/
theorem orRewind (h : p.Located) (a : α) : (Parser.orRewind p a).Located := by
  intro c
  have hHere := h c
  unfold LocatedAt at *
  rw [Parser.orRewind]
  cases hRun : p c with
  | ok b c' =>
      rw [hRun] at hHere
      exact hHere
  | error e c' => exact Cursor.Reaches.refl c

theorem elseBranch? (h : p.Located) : (Parser.elseBranch? p).Located := by
  intro c
  have hSkipped : Reaches 0 c c.skipLineBreaks := Cursor.reaches_skipWhile c _
  unfold LocatedAt Parser.elseBranch?
  split
  · next hAt =>
      apply Cursor.Explains.behind hSkipped
      obtain ⟨n, t, ts, hHere, -⟩ := Cursor.exists_of_isAt hAt
      rw [hHere]
      exact LocatedAt.advance.bind fun _ => .bind h fun _ => .pure _
  · exact Cursor.Reaches.refl c

end Located

/-! ## Lists of items -/

section Items

variable {item : Parser α} {gap : Parser Unit}

theorem moreItems_located (hItem : item.Located) (hGap : gap.Located) (bound : Nat) :
    (moreItems item gap bound).Located := by
  induction bound with
  | zero => exact .bind (.expect _) fun _ => .pure _
  | succ bound ih =>
      refine .branch (fun _ _ _ _ => LocatedAt.advance.bind fun _ => .pure _) ?_
      refine .bind (.expect _) fun _ => .bind hGap fun _ => .bind hItem fun _ => ?_
      exact .bind hGap fun _ => .bind ih fun _ => .pure _

theorem items_located (hItem : item.Located) (hGap : gap.Located) : (items item gap).Located := by
  refine .bind hGap fun _ =>
    .branch (fun _ _ _ _ => LocatedAt.advance.bind fun _ => .pure _) ?_
  refine .bind hItem fun _ => .bind hGap fun _ => ?_
  exact .bind (fun c => moreItems_located hItem hGap _ c) fun _ => .pure _

end Items

end Parser

end ScriptLang
