import ScriptLang.Grammar.TypeAnnotation
import ScriptLang.Proofs.Reading.Run
import ScriptLang.Proofs.Reading.Tables

/-!
# The spelling of types

Each type is spelled in tokens in exactly one way (`Ty.tokens`). A type is read
from the front of some tokens exactly when they start with its spelling
(`parseType_spelled`, `reads_type`), and then nothing behind the spelling is
looked at. The same holds for annotations and for lambda parameters.
-/

namespace ScriptLang

mutual

/-- The tokens that spell a type. -/
def Ty.tokens : Ty → List Token
  | .basic kind => [.typeWord (.basic kind)]
  | .collection kind element =>
    [.typeWord (.collection kind), .bracket .openAngle, .typeWord (.basic element),
      .bracket .closeAngle]
  | .function parameters result =>
    .bracket .openParen ::
      (Ty.listTokens parameters ++ .bracket .closeParen :: .symbol .arrow :: result.tokens)

/-- The tokens that spell types with commas between them. -/
def Ty.listTokens : List Ty → List Token
  | [] => []
  | t :: ts => t.tokens ++ Ty.moreTokens ts

/-- The tokens that spell types, each behind a comma. -/
def Ty.moreTokens : List Ty → List Token
  | [] => []
  | t :: ts => .symbol .comma :: t.tokens ++ Ty.moreTokens ts

end

namespace Ty

theorem moreTokens_eq (ts : List Ty) : moreTokens ts = listedMore tokens ts := by
  induction ts with
  | nil => rw [moreTokens, listedMore, List.flatMap_nil]
  | cons t ts ih => rw [moreTokens, ih, listedMore, listedMore, List.flatMap_cons]

theorem listTokens_eq (ts : List Ty) : listTokens ts = listed tokens ts := by
  cases ts with
  | nil => rw [listTokens, listed]
  | cons t ts => rw [listTokens, moreTokens_eq, listed]

/-- A type starts with a token that closes nothing. -/
theorem tokens_head (ty : Ty) :
    ∃ t ts, ty.tokens = t :: ts ∧ t ≠ .bracket .closeParen := by
  cases ty <;> simp [tokens]

end Ty

/-! ## Reading a type -/

open ScriptLang.Parser

variable {type : Parser Ty} {c c' : Cursor} {ty : Ty} {ts : List Token}

/-- A collection is read as it is spelled if its element is. -/
theorem parseCollection_spelled {kind : Collection}
    (hType : ∀ c ty c', type c = .ok ty c' → c.rest = ty.tokens ++ c'.rest)
    (hHead : c.rest = .typeWord (.collection kind) :: ts)
    (hRun : TypeForm.parseCollection type c = .ok ty c') : c.rest = ty.tokens ++ c'.rest := by
  simp only [TypeForm.parseCollection, bind_eq_ok, advance_eq_ok, expect_eq_ok,
    position_eq_ok, Token.kind_eq_bracket] at hRun
  obtain ⟨word, c₁, ⟨hWord, -⟩, _, c₂, ⟨rfl, hOpen, -⟩, _, _, ⟨-, rfl⟩, element, c₃, hElement,
    hRun⟩ := hRun
  obtain ⟨rfl, hRest⟩ := List.cons.inj (hHead.symm.trans hWord)
  have hSpelled := hType _ _ _ hElement
  cases element with
  | basic element =>
      simp only [bind_eq_ok, expect_eq_ok, Token.kind_eq_bracket] at hRun
      obtain ⟨_, c₄, ⟨rfl, hClose, -⟩, hRun⟩ := hRun
      rw [hWord, hOpen, hSpelled, hClose]
      cases kind <;> cases hRun <;> simp [Ty.tokens]
  | collection => exact absurd hRun throw_ne_ok
  | function => exact absurd hRun throw_ne_ok

/-- A function type is read as it is spelled if its parts are. -/
theorem parseFunction_spelled
    (hType : ∀ c ty c', type c = .ok ty c' → c.rest = ty.tokens ++ c'.rest)
    (hRun : TypeForm.parseFunction type c = .ok ty c') : c.rest = ty.tokens ++ c'.rest := by
  simp only [TypeForm.parseFunction, bind_eq_ok, expect_eq_ok, pure_eq_ok,
    Token.kind_eq_bracket, Token.kind_eq_symbol] at hRun
  obtain ⟨_, c₁, ⟨rfl, hOpen, -⟩, parameters, c₂, hItems, _, c₃, ⟨rfl, hArrow, -⟩, result, c₄,
    hResult, rfl, rfl⟩ := hRun
  rw [hOpen, items_listed hType hItems, hArrow, hType _ _ _ hResult, Ty.tokens,
    Ty.listTokens_eq]
  simp

/-- A type that was read stands spelled out in front of what is left. -/
theorem typeAt_spelled : ∀ (bound : Nat) (c : Cursor) (ty : Ty) (c' : Cursor),
    Grammar.standard.typeAt bound c = .ok ty c' → c.rest = ty.tokens ++ c'.rest := by
  intro bound
  induction bound with
  | zero =>
      intro c ty c' hRun
      exact absurd hRun unexpected_ne_ok
  | succ bound ih =>
      intro c ty c' hRun
      rcases c with ⟨n, _ | ⟨t, ts⟩⟩
      · exact absurd hRun unexpected_ne_ok
      simp only [Grammar.typeAt, Cursor.kind?_cons, Option.bind_some] at hRun
      cases hForm : Grammar.standard.type t.kind with
      | none =>
          rw [hForm] at hRun
          exact absurd hRun unexpected_ne_ok
      | some form =>
          rw [hForm] at hRun
          cases form with
          | basic =>
              obtain ⟨kind, hKind⟩ := type_eq_some.1 hForm
              rw [Token.kind_eq_typeWord] at hKind
              subst hKind
              cases hRun
              rw [Ty.tokens, List.singleton_append]
          | collection =>
              obtain ⟨kind, hKind⟩ := type_eq_some.1 hForm
              rw [Token.kind_eq_typeWord] at hKind
              subst hKind
              exact parseCollection_spelled ih rfl hRun
          | function => exact parseFunction_spelled ih hRun
          | any => exact (type_eq_some.1 hForm).elim

theorem parseType_spelled (hRun : Grammar.standard.parseType c = .ok ty c') :
    c.rest = ty.tokens ++ c'.rest :=
  typeAt_spelled _ _ _ _ hRun

/-- A type that is spelled out is read, whatever stands behind it. -/
theorem reads_typeAt : ∀ (bound : Nat) (ty : Ty) (rest : List Token),
    ty.tokens.length ≤ bound →
      (Grammar.standard.typeAt bound).Reads (ty.tokens ++ rest) ty rest := by
  intro bound
  induction bound with
  | zero =>
      intro ty rest hBound
      obtain ⟨t, ts, hTokens, -⟩ := ty.tokens_head
      simp [hTokens] at hBound
  | succ bound ih =>
      intro ty rest hBound
      cases ty with
      | basic kind => exact fun n => ⟨n + 1, rfl⟩
      | collection kind element =>
          have hElement := ih (.basic element) (.bracket .closeAngle :: rest) (by
            simp [Ty.tokens] at hBound ⊢
            omega)
          have hRun : (TypeForm.parseCollection (Grammar.standard.typeAt bound)).Reads
              ((Ty.collection kind element).tokens ++ rest) (.collection kind element) rest := by
            apply Reads.bind .advance
            apply Reads.bind (.expect (.bracket .openAngle))
            apply Reads.position_bind
            intro _
            apply Reads.bind hElement
            apply Reads.bind (.expect (.bracket .closeAngle))
            cases kind <;> exact .pure
          exact fun n => hRun n
      | function parameters result =>
          rw [Ty.tokens, Ty.listTokens_eq, List.length_cons, List.length_append] at hBound
          have hItems : (items (Grammar.standard.typeAt bound) (Pure.pure ())).Reads
              (listed Ty.tokens parameters ++ .bracket .closeParen :: .symbol .arrow ::
                (result.tokens ++ rest))
              parameters (.symbol .arrow :: (result.tokens ++ rest)) := by
            refine .items_listed (fun p hp rest' => ih p rest' ?_) (fun p _ => p.tokens_head)
            have hLe := length_spell_le_listed Ty.tokens hp
            omega
          have hResult := ih result rest (by simp at hBound; omega)
          have hRun : (TypeForm.parseFunction (Grammar.standard.typeAt bound)).Reads
              ((Ty.function parameters result).tokens ++ rest) (.function parameters result)
              rest := by
            rw [Ty.tokens, Ty.listTokens_eq, List.cons_append, List.append_assoc]
            apply Reads.bind (.expect (.bracket .openParen))
            apply Reads.bind hItems
            apply Reads.bind (.expect (.symbol .arrow))
            exact .bind hResult .pure
          exact fun n => hRun n

theorem reads_type (ty : Ty) (rest : List Token) :
    Grammar.standard.parseType.Reads (ty.tokens ++ rest) ty rest := by
  intro n
  exact reads_typeAt _ ty rest (by simp) n

end ScriptLang
