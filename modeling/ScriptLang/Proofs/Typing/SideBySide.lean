import ScriptLang.Proofs.Typing.Names
import ScriptLang.Proofs.Typing.Run

/-!
# Runs side by side

Two runs of checkers that begin in environments and in sessions which agree on
certain names. What each of the two adds is the same: bindings to its
environment (`Environment.GrownAlike`) and functions to its session
(`Session.SideBySide`), so that they go on agreeing. `Checker.Twin` says of two
checkers that they end alike whenever they begin so.
-/

namespace ScriptLang

variable {names more : List String} {table₁ table₂ : SignatureTable}
  {env₁ env₂ mid₁ mid₂ after₁ after₂ : Environment}

/-! ## What stays in agreement -/

theorem Environment.AgreeOn.mono (h : env₁.AgreeOn names env₂) (hSub : more ⊆ names) :
    env₁.AgreeOn more env₂ :=
  fun name hName => h name (hSub hName)

theorem SignatureTable.AgreeOn.mono (h : table₁.AgreeOn names table₂) (hSub : more ⊆ names) :
    table₁.AgreeOn more table₂ :=
  fun name hName => h name (hSub hName)

theorem Environment.AgreeOn.bindAll (h : env₁.AgreeOn names env₂)
    (added : List (String × Binding)) :
    (env₁.bindAll added).AgreeOn names (env₂.bindAll added) :=
  fun name hName => get?_bindAll_congr fun _ => h name hName

theorem SignatureTable.AgreeOn.append (h : table₁.AgreeOn names table₂)
    (added : List (Signature × FunctionDecl)) :
    (⟨table₁.entries ++ added⟩ : SignatureTable).AgreeOn names ⟨table₂.entries ++ added⟩ := by
  intro name hName types
  have hBefore : table₁.get? ⟨name, types⟩ = table₂.get? ⟨name, types⟩ := h name hName types
  rw [get?, get?] at hBefore
  rw [get?, get?, List.find?_append, List.find?_append, Option.map_or, Option.map_or, hBefore]

/-- The same bindings are added to two environments, under names that are free
in both. -/
def Environment.GrownAlike (env₁ env₂ after₁ after₂ : Environment) : Prop :=
  ∃ added : List (String × Binding),
    after₁ = env₁.bindAll added ∧ after₂ = env₂.bindAll added ∧
      ∀ name ∈ added.map Prod.fst, env₁.get? name = none ∧ env₂.get? name = none

namespace Environment.GrownAlike

theorem refl (env₁ env₂ : Environment) : env₁.GrownAlike env₂ env₁ env₂ :=
  ⟨[], rfl, rfl, fun _ h => absurd h List.not_mem_nil⟩

theorem single {name : String} (ty : Ty) (readOnly : Bool) (h₁ : env₁.get? name = none)
    (h₂ : env₂.get? name = none) :
    env₁.GrownAlike env₂ (env₁.bind name ty readOnly) (env₂.bind name ty readOnly) := by
  refine ⟨[(name, ⟨ty, readOnly⟩)], rfl, rfl, ?_⟩
  intro other hOther
  rw [List.mem_singleton.1 hOther]
  exact ⟨h₁, h₂⟩

theorem trans (hFirst : env₁.GrownAlike env₂ mid₁ mid₂)
    (hThen : mid₁.GrownAlike mid₂ after₁ after₂) :
    env₁.GrownAlike env₂ after₁ after₂ := by
  obtain ⟨first, rfl, rfl, hFree⟩ := hFirst
  obtain ⟨later, rfl, rfl, hStillFree⟩ := hThen
  refine ⟨first ++ later, (bindAll_append _ _ _).symm, (bindAll_append _ _ _).symm, ?_⟩
  intro name hName
  rw [List.map_append, List.mem_append] at hName
  rcases hName with hHere | hLater
  · exact hFree name hHere
  · have hNone := hStillFree name hLater
    exact ⟨get?_eq_none_of_bindAll hNone.1, get?_eq_none_of_bindAll hNone.2⟩

theorem agreeOn (h : env₁.GrownAlike env₂ after₁ after₂) (hEnv : env₁.AgreeOn names env₂) :
    after₁.AgreeOn names after₂ := by
  obtain ⟨added, rfl, rfl, -⟩ := h
  exact hEnv.bindAll added

theorem eq {env : Environment} (h : env.GrownAlike env after₁ after₂) : after₁ = after₂ := by
  obtain ⟨added, rfl, rfl, -⟩ := h
  rfl

end Environment.GrownAlike

/-- Sessions in which the same functions are being checked, and that have
declared the functions of their tables and then the same further ones. -/
structure Session.SideBySide (table₁ table₂ : SignatureTable) (session₁ session₂ : Session) :
    Prop where
  results : session₁.results = session₂.results
  functions : ∃ added, session₁.functions = ⟨table₁.entries ++ added⟩ ∧
    session₂.functions = ⟨table₂.entries ++ added⟩

namespace Session.SideBySide

variable {session₁ session₂ : Session}

theorem refl (table₁ table₂ : SignatureTable) (results : List Ty) :
    SideBySide table₁ table₂ ⟨table₁, results⟩ ⟨table₂, results⟩ where
  results := rfl
  functions := ⟨[], by rw [List.append_nil], by rw [List.append_nil]⟩

theorem eq {table : SignatureTable} (h : SideBySide table table session₁ session₂) :
    session₁ = session₂ := by
  obtain ⟨functions₁, results₁⟩ := session₁
  obtain ⟨functions₂, results₂⟩ := session₂
  obtain ⟨hResults, added, h₁, h₂⟩ := h
  have hFunctions : functions₁ = functions₂ := h₁.trans h₂.symm
  have hSame : results₁ = results₂ := hResults
  rw [hFunctions, hSame]

theorem agreeOn (h : SideBySide table₁ table₂ session₁ session₂)
    (hTable : table₁.AgreeOn names table₂) :
    session₁.functions.AgreeOn names session₂.functions := by
  obtain ⟨added, h₁, h₂⟩ := h.functions
  rw [h₁, h₂]
  exact hTable.append added

theorem perm (h : SideBySide table₁ table₂ session₁ session₂)
    (hPerm : table₁.entries.Perm table₂.entries) :
    session₁.functions.entries.Perm session₂.functions.entries := by
  obtain ⟨added, h₁, h₂⟩ := h.functions
  rw [h₁, h₂]
  exact hPerm.append_right added

theorem withResults (h : SideBySide table₁ table₂ session₁ session₂) {results₁ results₂ : List Ty}
    (hResults : results₁ = results₂) :
    SideBySide table₁ table₂ { session₁ with results := results₁ }
      { session₂ with results := results₂ } where
  results := hResults
  functions := h.functions

end Session.SideBySide

/-! ## Runs side by side -/

namespace Checker

open Session

variable {α β γ δ : Type} {R : α → β → Prop} {Q : γ → δ → Prop}

/-- Two runs end alike: with the same error or with related results, and in
sessions that are still side by side. -/
inductive EndAlike (table₁ table₂ : SignatureTable) (R : α → β → Prop) :
    EStateM.Result TypeError Session α → EStateM.Result TypeError Session β → Prop
  | ok {a : α} {b : β} {left₁ left₂ : Session} (hLeft : SideBySide table₁ table₂ left₁ left₂)
      (h : R a b) : EndAlike table₁ table₂ R (.ok a left₁) (.ok b left₂)
  | error (e : TypeError) {left₁ left₂ : Session}
      (hLeft : SideBySide table₁ table₂ left₁ left₂) :
      EndAlike table₁ table₂ R (.error e left₁) (.error e left₂)

namespace EndAlike

variable {x : EStateM.Result TypeError Session α} {y : EStateM.Result TypeError Session β}

theorem ok_iff (h : EndAlike table₁ table₂ R x y) :
    (∃ a left, x = .ok a left) ↔ ∃ b left, y = .ok b left := by
  cases h with
  | ok => exact ⟨fun _ => ⟨_, _, rfl⟩, fun _ => ⟨_, _, rfl⟩⟩
  | error => exact ⟨nofun, nofun⟩

theorem error_iff (h : EndAlike table₁ table₂ R x y) (e : TypeError) :
    (∃ left, x = .error e left) ↔ ∃ left, y = .error e left := by
  cases h with
  | ok => exact ⟨nofun, nofun⟩
  | error e' => simp

theorem of_ok {a : α} {b : β} {left₁ left₂ : Session}
    (h : EndAlike table₁ table₂ R (.ok a left₁) (.ok b left₂)) :
    SideBySide table₁ table₂ left₁ left₂ ∧ R a b := by
  cases h with
  | ok hLeft hResults => exact ⟨hLeft, hResults⟩

end EndAlike

/-- From sessions that are side by side, the two checkers end alike. -/
def Twin (table₁ table₂ : SignatureTable) (R : α → β → Prop) (p : Checker α) (q : Checker β) :
    Prop :=
  ∀ ⦃session₁ session₂ : Session⦄, SideBySide table₁ table₂ session₁ session₂ →
    EndAlike table₁ table₂ R (p session₁) (q session₂)

namespace Twin

variable {p : Checker α} {q : Checker β}

theorem pure {a : α} {b : β} (h : R a b) :
    Twin table₁ table₂ R (Pure.pure a) (Pure.pure b) :=
  fun _ _ hSession => .ok hSession h

theorem throw (e : TypeError) :
    Twin table₁ table₂ R (MonadExcept.throw e) (MonadExcept.throw e) :=
  fun _ _ hSession => .error e hSession

theorem ofExcept {x : Except TypeError α} {y : Except TypeError β} (h : Alike R x y) :
    Twin table₁ table₂ R (Checker.ofExcept x) (Checker.ofExcept y) := by
  intro session₁ session₂ hSession
  cases h with
  | error e => exact .error e hSession
  | ok h => exact .ok hSession h

/-- Inference sees tables that agree. -/
theorem infer {f : SignatureTable → Except TypeError α} {g : SignatureTable → Except TypeError β}
    (hTable : table₁.AgreeOn names table₂)
    (h : ∀ now₁ now₂ : SignatureTable, now₁.AgreeOn names now₂ → Alike R (f now₁) (g now₂)) :
    Twin table₁ table₂ R (Checker.infer f) (Checker.infer g) :=
  fun _ _ hSession => ofExcept (h _ _ (hSession.agreeOn hTable)) hSession

theorem infer_eq {f g : SignatureTable → Except TypeError α}
    (hTable : table₁.AgreeOn names table₂)
    (h : ∀ now₁ now₂ : SignatureTable, now₁.AgreeOn names now₂ → f now₁ = g now₂) :
    Twin table₁ table₂ (· = ·) (Checker.infer f) (Checker.infer g) := by
  apply infer hTable
  intro now₁ now₂ hNow
  rw [h now₁ now₂ hNow]
  exact .refl _

theorem bind {f : α → Checker γ} {g : β → Checker δ} (hFirst : Twin table₁ table₂ R p q)
    (hThen : ∀ a b, R a b → Twin table₁ table₂ Q (f a) (g b)) :
    Twin table₁ table₂ Q (p >>= f) (q >>= g) := by
  intro session₁ session₂ hSession
  have hEnd := hFirst hSession
  -- Ends of two kinds are not alike, so both runs go on or both stop.
  generalize hp : p session₁ = end₁ at hEnd
  generalize hq : q session₂ = end₂ at hEnd
  cases hEnd with
  | ok hLeft h =>
      rw [bind_of_ok hp, bind_of_ok hq]
      exact hThen _ _ h hLeft
  | error e hLeft =>
      rw [bind_of_error hp, bind_of_error hq]
      exact .error e hLeft

theorem imp {R' : α → β → Prop} (hTwin : Twin table₁ table₂ R p q) (h : ∀ a b, R a b → R' a b) :
    Twin table₁ table₂ R' p q := by
  intro session₁ session₂ hSession
  have hEnd := hTwin hSession
  generalize p session₁ = end₁ at hEnd ⊢
  generalize q session₂ = end₂ at hEnd ⊢
  cases hEnd with
  | ok hLeft hResults => exact .ok hLeft (h _ _ hResults)
  | error e hLeft => exact .error e hLeft

/-- The innermost function is the same in both sessions. -/
theorem expectedResult (returnOk : Bool) :
    Twin table₁ table₂ (· = ·) (Checker.expectedResult returnOk)
      (Checker.expectedResult returnOk) := by
  rintro ⟨functions₁, results₁⟩ ⟨functions₂, results₂⟩ hSession
  obtain rfl : results₁ = results₂ := hSession.results
  cases returnOk with
  | false => exact .error _ hSession
  | true =>
      cases results₁ with
      | nil => exact .error _ hSession
      | cons result rest => exact .ok hSession rfl

theorem within (h : Twin table₁ table₂ R p q) (result : Ty) :
    Twin table₁ table₂ R (Checker.within result p) (Checker.within result q) := by
  intro session₁ session₂ hSession
  have hPushed : result :: session₁.results = result :: session₂.results :=
    congrArg (result :: ·) hSession.results
  have hEnd := h (hSession.withResults hPushed)
  rw [Checker.within, Checker.within]
  generalize p { session₁ with results := result :: session₁.results } = end₁ at hEnd ⊢
  generalize q { session₂ with results := result :: session₂.results } = end₂ at hEnd ⊢
  cases hEnd with
  | ok hLeft hResults =>
      exact .ok (hLeft.withResults (congrArg List.tail hLeft.results)) hResults
  | error e hLeft => exact .error e (hLeft.withResults (congrArg List.tail hLeft.results))

/-- Both sessions declare the function behind the others, or its signature is
taken in both. -/
theorem declareFunction {f : FunctionDecl} (hTable : table₁.AgreeOn names table₂)
    (hName : f.name ∈ names) :
    Twin table₁ table₂ (fun _ _ => True) (Checker.declareFunction f)
      (Checker.declareFunction f) := by
  intro session₁ session₂ hSession
  have hTaken : session₁.functions.contains f.signature = session₂.functions.contains f.signature :=
    congrArg Option.isSome (hSession.agreeOn hTable f.name hName (f.parameters.map Prod.snd))
  rw [Checker.declareFunction, Checker.declareFunction, SignatureTable.declare,
    SignatureTable.declare, ← hTaken]
  by_cases hContains : session₁.functions.contains f.signature = true
  · rw [if_pos hContains, if_pos hContains]
    exact .error _ hSession
  · rw [if_neg hContains, if_neg hContains]
    obtain ⟨added, h₁, h₂⟩ := hSession.functions
    have hLater : SideBySide table₁ table₂
        { session₁ with functions := ⟨session₁.functions.entries ++ [(f.signature, f)]⟩ }
        { session₂ with functions := ⟨session₂.functions.entries ++ [(f.signature, f)]⟩ } := by
      refine ⟨hSession.results, added ++ [(f.signature, f)], ?_, ?_⟩
      · rw [h₁, List.append_assoc]
      · rw [h₂, List.append_assoc]
    exact .ok hLater trivial

/-- The outcomes alone. -/
theorem eval {session₁ session₂ : Session} (h : Twin table₁ table₂ R p q)
    (hSession : SideBySide table₁ table₂ session₁ session₂) :
    Alike R (p.eval session₁) (q.eval session₂) := by
  have hEnd := h hSession
  rw [Checker.eval, Checker.eval]
  generalize p session₁ = end₁ at hEnd ⊢
  generalize q session₂ = end₂ at hEnd ⊢
  cases hEnd with
  | ok _ hResults => exact .ok hResults
  | error e _ => exact .error e

end Twin

end Checker

end ScriptLang
