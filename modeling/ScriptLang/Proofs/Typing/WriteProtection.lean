import ScriptLang.Proofs.Typing.WellScoped

/-!
# Write protection

Declarations by `val` and the parameters of functions may only be read. In an
accepted program every assignment and every compound assignment that checking
looks at goes to a name whose binder may be written.

A step `++` or `--` inside of an expression writes too, but types do not see it:
the type of an expression depends on the types of the variables alone, and not on
which of them may be written (`typeOf_sameTypes`). So a step is the one way in
which an accepted program can write to a variable that may only be read, and it
does so in `val a = 1; print(a++)`.
-/

namespace ScriptLang

variable {table : SignatureTable} {env env₁ env₂ : Environment} {e : Expr} {es : List Expr}
  {ty : Ty} {types : List Ty} {name : String}

/-- Whether a use of a variable changes it. -/
def Access.writes : Access → Bool
  | .read => false
  | .step | .assign | .compound => true

/-! ## Types without flags -/

/-- The environments give the same types to the same names. They may differ in
which of the names may be written. -/
def Environment.SameTypes (env₁ env₂ : Environment) : Prop :=
  ∀ name, (env₁.get? name).map Binding.ty = (env₂.get? name).map Binding.ty

namespace Environment.SameTypes

theorem symm (h : env₁.SameTypes env₂) : env₂.SameTypes env₁ := fun name => (h name).symm

theorem get? {binding : Binding} (h : env₁.SameTypes env₂)
    (hScope : env₁.get? name = some binding) :
    ∃ readOnly, env₂.get? name = some ⟨binding.ty, readOnly⟩ := by
  have hTy : some binding.ty = (env₂.get? name).map Binding.ty := by
    rw [← h name, hScope]
    rfl
  obtain ⟨⟨found, readOnly⟩, hFound, hEq⟩ := Option.map_eq_some_iff.1 hTy.symm
  have hSame : found = binding.ty := hEq
  rw [hSame] at hFound
  exact ⟨readOnly, hFound⟩

theorem bind (h : env₁.SameTypes env₂) (name : String) (ty : Ty) (readOnly : Bool) :
    (env₁.bind name ty readOnly).SameTypes (env₂.bind name ty readOnly) := by
  intro other
  rw [get?_bind, get?_bind]
  by_cases hName : name = other
  · rw [if_pos hName, if_pos hName]
  · rw [if_neg hName, if_neg hName]
    exact h other

theorem bindAll {added : List (String × Binding)} (h : env₁.SameTypes env₂) :
    (env₁.bindAll added).SameTypes (env₂.bindAll added) := by
  induction added generalizing env₁ env₂ with
  | nil => exact h
  | cons entry rest ih =>
      rw [bindAll_cons, bindAll_cons]
      exact ih (h.bind entry.1 entry.2.ty entry.2.readOnly)

end Environment.SameTypes

mutual

/-- Typing does not look at the flags: a derivation in one environment is one in
every other with the same types. -/
theorem HasType.sameTypes {env₁ env₂ : Environment} {e : Expr} {ty : Ty}
    (hSame : env₁.SameTypes env₂) : HasType table env₁ e ty → HasType table env₂ e ty
  | .int => .int
  | .boolean => .boolean
  | .text hSplices => .text (hSplices.sameTypes hSame)
  | .var hScope => by
    obtain ⟨readOnly, hFound⟩ := hSame.get? hScope
    show HasType _ _ _ (Binding.mk _ readOnly).ty
    exact .var hFound
  | .arithmetic hLeft hRight => .arithmetic (hLeft.sameTypes hSame) (hRight.sameTypes hSame)
  | .concatenation hLeft hRight hTy =>
    .concatenation (hLeft.sameTypes hSame) (hRight.sameTypes hSame) hTy
  | .comparison hLeft hRight => .comparison (hLeft.sameTypes hSame) (hRight.sameTypes hSame)
  | .logical hLeft hRight => .logical (hLeft.sameTypes hSame) (hRight.sameTypes hSame)
  | .not hOperand => .not (hOperand.sameTypes hSame)
  | .step hScope => by
    obtain ⟨readOnly, hFound⟩ := hSame.get? hScope
    exact .step hFound
  | .ifElse hCondition hThen hElse =>
    .ifElse (hCondition.sameTypes hSame) (hThen.sameTypes hSame) (hElse.sameTypes hSame)
  | .range hFirst hLast => .range (hFirst.sameTypes hSame) (hLast.sameTypes hSame)
  | .generate hSize hParameter hBody =>
    .generate (hSize.sameTypes hSame) hParameter (hBody.sameTypes (hSame.bind _ _ _))
  | .uniform hItems hSome hEqual => .uniform (hItems.sameTypes hSame) hSome hEqual
  | .mixed hItems hOne hOther hDiffer => .mixed (hItems.sameTypes hSame) hOne hOther hDiffer
  | .lambda hDistinct hBody => .lambda hDistinct (hBody.sameTypes hSame.bindAll)
  | .callFunction hArguments hDeclared =>
    .callFunction (hArguments.sameTypes hSame) hDeclared
  | .callVariable hArguments hUndeclared hScope => by
    obtain ⟨readOnly, hFound⟩ := hSame.get? hScope
    exact .callVariable (hArguments.sameTypes hSame) hUndeclared hFound
  | .index hScope => by
    obtain ⟨readOnly, hFound⟩ := hSame.get? hScope
    show HasType _ _ _ (Binding.mk _ readOnly).ty
    exact .index hFound

theorem HasTypes.sameTypes {env₁ env₂ : Environment} {es : List Expr} {types : List Ty}
    (hSame : env₁.SameTypes env₂) : HasTypes table env₁ es types → HasTypes table env₂ es types
  | .nil => .nil
  | .cons hHead hTail => .cons (hHead.sameTypes hSame) (hTail.sameTypes hSame)

end

/-- Types do not depend on which variables may be written. -/
theorem typeOf_sameTypes (hSame : env₁.SameTypes env₂) :
    typeOf table env₁ e = .ok ty ↔ typeOf table env₂ e = .ok ty := by
  constructor
  · intro hRun
    exact ((hasType_of_typeOf e hRun).sameTypes hSame).typeOf_eq
  · intro hRun
    exact ((hasType_of_typeOf e hRun).sameTypes hSame.symm).typeOf_eq

/-! ## Writes -/

/-- Every use of the kind that checking looks at goes to a binder that may be
written. -/
def Program.Protects (p : Program) (access : Access) : Prop :=
  ∀ (before after : List Stmt) (s : Stmt), p = before ++ s :: after →
    ∀ (place : Scope) (name : String), s.Uses (Scope.behind [] before) place (.var access name) →
      ∃ binder, place.lookup? name = some binder ∧ binder.origin.readOnly = false

/-- A variable that is assigned to may be written. -/
theorem Use.Met.writable {place : TypedScope} {access : Access}
    (h : (Use.var access name).Met table place.env)
    (hAssigned : access = .assign ∨ access = .compound) :
    ∃ binder, place.scope.lookup? name = some binder ∧ binder.origin.readOnly = false := by
  obtain ⟨binding, hScope, -, hFlag⟩ := h
  obtain ⟨binder, hBound, hSame⟩ := TypedScope.exists_of_get?_env hScope
  refine ⟨binder, ?_, hSame.trans (hFlag hAssigned)⟩
  rw [TypedScope.lookup?_scope, hBound]
  rfl

/-- An accepted program assigns to variables that may be written, both plainly
and by compound assignment. So all of its writes are protected exactly if its
steps inside of expressions are; and to these the flags make no difference, for
no expression has another type where other variables may be written. -/
theorem writes_of_accepted {p : Program} {env : Environment} (h : typeCheck p = .ok env) :
    p.Protects .assign ∧ p.Protects .compound ∧
      ((∀ access : Access, access.writes = true → p.Protects access) ↔ p.Protects .step) ∧
      (∀ (table : SignatureTable) (env₁ env₂ : Environment) (e : Expr) (ty : Ty),
        env₁.SameTypes env₂ →
          (typeOf table env₁ e = .ok ty ↔ typeOf table env₂ e = .ok ty)) := by
  have hAssigned : ∀ access : Access, access = .assign ∨ access = .compound →
      p.Protects access := by
    rintro access hAccess before after s rfl place name hUses
    obtain ⟨start, hStart, hChecked⟩ := checkedIn_of_typeCheck h
    obtain ⟨inner, rfl, hFound⟩ := hUses.usesAt hStart.scope hChecked
    exact (hFound.met hChecked).writable hAccess
  have hSteps : (∀ access : Access, access.writes = true → p.Protects access) ↔
      p.Protects .step := by
    constructor
    · intro hAll
      exact hAll .step rfl
    · intro hStep access hWrites
      cases access with
      | read => exact absurd hWrites nofun
      | step => exact hStep
      | assign => exact hAssigned .assign (.inl rfl)
      | compound => exact hAssigned .compound (.inr rfl)
  exact ⟨hAssigned .assign (.inl rfl), hAssigned .compound (.inr rfl), hSteps,
    fun _ _ _ _ _ hSame => typeOf_sameTypes hSame⟩

/-- `var a = 1; { a = 2 }` is accepted, so the assignment inside of the block goes
to a variable that may be written. And `a++` is an integer whether `a` may be
written or not. -/
theorem writes_in_block :
    let p : Program := [.assign "a" (.int 1) none true false,
      .block [.assign "a" (.int 2) none false false]]
    typeCheck p = .ok (Environment.empty.bind "a" .int false) ∧
      p.Protects .assign ∧ p.Protects .compound ∧
      ((∀ access : Access, access.writes = true → p.Protects access) ↔ p.Protects .step) ∧
      (typeOf .empty (Environment.empty.bind "a" .int false) (.step "a" .increase false) =
          .ok .int ↔
        typeOf .empty (Environment.empty.bind "a" .int true) (.step "a" .increase false) =
          .ok .int) := by
  intro p
  have hChecked : typeCheck p = .ok (Environment.empty.bind "a" .int false) := rfl
  have hSame : (Environment.empty.bind "a" .int false).SameTypes
      (Environment.empty.bind "a" .int true) := by
    intro name
    rw [Environment.get?_bind, Environment.get?_bind]
    by_cases hName : "a" = name
    · rw [if_pos hName, if_pos hName]
      rfl
    · rw [if_neg hName, if_neg hName]
  obtain ⟨hAssign, hCompound, hSteps, hTypes⟩ := writes_of_accepted hChecked
  exact ⟨hChecked, hAssign, hCompound, hSteps, hTypes _ _ _ _ _ hSame⟩

/-- Not every write of an accepted program is protected: `val a = 1; print(a++)`
is accepted. -/
theorem step_writes_read_only :
    ¬ ∀ (p : Program) (env : Environment), typeCheck p = .ok env →
      ∀ access : Access, access.writes = true → p.Protects access := by
  intro hProtected
  obtain ⟨binder, hBound, hWritable⟩ := hProtected
    [.assign "a" (.int 1) none true true, .output .print (.step "a" .increase false)]
    (Environment.empty.bind "a" .int true) rfl .step rfl
    [.assign "a" (.int 1) none true true] [] _ rfl _ "a"
    (.value List.mem_cons_self (.itself rfl))
  have hDeclared : binder = ⟨"a", .declaration true⟩ := (Option.some.inj hBound).symm
  rw [hDeclared] at hWritable
  exact absurd hWritable nofun

end ScriptLang
