import ScriptLang.Proofs.Typing.Rules
import ScriptLang.Proofs.Typing.Scope

/-!
# Scopes with types

In a `TypedScope` each binder stands with its type. So it determines the environment
at its place (`TypedScope.env`), and with it the types of everything that stands
there: the signature for which a call asks is no matter of choice.

`Expr.UsesAt` and `Stmt.UsesAt` are the walks of `Expr.Uses` and `Stmt.Uses` with the
types of the binders. They take the types from the rules, and not from a checker: a
declaration without a type has the type of its value, a loop variable that of the
elements, and a parameter of a lambda that leaves its type open has the one that is
expected at its place. The rules give no more than one type, so what is known behind
some statements and inside of a statement is determined as well
(`TypedScope.Behind.unique`, `Stmt.Encloses.unique`).
-/

namespace ScriptLang

/-! ## Typed scopes -/

/-- The binders in force at a place with their types, the innermost first. -/
abbrev TypedScope := List (Binder × Ty)

variable {place place' next : TypedScope} {name : String} {origin : Origin}
  {typed : List (String × Ty)}

namespace TypedScope

/-- The scope without the types. -/
def scope (place : TypedScope) : Scope := place.map Prod.fst

/-- The variables that the binders make. -/
def env : TypedScope → Environment
  | [] => .empty
  | (binder, ty) :: place => (env place).bind binder.name ty binder.origin.readOnly

/-- The binder that a name means, with its type. -/
def lookup? (place : TypedScope) (name : String) : Option (Binder × Ty) :=
  place.find? (·.1.name == name)

/-- The typed scope inside of parameters, the last of which is the innermost. -/
def enter (place : TypedScope) (origin : Origin) (typed : List (String × Ty)) : TypedScope :=
  (typed.map fun parameter => (⟨parameter.1, origin⟩, parameter.2)).reverse ++ place

/-- What the environment knows of a name is what its binder says. -/
theorem get?_env (place : TypedScope) (name : String) :
    place.env.get? name =
      (place.lookup? name).map fun found => ⟨found.2, found.1.origin.readOnly⟩ := by
  induction place with
  | nil => exact Environment.get?_empty name
  | cons first place ih =>
      obtain ⟨binder, ty⟩ := first
      rw [env, Environment.get?_bind, lookup?, List.find?_cons]
      by_cases hName : binder.name = name
      · rw [if_pos hName, beq_iff_eq.2 hName]
        rfl
      · rw [if_neg hName, beq_false_of_ne hName]
        exact ih

theorem exists_of_get?_env {binding : Binding} (h : place.env.get? name = some binding) :
    ∃ binder, place.lookup? name = some (binder, binding.ty) ∧
      binder.origin.readOnly = binding.readOnly := by
  rw [get?_env] at h
  obtain ⟨⟨binder, ty⟩, hFound, rfl⟩ := Option.map_eq_some_iff.1 h
  exact ⟨binder, hFound, rfl⟩

theorem lookup?_scope (place : TypedScope) (name : String) :
    place.scope.lookup? name = (place.lookup? name).map Prod.fst := by
  rw [Scope.lookup?, scope, List.find?_map]
  rfl

theorem enter_cons {first : String × Ty} :
    place.enter origin (first :: typed) =
      enter ((⟨first.1, origin⟩, first.2) :: place) origin typed := by
  simp [enter]

/-- Parameters enter the scope as they are bound in the environment. -/
theorem env_enter : (place.enter origin typed).env =
    place.env.bindAll (parameterBindings origin.readOnly typed) := by
  induction typed generalizing place with
  | nil => rfl
  | cons first rest ih =>
      rw [enter_cons, ih]
      rfl

theorem scope_enter : (place.enter origin typed).scope =
    place.scope.enter (typed.map fun parameter => ⟨parameter.1, origin⟩) := by
  simp [enter, scope, Scope.enter, Function.comp_def]

/-- Parameters keep their names, whatever types they take. -/
theorem scope_enter_typed {expected : List Ty} {parameters : List (String × Option Ty)}
    (h : typedParameters? expected parameters = some typed) :
    (place.enter origin typed).scope =
      place.scope.enter (parameters.map fun parameter => ⟨parameter.1, origin⟩) := by
  have hNames := congrArg (List.map fun name => (⟨name, origin⟩ : Binder))
    (names_of_typedParameters? parameters h)
  rw [List.map_map, List.map_map] at hNames
  rw [scope_enter]
  exact congrArg place.scope.enter hNames

end TypedScope

/-! ## Uses of names in expressions -/

/-- The types that are expected of the parameters of an expression. An initializer
counts elements, and a lambda takes them from the function type that is expected of
itself. -/
def Expr.expectedParameters : (expected? : Option Ty) → Expr → List Ty
  | _, .generate _ _ _ _ => [.int]
  | some (.function types _), .lambda _ _ => types
  | _, _ => []

/-- At `place`, where a type may be expected of it, the expression makes a use of a
name; the use stands at `inner`. -/
inductive Expr.UsesAt : TypedScope → Option Ty → Expr → TypedScope → Use → Prop
  | itself {place : TypedScope} {expected? : Option Ty} {e : Expr} {use : Use}
      (hUse : e.use? = some use) : UsesAt place expected? e place use
  | inside {place inner : TypedScope} {expected? : Option Ty} {e part : Expr}
      {parameters : List (String × Option Ty)} {typed : List (String × Ty)} {use : Use}
      (hPart : (parameters, part) ∈ e.parts)
      (hTyped : typedParameters? (e.expectedParameters expected?) parameters = some typed)
      (hUses : UsesAt (place.enter .lambdaParameter typed) none part inner use) :
      UsesAt place expected? e inner use

/-! ## Statements and what stands behind them -/

/-- The table of functions that have been declared one after the other. -/
def tableOf (functions : List FunctionDecl) : SignatureTable :=
  ⟨functions.map fun f => (f.signature, f)⟩

/-- What is known behind a statement: a declaration has put its name in front. -/
inductive Stmt.Leads (table : SignatureTable) (place : TypedScope) : Stmt → TypedScope → Prop
  | declared {name : String} {ty : Ty} {readOnly : Bool} :
      Leads table place (.declare name (some ty) readOnly)
        ((⟨name, .declaration readOnly⟩, ty) :: place)
  | annotated {name : String} {value : Expr} {ty : Ty} {readOnly : Bool} :
      Leads table place (.assign name value (some ty) true readOnly)
        ((⟨name, .declaration readOnly⟩, ty) :: place)
  /-- A declaration without a type takes the type of its value. -/
  | inferred {name : String} {value : Expr} {ty : Ty} {readOnly : Bool}
      (hTy : HasType table place.env value ty) :
      Leads table place (.assign name value none true readOnly)
        ((⟨name, .declaration readOnly⟩, ty) :: place)
  | other {s : Stmt} (hNone : s.introduction? = none) : Leads table place s place

/-- What is known behind some statements, where `functions` have been declared in
front of the first. -/
inductive TypedScope.Behind : List FunctionDecl → TypedScope → List Stmt → TypedScope → Prop
  | nil {functions : List FunctionDecl} {place : TypedScope} : Behind functions place [] place
  | cons {functions : List FunctionDecl} {place next last : TypedScope} {s : Stmt}
      {rest : List Stmt} (hFirst : s.Leads (tableOf functions) place next)
      (hRest : Behind (functions ++ s.declaration?.toList) next rest last) :
      Behind functions place (s :: rest) last

/-- The block inside of a statement, with what is known in front of its first member:
the typed scope, and the result type of the function around. -/
inductive Stmt.Encloses (table : SignatureTable) (place : TypedScope) (result? : Option Ty) :
    Stmt → TypedScope → Option Ty → Block → Prop
  | forIn {name : String} {source : Expr} {ty element : Ty} {body : Block}
      (hSource : HasType table place.env source ty) (hElement : ty.element? = some element) :
      Encloses table place result? (.forIn name source body)
        ((⟨name, .loopVariable⟩, element) :: place) result? body
  | whileLoop {condition : Expr} {body : Block} :
      Encloses table place result? (.whileLoop condition body) place result? body
  | block {body : Block} : Encloses table place result? (.block body) place result? body
  | function {name : String} {parameters : List (String × Ty)} {result : Ty} {body : Block} :
      Encloses table place result? (.function name parameters result body)
        (place.enter .functionParameter parameters) (some result) body

/-- The type that a statement expects of its value. -/
def Stmt.expected? (env : Environment) (result? : Option Ty) : Stmt → Option Ty
  | .assign _ _ ty? true _ => ty?
  | .assign name _ _ false _ => (env.get? name).map Binding.ty
  | .returns _ => result?
  | _ => none

/-- At `place`, inside of a function with the result type if there is one, the
statement makes a use of a name; the use stands at `inner`. -/
inductive Stmt.UsesAt (functions : List FunctionDecl) :
    TypedScope → Option Ty → Stmt → TypedScope → Use → Prop
  | target {place : TypedScope} {result? : Option Ty} {s : Stmt} {use : Use}
      (hTarget : s.target? = some use) : UsesAt functions place result? s place use
  | value {place inner : TypedScope} {result? : Option Ty} {s : Stmt} {e : Expr} {use : Use}
      (hValue : e ∈ s.values)
      (hUses : e.UsesAt place (s.expected? place.env result?) inner use) :
      UsesAt functions place result? s inner use
  | body {place inside mid inner : TypedScope} {result? within? : Option Ty} {s member : Stmt}
      {before after : List Stmt} {use : Use}
      (hBody : s.Encloses (tableOf functions) place result? inside within?
        (before ++ member :: after))
      (hBehind : TypedScope.Behind functions inside before mid)
      (hUses : UsesAt functions mid within? member inner use) :
      UsesAt functions place result? s inner use

/-! ## What is determined -/

variable {table : SignatureTable} {functions : List FunctionDecl} {result? within? : Option Ty}
  {s : Stmt} {before : List Stmt} {inside : TypedScope} {body : Block}

theorem Stmt.Leads.unique (h : s.Leads table place next) (h' : s.Leads table place place') :
    next = place' := by
  cases h with
  | declared | annotated =>
      cases h' with
      | other hNone => cases hNone
      | _ => rfl
  | inferred hTy =>
      cases h' with
      | inferred hTy' => rw [hTy.unique hTy']
      | other hNone => cases hNone
  | other hNone =>
      cases h' with
      | other _ => rfl
      | _ => cases hNone

theorem Stmt.Leads.scope (h : s.Leads table place next) :
    next.scope = place.scope.enter (s.introduction?.toList.map Introduction.binder) := by
  cases h with
  | other hNone =>
      rw [hNone]
      rfl
  | _ => rfl

theorem TypedScope.Behind.unique (h : Behind functions place before next)
    (h' : Behind functions place before place') : next = place' := by
  induction h with
  | nil =>
      cases h'
      rfl
  | cons hFirst _ ih =>
      cases h' with
      | cons hFirst' hRest' =>
          obtain rfl := hFirst.unique hFirst'
          exact ih hRest'

theorem TypedScope.Behind.scope (h : Behind functions place before next) :
    next.scope = place.scope.behind before := by
  induction h with
  | nil => rfl
  | cons hFirst _ ih => rw [ih, hFirst.scope, Scope.behind_cons]

theorem Stmt.Encloses.unique {other : TypedScope} {other? : Option Ty} {body' : Block}
    (h : s.Encloses table place result? inside within? body)
    (h' : s.Encloses table place result? other other? body') :
    inside = other ∧ within? = other? ∧ body = body' := by
  cases h with
  | forIn hSource hElement =>
      cases h' with
      | forIn hSource' hElement' =>
          obtain rfl := hSource.unique hSource'
          obtain rfl := Option.some.inj (hElement.symm.trans hElement')
          exact ⟨rfl, rfl, rfl⟩
  | whileLoop | block | function =>
      cases h'
      exact ⟨rfl, rfl, rfl⟩

/-- The block is the one inside of the statement, under the binders there. -/
theorem Stmt.Encloses.body? (h : s.Encloses table place result? inside within? body) :
    ∃ binders, s.body? = some (binders, body) ∧ inside.scope = place.scope.enter binders := by
  cases h with
  | forIn | whileLoop | block => exact ⟨_, rfl, rfl⟩
  | function => exact ⟨_, rfl, TypedScope.scope_enter⟩

end ScriptLang
