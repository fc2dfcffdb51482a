import Std.Data.ExtTreeMap
import ScriptLang.Diagnostic.TypeError

/-!
# Environments

The variables in scope at some point of a program. An environment is a value:
every operation yields a new one. Two environments are equal exactly when they
bind the same names in the same way (`Environment.ext`), whatever the order in
which the names were bound; `Environment.get?` is the view through which all
operations are described.
-/

namespace ScriptLang

/-- What is known of a variable. -/
structure Binding where
  ty : Ty
  readOnly : Bool
  deriving DecidableEq

/-- The variables in scope, by name. -/
structure Environment where
  bindings : Std.ExtTreeMap String Binding

namespace Environment

/-- The environment without variables. -/
def empty : Environment := ⟨∅⟩

def get? (env : Environment) (name : String) : Option Binding := env.bindings[name]?

def contains (env : Environment) (name : String) : Bool := (env.get? name).isSome

/-- Binds a name, in place of any earlier binding of it. -/
def bind (env : Environment) (name : String) (ty : Ty) (readOnly : Bool) : Environment :=
  ⟨env.bindings.insert name ⟨ty, readOnly⟩⟩

/-- Binds a name that is not bound yet. -/
def declare (env : Environment) (name : String) (ty : Ty) (readOnly : Bool) :
    Except TypeError Environment :=
  if env.contains name then .error (.alreadyDeclared name)
  else .ok (env.bind name ty readOnly)

/-- The binding of a name that is about to be written to. -/
def writable (env : Environment) (name : String) : Except TypeError Binding :=
  match env.get? name with
  | none => .error (.undefinedVariable name)
  | some binding => if binding.readOnly then .error (.readOnly name) else .ok binding

/-- The number of variables in scope. -/
def size (env : Environment) : Nat := env.bindings.size

def isEmpty (env : Environment) : Bool := env.bindings.isEmpty

/-- The bindings in the order of their names. -/
def toList (env : Environment) : List (String × Binding) := env.bindings.toList

/-! ## The view -/

/-- Environments that bind the same names in the same way are equal. -/
theorem ext {env env' : Environment} (h : ∀ name, env.get? name = env'.get? name) :
    env = env' := by
  cases env
  cases env'
  exact congrArg mk (Std.ExtTreeMap.ext_getElem? h)

@[simp] theorem get?_empty (name : String) : empty.get? name = none := by
  simp [empty, get?]

theorem get?_bind (env : Environment) (name : String) (ty : Ty) (readOnly : Bool)
    (other : String) :
    (env.bind name ty readOnly).get? other =
      if name = other then some ⟨ty, readOnly⟩ else env.get? other := by
  simp [bind, get?, Std.ExtTreeMap.getElem?_insert]

theorem contains_iff (env : Environment) (name : String) :
    env.contains name = true ↔ ∃ binding, env.get? name = some binding := by
  simp [contains, Option.isSome_iff_exists]

/-- Equal lists of bindings belong to equal environments. -/
theorem toList_inj {env env' : Environment} : env.toList = env'.toList ↔ env = env' := by
  refine ⟨fun h => ?_, congrArg toList⟩
  cases env
  cases env'
  exact congrArg mk (Std.ExtTreeMap.ext_toList (.of_eq h))

instance : DecidableEq Environment := fun _ _ => decidable_of_iff _ toList_inj

end Environment

end ScriptLang
