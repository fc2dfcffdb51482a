import ScriptLang.Diagnostic.TypeError
import ScriptLang.Syntax.Stmt

/-!
# Signature tables

The functions declared so far, in declaration order, each known by its
signature. A table never declares one signature twice.
-/

namespace ScriptLang

/-- The name and the parameter types that identify a function. -/
def FunctionDecl.signature (f : FunctionDecl) : Signature :=
  ⟨f.name, f.parameters.map Prod.snd⟩

/-- Declared functions in declaration order, each under its key. -/
structure SignatureTable where
  entries : List (Signature × FunctionDecl)
  deriving DecidableEq

namespace SignatureTable

/-- The table without functions. -/
def empty : SignatureTable := ⟨[]⟩

/-- The function declared under a signature. -/
def get? (table : SignatureTable) (signature : Signature) : Option FunctionDecl :=
  (table.entries.find? (·.1 == signature)).map Prod.snd

def contains (table : SignatureTable) (signature : Signature) : Bool :=
  (table.get? signature).isSome

/-- Adds a function behind the others under its signature, unless that is taken. -/
def declare (table : SignatureTable) (f : FunctionDecl) : Except TypeError SignatureTable :=
  if table.contains f.signature then .error (.functionDeclared f.signature)
  else .ok ⟨table.entries ++ [(f.signature, f)]⟩

/-- The declared functions in declaration order. -/
def functions (table : SignatureTable) : List FunctionDecl := table.entries.map Prod.snd

/-- The keys in declaration order. -/
def signatures (table : SignatureTable) : List Signature := table.entries.map Prod.fst

def size (table : SignatureTable) : Nat := table.entries.length

def isEmpty (table : SignatureTable) : Bool := table.entries.isEmpty

theorem contains_iff (table : SignatureTable) (signature : Signature) :
    table.contains signature = true ↔ signature ∈ table.signatures := by
  simp [contains, get?, signatures]

/-- A declaration succeeds exactly when its signature is free, and then the
function stands behind the others. -/
theorem declare_eq_ok_iff (table table' : SignatureTable) (f : FunctionDecl) :
    table.declare f = .ok table' ↔
      f.signature ∉ table.signatures ∧ table' = ⟨table.entries ++ [(f.signature, f)]⟩ := by
  rw [← contains_iff]
  by_cases h : table.contains f.signature = true
  · simp [declare, h]
  · simp [declare, h, eq_comm]

end SignatureTable

end ScriptLang
