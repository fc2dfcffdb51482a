import ScriptLang.Typing.SignatureTable

/-!
# Sessions

What outlives the check of a single statement: the functions declared so far,
and the result types of the functions whose bodies are being checked. A
`Checker` reads and changes a session; what it changed before it failed stays
changed.
-/

namespace ScriptLang

/-- One run of the type checker. -/
structure Session where
  functions : SignatureTable
  /-- The result types of the functions being checked, innermost first. -/
  results : List Ty
  deriving DecidableEq

/-- The session in which nothing is declared. -/
def Session.empty : Session := ⟨.empty, []⟩

/-- A computation in a session. -/
abbrev Checker (α : Type) := EStateM TypeError Session α

namespace Checker

variable {α : Type}

/-- The outcome of a checker in a session, without the session it leaves. -/
def eval (p : Checker α) (session : Session) : Except TypeError α :=
  match p session with
  | .ok a _ => .ok a
  | .error e _ => .error e

/-- Fails or succeeds as a computation outside any session does. -/
def ofExcept : Except TypeError α → Checker α
  | .ok a => fun session => .ok a session
  | .error e => fun session => .error e session

/-- Infers from the functions declared so far. -/
def infer (f : SignatureTable → Except TypeError α) : Checker α := fun session =>
  ofExcept (f session.functions) session

/-- The result type that a `return` must give, if there is one. -/
def expectedResult (returnOk : Bool) : Checker Ty := fun session =>
  match returnOk, session.results with
  | true, result :: _ => .ok result session
  | _, _ => .error .returnOutsideFunction session

/-- Runs a checker inside a function of the given result type. The result types
are the same again afterwards, also if it fails. -/
def within (result : Ty) (p : Checker α) : Checker α := fun session =>
  match p { session with results := result :: session.results } with
  | .ok a after => .ok a { after with results := after.results.tail }
  | .error e after => .error e { after with results := after.results.tail }

/-- Declares a function. -/
def declareFunction (f : FunctionDecl) : Checker Unit := fun session =>
  match session.functions.declare f with
  | .ok table => .ok () { session with functions := table }
  | .error e => .error e session

end Checker

end ScriptLang
