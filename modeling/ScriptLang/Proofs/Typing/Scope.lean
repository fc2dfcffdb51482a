import ScriptLang.Proofs.Typing.Growth

/-!
# Scopes

Which binder a name means at a place of a program, read off the syntax alone.
A `Scope` lists the binders in force, the innermost first, and each binder says
where it comes from. `Expr.Uses` and `Stmt.Uses` walk over an expression and a
statement and give every use of a name together with the scope at its place;
no type and no environment takes part.

The walk leaves out what checking leaves out: conditional statements, steps that
stand as statements of their own, and the index into a collection.
-/

namespace ScriptLang

/-! ## Binders -/

/-- What brings a name into scope. -/
inductive Origin
  /-- An earlier declaration of the same block, or of one around it. -/
  | declaration (readOnly : Bool)
  | loopVariable
  | functionParameter
  /-- A parameter of a lambda or of an initializer. -/
  | lambdaParameter
  deriving DecidableEq

/-- Whether what is bound this way may only be read. -/
def Origin.readOnly : Origin → Bool
  | .declaration readOnly => readOnly
  | .functionParameter => true
  | .loopVariable | .lambdaParameter => false

structure Binder where
  name : String
  origin : Origin
  deriving DecidableEq

/-- The binders in force at a place, the innermost first. -/
abbrev Scope := List Binder

/-- The binder that an introduction puts into scope. -/
def Introduction.binder (i : Introduction) : Binder := ⟨i.name, .declaration i.readOnly⟩

namespace Scope

/-- The scope inside of further binders, the last of which is the innermost. -/
def enter (scope : Scope) (binders : List Binder) : Scope := binders.reverse ++ scope

/-- The scope behind some statements of a block. -/
def behind (scope : Scope) (before : List Stmt) : Scope :=
  scope.enter ((introductions before).map Introduction.binder)

/-- The binder that a name means: the innermost one of the name. -/
def lookup? (scope : Scope) (name : String) : Option Binder := scope.find? (·.name == name)

theorem behind_cons (scope : Scope) (s : Stmt) (rest : List Stmt) :
    scope.behind (s :: rest) =
      (scope.enter (s.introduction?.toList.map Introduction.binder)).behind rest := by
  simp [behind, enter, introductions_cons]

end Scope

/-! ## Uses of names -/

/-- How a variable is used. -/
inductive Access
  /-- Its value is read, or it is indexed. -/
  | read
  /-- It is stepped by `++` or `--` inside of an expression. -/
  | step
  | assign
  | compound
  deriving DecidableEq

/-- A use of a name. -/
inductive Use
  | var (access : Access) (name : String)
  | call (callee : String) (arguments : List Expr)

namespace Expr

/-- The use that an expression itself makes of a name. -/
def use? : Expr → Option Use
  | .var name => some (.var .read name)
  | .step name _ _ => some (.var .step name)
  | .call callee arguments => some (.call callee arguments)
  | .index name _ => some (.var .read name)
  | _ => none

/-- The expressions directly inside of one, each with the parameters that it stands
under. The index into a collection is not among them. -/
def parts : Expr → List (List (String × Option Ty) × Expr)
  | .text _ splices => splices.map fun splice => ([], splice.2)
  | .binary left _ right => [([], left), ([], right)]
  | .not operand => [([], operand)]
  | .ifThen condition thenBranch => [([], condition), ([], thenBranch)]
  | .ifElse condition thenBranch elseBranch =>
    [([], condition), ([], thenBranch), ([], elseBranch)]
  | .range first last => [([], first), ([], last)]
  | .generate _ size parameters body => [([], size), (parameters, body)]
  | .literal _ items => items.map fun item => ([], item)
  | .lambda parameters body => [(parameters, body)]
  | .call _ arguments => arguments.map fun argument => ([], argument)
  | _ => []

/-- In `scope` the expression makes a use of a name, at a place whose own scope
is `place`. -/
inductive Uses : Scope → Expr → Scope → Use → Prop
  | itself {scope : Scope} {e : Expr} {use : Use} (hUse : e.use? = some use) :
      Uses scope e scope use
  | inside {scope place : Scope} {e part : Expr} {parameters : List (String × Option Ty)}
      {use : Use} (hPart : (parameters, part) ∈ e.parts)
      (hUses : Uses (scope.enter (parameters.map fun parameter => ⟨parameter.1, .lambdaParameter⟩))
        part place use) : Uses scope e place use

end Expr

namespace Stmt

/-- The variable that a statement assigns to. -/
def target? : Stmt → Option Use
  | .assign name _ _ false _ => some (.var .assign name)
  | .compound name _ _ => some (.var .compound name)
  | _ => none

/-- The expressions of a statement that stand in the scope of the statement. A
call that stands as a statement is the call as an expression. -/
def values : Stmt → List Expr
  | .assign _ value _ _ _ => [value]
  | .compound _ _ value => [value]
  | .forIn _ source _ => [source]
  | .whileLoop condition _ => [condition]
  | .returns value => [value]
  | .call callee arguments => [.call callee arguments]
  | .output _ value => [value]
  | _ => []

/-- The block inside of a statement, with the binders that it stands under. The
blocks of conditional statements are left out. -/
def body? : Stmt → Option (List Binder × Block)
  | .forIn name _ body => some ([⟨name, .loopVariable⟩], body)
  | .whileLoop _ body => some ([], body)
  | .block body => some ([], body)
  | .function _ parameters _ body =>
    some (parameters.map fun parameter => ⟨parameter.1, .functionParameter⟩, body)
  | _ => none

/-- In `scope` the statement makes a use of a name, at a place whose own scope
is `place`. A member of a block stands behind the members before it. -/
inductive Uses : Scope → Stmt → Scope → Use → Prop
  | target {scope : Scope} {s : Stmt} {use : Use} (hTarget : s.target? = some use) :
      Uses scope s scope use
  | value {scope place : Scope} {s : Stmt} {e : Expr} {use : Use} (hValue : e ∈ s.values)
      (hUses : e.Uses scope place use) : Uses scope s place use
  | body {scope place : Scope} {s member : Stmt} {binders : List Binder}
      {before after : List Stmt} {use : Use}
      (hBody : s.body? = some (binders, before ++ member :: after))
      (hUses : Uses ((scope.enter binders).behind before) member place use) :
      Uses scope s place use

end Stmt

end ScriptLang
