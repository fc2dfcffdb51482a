import ScriptLang.Typing.Inference
import ScriptLang.Typing.Session

/-!
# Checking statements

`checkStmt` checks one statement and gives the environment that follows it;
`checkBlock` and `checkProgram` run through statements in order. Two flags say
whether a loop may be left and whether a function may return at this point.

Three places are not looked at: the two branches and the condition of a
conditional statement, a step that stands as a statement of its own, and the
index into a collection.

A function can be declared at the top level of a program only, and is known to
the statements behind its declaration, so it calls neither itself nor a later
function.
-/

namespace ScriptLang

/-- Whether a compound assignment may combine a variable with a value. -/
def compoundAllowed : CompoundOp → (target value : Ty) → Bool
  | _, .basic .int, .basic .int => true
  | .plus, .basic .string, .basic .int => true
  | .plus, .basic .string, .basic .string => true
  | _, _, _ => false

/-- Binds the parameters of a function as read-only variables; `seen` holds the
names of the parameters before. -/
def bindFunctionParameters (env : Environment) (seen : List String) :
    List (String × Ty) → Except TypeError Environment
  | [] => .ok env
  | (name, ty) :: rest =>
    if name ∈ seen then .error (.duplicateParameter name)
    else bindFunctionParameters (env.bind name ty true) (name :: seen) rest

/-- The type of the elements that a loop runs over. -/
def iterated (source : Ty) : Except TypeError Ty :=
  match source.element? with
  | some element => .ok element
  | none => .error (.notACollection source)

/-- The environment behind a declaration without a value. -/
def checkDeclaration (env : Environment) (name : String) (ty? : Option Ty) (readOnly : Bool) :
    Except TypeError Environment :=
  match ty? with
  | some ty => env.declare name ty readOnly
  | none => .error (.explicitTypeNeeded name)

/-- The environment behind a declaration with a value. -/
def checkInitialized (table : SignatureTable) (env : Environment) (name : String)
    (value : Expr) (ty? : Option Ty) (readOnly : Bool) : Except TypeError Environment :=
  if env.contains name then .error (.alreadyDeclared name)
  else do
    let valueType ← typeOfExpected table env value ty?
    match ty? with
    | some ty => expectType ty valueType
    | none => pure ()
    return env.bind name valueType readOnly

/-- Checks an assignment to a variable that is already in scope. -/
def checkAssignment (table : SignatureTable) (env : Environment) (name : String)
    (value : Expr) : Except TypeError Unit := do
  let binding ← env.writable name
  let valueType ← typeOfExpected table env value (some binding.ty)
  expectType binding.ty valueType

/-- Checks a compound assignment. -/
def checkCompound (table : SignatureTable) (env : Environment) (name : String)
    (op : CompoundOp) (value : Expr) : Except TypeError Unit := do
  let binding ← env.writable name
  let valueType ← typeOf table env value
  if compoundAllowed op binding.ty valueType then pure ()
  else throw (.binaryOperator op.spelling binding.ty valueType)

/-- Checks the value that a function returns. -/
def checkReturn (table : SignatureTable) (env : Environment) (value : Expr) (expected : Ty) :
    Except TypeError Unit := do
  let received ← typeOfExpected table env value (some expected)
  if received = expected then pure ()
  else throw (.returnMismatch expected received)

/-- Checks a value that is written out. -/
def checkOutput (table : SignatureTable) (env : Environment) (value : Expr) :
    Except TypeError Unit := do
  let received ← typeOf table env value
  if received.isBasic then pure () else throw (.nonBasicOutput received)

/-- Fails if the signature of a function is taken. -/
def expectUndeclared (signature : Signature) (table : SignatureTable) : Except TypeError Unit :=
  if table.contains signature then .error (.functionDeclared signature) else .ok ()

mutual

/-- Checks a statement and gives the environment behind it. -/
def checkStmt (env : Environment) (loopOk returnOk : Bool) : Stmt → Checker Environment
  | .declare name ty? readOnly => .ofExcept (checkDeclaration env name ty? readOnly)
  | .assign name value ty? true readOnly =>
    .infer fun table => checkInitialized table env name value ty? readOnly
  | .assign name value _ false _ => do
    Checker.infer fun table => checkAssignment table env name value
    return env
  | .compound name op value => do
    Checker.infer fun table => checkCompound table env name op value
    return env
  | .ifThen _ _ => return env
  | .ifElse _ _ _ => return env
  | .forIn name source body => do
    let sourceType ← Checker.infer fun table => typeOf table env source
    let element ← Checker.ofExcept (iterated sourceType)
    let _ ← checkBlock (env.bind name element false) true returnOk body
    return env
  | .whileLoop condition body => do
    let conditionType ← Checker.infer fun table => typeOf table env condition
    Checker.ofExcept (expectType .boolean conditionType)
    let _ ← checkBlock env true returnOk body
    return env
  | .block body => do
    let _ ← checkBlock env loopOk returnOk body
    return env
  | .control control =>
    if loopOk then return env else throw (.controlOutsideLoop control)
  | .function name parameters result body => do
    Checker.infer (expectUndeclared (FunctionDecl.signature ⟨name, parameters, result, body⟩))
    let inner ← Checker.ofExcept (bindFunctionParameters env [] parameters)
    let _ ← Checker.within result (checkBlock inner false true body)
    Checker.declareFunction ⟨name, parameters, result, body⟩
    return env
  | .returns value => do
    let expected ← Checker.expectedResult returnOk
    Checker.infer fun table => checkReturn table env value expected
    return env
  | .call callee arguments => do
    let _ ← Checker.infer fun table => typeOfCall table env callee arguments
    return env
  | .step _ _ _ => return env
  | .output _ value => do
    Checker.infer fun table => checkOutput table env value
    return env

/-- Checks the statements of a block in order and gives the environment behind
the last. A function declaration is refused. -/
def checkBlock (env : Environment) (loopOk returnOk : Bool) : List Stmt → Checker Environment
  | [] => return env
  | .function name _ _ _ :: _ => throw (.nestedFunction name)
  | stmt :: rest => do
    let env ← checkStmt env loopOk returnOk stmt
    checkBlock env loopOk returnOk rest

end

/-- Checks top-level statements in order. -/
def checkTopLevel (env : Environment) (program : Program) : Checker Environment :=
  program.foldlM (fun env stmt => checkStmt env false false stmt) env

/-- Checks a program from the empty environment on. -/
def checkProgram (program : Program) : Checker Environment := checkTopLevel .empty program

/-- The environment behind a program that is checked in a session of its own. -/
def typeCheck (program : Program) : Except TypeError Environment :=
  (checkProgram program).eval .empty

end ScriptLang
