import ScriptLang.Typing.Environment
import ScriptLang.Typing.SignatureTable

/-!
# Types of expressions

`typeOf` infers the type of an expression from the functions declared so far
and the variables in scope. It changes neither: lambdas and initializers have
their bodies checked in an extended environment of their own.

Where a function type is expected of a lambda, `typeOfExpected` lets it fill in
the parameter types that the lambda leaves open.
-/

namespace ScriptLang

/-! ## Operators -/

/-- The type of an arithmetic expression: integers give an integer, and a text
can be added to on its right by a text or an integer. -/
def arithmeticType : ArithmeticOp → Ty → Ty → Option Ty
  | _, .basic .int, .basic .int => some .int
  | .plus, .basic .string, .basic .int => some .string
  | .plus, .basic .string, .basic .string => some .string
  | _, _, _ => none

/-- The type of a binary expression by the types of its operands. -/
def binaryType : BinaryOp → Ty → Ty → Option Ty
  | .arithmetic op, left, right => arithmeticType op left right
  | .comparison _, left, right =>
    if left = .int ∧ right = .int then some .boolean else none
  | .logical _, left, right =>
    if left = .boolean ∧ right = .boolean then some .boolean else none

/-- The result of an operator on two operands, or the error that names them. -/
def applyOperator (operator : String) (left right : Ty) : Option Ty → Except TypeError Ty
  | some ty => .ok ty
  | none => .error (.binaryOperator operator left right)

/-- The result of an operator that takes and gives one type. -/
def expectOperand (operator : String) (expected operand : Ty) : Except TypeError Ty :=
  if operand = expected then .ok expected else .error (.unaryOperator operator operand)

/-! ## Premises of rules -/

/-- Fails unless the received type is the expected one. -/
def expectType (expected received : Ty) : Except TypeError Unit :=
  if received = expected then .ok () else .error (.mismatch expected received)

/-- The basic type that a collection is to hold. -/
def expectBasic : Ty → Except TypeError Basic
  | .basic kind => .ok kind
  | other => .error (.unsupportedElement other)

/-- The type of a variable. -/
def typeOfVariable (env : Environment) (name : String) : Except TypeError Ty :=
  match env.get? name with
  | some binding => .ok binding.ty
  | none => .error (.notInScope name)

/-- The one parameter of an initializer. It counts elements, so its type, if it
is given, is the integers. -/
def initializerParameter (constructor : String) :
    List (String × Option Ty) → Except TypeError String
  | [(name, none)] => .ok name
  | [(name, some ty)] =>
    if ty = .int then .ok name else .error (.initializerParameter constructor ty)
  | parameters => .error (.initializerArity constructor parameters.length)

/-- The type of the elements of a collection written out: the one they share,
or `Any` when they differ. -/
def elementType (constructor : String) : List Basic → Except TypeError Basic
  | [] => .error (.emptyLiteral constructor)
  | first :: rest => .ok (if rest.all (· == first) then first else .any)

/-- Binds the parameters of a lambda as writable variables and lists their
types. A parameter without a type takes the expected type at its place; `seen`
holds the names of the parameters before. -/
def bindParameters (env : Environment) (seen : List String) (expected : List Ty) :
    List (String × Option Ty) → Except TypeError (List Ty × Environment)
  | [] => .ok ([], env)
  | (name, declared?) :: rest =>
    if name ∈ seen then .error (.duplicateParameter name)
    else
      match declared? <|> expected.head? with
      | none => .error (.unresolvedParameter name)
      | some ty => do
        let (types, inner) ←
          bindParameters (env.bind name ty false) (name :: seen) expected.tail rest
        return (ty :: types, inner)

/-- The result of a call: a function declared under exactly this signature
comes first, then a variable of the name that holds a function. The parameter
types of such a variable are not compared with the arguments. -/
def resolveCall (table : SignatureTable) (env : Environment) (signature : Signature) :
    Except TypeError Ty :=
  match table.get? signature with
  | some f => .ok f.result
  | none =>
    match env.get? signature.name with
    | some ⟨.function _ result, _⟩ => .ok result
    | _ => .error (.functionUndefined signature)

/-! ## Inference -/

mutual

/-- The type of an expression. The index into a collection is not looked at, and
an indexed variable has the type of the variable. -/
def typeOf (table : SignatureTable) : Environment → Expr → Except TypeError Ty
  | _, .int _ => .ok .int
  | _, .boolean _ => .ok .boolean
  | env, .text _ splices => do
    checkSplices table env splices
    return .string
  | env, .var name => typeOfVariable env name
  | env, .binary left op right => do
    let leftType ← typeOf table env left
    let rightType ← typeOf table env right
    applyOperator op.spelling leftType rightType (binaryType op leftType rightType)
  | env, .not operand => do
    let operandType ← typeOf table env operand
    expectOperand "!" .boolean operandType
  | env, .step name op _ => do
    let operandType ← typeOfVariable env name
    expectOperand op.spelling .int operandType
  | env, .ifThen condition _ => do
    let conditionType ← typeOf table env condition
    expectType .boolean conditionType
    throw .missingElse
  | env, .ifElse condition thenBranch elseBranch => do
    let conditionType ← typeOf table env condition
    expectType .boolean conditionType
    let thenType ← typeOf table env thenBranch
    let elseType ← typeOf table env elseBranch
    expectType thenType elseType
    return thenType
  | env, .range first last => do
    let firstType ← typeOf table env first
    let lastType ← typeOf table env last
    applyOperator ".." firstType lastType
      (if firstType = .int ∧ lastType = .int then some (.collection .array .int) else none)
  | env, .generate kind size parameters body => do
    let sizeType ← typeOf table env size
    expectType .int sizeType
    let name ← initializerParameter kind.spelling parameters
    let bodyType ← typeOf table (env.bind name .int false) body
    let element ← expectBasic bodyType
    return .collection kind element
  | env, .literal kind items => do
    let elements ← elementsOf table env items
    let element ← elementType kind.literalSpelling elements
    return .collection kind element
  | env, .lambda parameters body => do
    let (types, inner) ← bindParameters env [] [] parameters
    let result ← typeOf table inner body
    return .function types result
  | env, .call callee arguments => do
    let types ← typesOf table env arguments
    resolveCall table env ⟨callee, types⟩
  | env, .index name _ => typeOfVariable env name

/-- The types of expressions, from left to right. -/
def typesOf (table : SignatureTable) : Environment → List Expr → Except TypeError (List Ty)
  | _, [] => .ok []
  | env, e :: rest => do
    let ty ← typeOf table env e
    let types ← typesOf table env rest
    return ty :: types

/-- The basic types of the elements of a collection, from left to right. -/
def elementsOf (table : SignatureTable) : Environment → List Expr → Except TypeError (List Basic)
  | _, [] => .ok []
  | env, e :: rest => do
    let ty ← typeOf table env e
    let element ← expectBasic ty
    let elements ← elementsOf table env rest
    return element :: elements

/-- Fails unless every splice has a type. -/
def checkSplices (table : SignatureTable) :
    Environment → List (Nat × Expr) → Except TypeError Unit
  | _, [] => .ok ()
  | env, (_, e) :: rest => do
    let _ ← typeOf table env e
    checkSplices table env rest

end

/-- The type of a lambda, with the expected types of its first parameters as
far as they are known. -/
def typeOfLambda (table : SignatureTable) (env : Environment) (fn : Lambda)
    (expected : List Ty) : Except TypeError Ty := do
  let (types, inner) ← bindParameters env [] expected fn.parameters
  let result ← typeOf table inner fn.body
  return .function types result

/-- The type of a call. -/
def typeOfCall (table : SignatureTable) (env : Environment) (callee : String)
    (arguments : List Expr) : Except TypeError Ty := do
  let types ← typesOf table env arguments
  resolveCall table env ⟨callee, types⟩

/-- The type of an expression of which a type may be expected. Only a lambda of
which a function type is expected makes use of that. -/
def typeOfExpected (table : SignatureTable) (env : Environment) (e : Expr) (expected? : Option Ty) :
    Except TypeError Ty :=
  match e, expected? with
  | .lambda parameters body, some (.function types _) =>
    typeOfLambda table env ⟨parameters, body⟩ types
  | _, _ => typeOf table env e

end ScriptLang
