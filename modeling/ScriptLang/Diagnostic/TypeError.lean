import ScriptLang.Syntax.Operator
import ScriptLang.Syntax.Ty
import ScriptLang.Text.Quoted

/-!
# Errors of type checking

The causes for which a well-formed tree is refused, each with a name and a
message. A `Signature`, the identity of a function, stands here because two of
the causes mention one.
-/

namespace ScriptLang

/-- The identity of a function: its name and the types of its parameters in
order. Two functions of one name with different parameter types are distinct. -/
structure Signature where
  name : String
  parameters : List Ty
  deriving DecidableEq

/-- A signature as it is shown, for instance `f(Int, String)`. -/
def Signature.spelling (s : Signature) : String :=
  s.name ++ "(" ++ Ty.spellings s.parameters ++ ")"

/-- Why a tree does not type check. -/
inductive TypeError
  | binaryOperator (operator : String) (left right : Ty)
  | unaryOperator (operator : String) (operand : Ty)
  | notInScope (name : String)
  | alreadyDeclared (name : String)
  | explicitTypeNeeded (name : String)
  | readOnly (name : String)
  | undefinedVariable (name : String)
  | mismatch (expected received : Ty)
  | notACollection (received : Ty)
  | unsupportedElement (received : Ty)
  | initializerArity (constructor : String) (received : Nat)
  | initializerParameter (constructor : String) (received : Ty)
  | emptyLiteral (constructor : String)
  | unresolvedParameter (parameter : String)
  | duplicateParameter (parameter : String)
  | missingElse
  | functionUndefined (signature : Signature)
  | functionDeclared (signature : Signature)
  | nestedFunction (name : String)
  | controlOutsideLoop (control : LoopControl)
  | returnOutsideFunction
  | returnMismatch (expected received : Ty)
  | nonBasicOutput (received : Ty)
  deriving DecidableEq

namespace TypeError

def name : TypeError → String
  | .binaryOperator .. => "BinaryOperatorMismatch"
  | .unaryOperator .. => "UnaryOperatorMismatch"
  | .notInScope _ => "NotInScope"
  | .alreadyDeclared _ => "VariableAlreadyDeclared"
  | .explicitTypeNeeded _ => "ExpectedExplicitType"
  | .readOnly _ => "ReadOnlyVariable"
  | .undefinedVariable _ => "UndefinedVariable"
  | .mismatch .. => "TypeMatchError"
  | .notACollection _ => "NotACollection"
  | .unsupportedElement _ => "UnsupportedElementType"
  | .initializerArity .. => "InitializerArity"
  | .initializerParameter .. => "InitializerParameterType"
  | .emptyLiteral _ => "EmptyCollectionLiteral"
  | .unresolvedParameter _ => "UnresolvedLambdaParameter"
  | .duplicateParameter _ => "DuplicateParameter"
  | .missingElse => "MissingElseBranch"
  | .functionUndefined _ => "FunctionUndefined"
  | .functionDeclared _ => "FunctionAlreadyDeclared"
  | .nestedFunction _ => "NestedFunctionDeclaration"
  | .controlOutsideLoop _ => "LoopControlOutsideLoop"
  | .returnOutsideFunction => "ReturnOutsideFunction"
  | .returnMismatch .. => "ReturnTypeMismatch"
  | .nonBasicOutput _ => "NonBasicPrint"

/-- The message of an error. Names of variables and parameters are quoted;
operators, constructors, types and signatures are inserted as they are. -/
def message : TypeError → String
  | .binaryOperator operator left right =>
    "operator " ++ operator ++ " cannot be applied to " ++ left.spelling ++ " and "
      ++ right.spelling
  | .unaryOperator operator operand =>
    "operator " ++ operator ++ " cannot be applied to " ++ operand.spelling
  | .notInScope name => "variable " ++ Text.quoted name ++ " not in scope"
  | .alreadyDeclared name => "variable " ++ Text.quoted name ++ " already declared"
  | .explicitTypeNeeded name =>
    "variable " ++ Text.quoted name
      ++ " needs an explicit type when declared without a value"
  | .readOnly name => "variable " ++ Text.quoted name ++ " is read-only"
  | .undefinedVariable name =>
    "variable " ++ Text.quoted name ++ " assigned before being declared"
  | .mismatch expected received =>
    "types do not match: expected " ++ expected.spelling ++ ", received "
      ++ received.spelling
  | .notACollection received => "cannot iterate over " ++ received.spelling
  | .unsupportedElement received => "collections cannot hold " ++ received.spelling
  | .initializerArity constructor received =>
    constructor ++ " initializer takes exactly one parameter, received "
      ++ toString received
  | .initializerParameter constructor received =>
    constructor ++ " initializer parameter must be Int, received " ++ received.spelling
  | .emptyLiteral constructor => constructor ++ " needs at least one element"
  | .unresolvedParameter parameter =>
    "cannot infer the type of lambda parameter " ++ Text.quoted parameter
  | .duplicateParameter parameter =>
    "parameter " ++ Text.quoted parameter ++ " declared twice"
  | .missingElse => "if expression has no else branch"
  | .functionUndefined signature => "function " ++ signature.spelling ++ " undefined"
  | .functionDeclared signature => "function " ++ signature.spelling ++ " already declared"
  | .nestedFunction name =>
    "function " ++ Text.quoted name ++ " declared inside a block"
  | .controlOutsideLoop control => control.spelling ++ " outside of a loop"
  | .returnOutsideFunction => "return outside of a function"
  | .returnMismatch expected received =>
    "return types do not match: expected " ++ expected.spelling ++ ", received "
      ++ received.spelling
  | .nonBasicOutput received => "cannot print a value of type " ++ received.spelling

end TypeError

end ScriptLang
