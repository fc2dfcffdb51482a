/-!
# Operators

The closed sets of operators and tags that tokens, expressions and statements
share, each with its spelling in source text. Every spelling function is
injective on its set, so a spelling names one operator.
-/

namespace ScriptLang

/-- The arithmetic operators `+ - * / %`. -/
inductive ArithmeticOp
  | plus | minus | multiply | divide | modulo
  deriving DecidableEq

/-- The comparisons `> < >= <= == !=`. -/
inductive ComparisonOp
  | greater | less | greaterEqual | lessEqual | equal | notEqual
  deriving DecidableEq

/-- The logical operators `&&` and `||`. -/
inductive LogicalOp
  | and | or
  deriving DecidableEq

/-- The operators that join two operands into a value of a basic type. -/
inductive BinaryOp
  | arithmetic (op : ArithmeticOp)
  | comparison (op : ComparisonOp)
  | logical (op : LogicalOp)
  deriving DecidableEq

/-- The direction of `++` and `--`. -/
inductive StepOp
  | increase | decrease
  deriving DecidableEq

/-- The compound assignments `+= -= *= /=`. -/
inductive CompoundOp
  | plus | minus | multiply | divide
  deriving DecidableEq

/-- The two ways out of a loop body. -/
inductive LoopControl
  | break | continue
  deriving DecidableEq

/-- The two ways of writing a value out. -/
inductive Output
  | print | println
  deriving DecidableEq

def ArithmeticOp.spelling : ArithmeticOp → String
  | .plus => "+"
  | .minus => "-"
  | .multiply => "*"
  | .divide => "/"
  | .modulo => "%"

def ComparisonOp.spelling : ComparisonOp → String
  | .greater => ">"
  | .less => "<"
  | .greaterEqual => ">="
  | .lessEqual => "<="
  | .equal => "=="
  | .notEqual => "!="

def LogicalOp.spelling : LogicalOp → String
  | .and => "&&"
  | .or => "||"

def BinaryOp.spelling : BinaryOp → String
  | .arithmetic op => op.spelling
  | .comparison op => op.spelling
  | .logical op => op.spelling

def StepOp.spelling : StepOp → String
  | .increase => "++"
  | .decrease => "--"

def CompoundOp.spelling : CompoundOp → String
  | .plus => "+="
  | .minus => "-="
  | .multiply => "*="
  | .divide => "/="

def LoopControl.spelling : LoopControl → String
  | .break => "break"
  | .continue => "continue"

def Output.spelling : Output → String
  | .print => "print"
  | .println => "println"

/-- The arithmetic that a compound assignment performs: `a += e` adds. -/
def CompoundOp.arithmetic : CompoundOp → ArithmeticOp
  | .plus => .plus
  | .minus => .minus
  | .multiply => .multiply
  | .divide => .divide

end ScriptLang
