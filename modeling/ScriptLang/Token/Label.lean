import ScriptLang.Token.Basic

/-!
# Labels of kinds

The name under which a diagnostic mentions a kind it expected, for instance
`Symbol(Comma)` or `Variable`. Distinct kinds have distinct labels.
-/

namespace ScriptLang

def LoopControl.label : LoopControl → String
  | .break => "Break"
  | .continue => "Continue"

def Output.label : Output → String
  | .print => "Print"
  | .println => "Println"

def Keyword.label : Keyword → String
  | .forWord => "For"
  | .inWord => "In"
  | .whileWord => "While"
  | .ifWord => "If"
  | .elseWord => "Else"
  | .returnWord => "Return"
  | .funWord => "Fun"
  | .control c => c.label
  | .declaration true => "Val"
  | .declaration false => "Var"
  | .output form => form.label
  | .truth true => "True"
  | .truth false => "False"
  | .literal .array => "ArrayOf"
  | .literal .mutableList => "MutableListOf"

def Symbol.label : Symbol → String
  | .dotDot => "DotDot"
  | .lineBreak => "LineBreak"
  | .semicolon => "Semicolon"
  | .colon => "Colon"
  | .comma => "Comma"
  | .arrow => "Arrow"

def Bracket.label : Bracket → String
  | .openParen => "LParen"
  | .closeParen => "RParen"
  | .openCurly => "LCurly"
  | .closeCurly => "RCurly"
  | .openAngle => "LAngle"
  | .closeAngle => "RAngle"
  | .openSquare => "LBracket"
  | .closeSquare => "RBracket"

def ArithmeticOp.label : ArithmeticOp → String
  | .plus => "Plus"
  | .minus => "Minus"
  | .multiply => "Multiply"
  | .divide => "Divide"
  | .modulo => "Mod"

def ComparisonOp.label : ComparisonOp → String
  | .greater => "Greater"
  | .less => "Less"
  | .greaterEqual => "GreaterEqual"
  | .lessEqual => "LessEqual"
  | .equal => "EqualEqual"
  | .notEqual => "NotEqual"

def LogicalOp.label : LogicalOp → String
  | .and => "And"
  | .or => "Or"

def BinaryOp.label : BinaryOp → String
  | .arithmetic op => op.label
  | .comparison op => op.label
  | .logical op => op.label

def CompoundOp.label : CompoundOp → String
  | .plus => "PlusEqual"
  | .minus => "MinusEqual"
  | .multiply => "MultiplyEqual"
  | .divide => "DivideEqual"

def InfixMark.label : InfixMark → String
  | .binary op => op.label
  | .assign => "Equal"
  | .compound op => op.label

def UnaryMark.label : UnaryMark → String
  | .not => "Not"
  | .step .increase => "PlusPlus"
  | .step .decrease => "MinusMinus"

/-- The name of a kind in diagnostics. -/
def Kind.label : Kind → String
  | .keyword word => "Keyword(" ++ word.label ++ ")"
  | .symbol mark => "Symbol(" ++ mark.label ++ ")"
  | .bracket mark => "Bracket(" ++ mark.label ++ ")"
  | .infixMark mark => "Binop(" ++ mark.label ++ ")"
  | .unaryMark mark => "Unop(" ++ mark.label ++ ")"
  | .typeWord word => "Type(" ++ word.spelling ++ ")"
  | .int => "Int"
  | .name => "Variable"
  | .text => "Str"

end ScriptLang
