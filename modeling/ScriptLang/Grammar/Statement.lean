import ScriptLang.Grammar.Expression
import ScriptLang.Syntax.Stmt

/-!
# Reading statements

A statement is read in the form that the grammar gives for its first token.
Statements in a sequence are separated by line breaks and semicolons. As for
expressions, each form is a parser over the parsers for the parts inside, and
`Grammar.stmtAt` ties the knot by the number of tokens that may still be read.
-/

namespace ScriptLang

/-! ## Sequences and blocks -/

namespace Sequence

/-- Whether a sequence ends here: at the end of the tokens or at its terminator. -/
def atEnd (terminator? : Option Kind) (c : Cursor) : Bool :=
  !c.hasTokens || terminator?.any c.isAt

/-- Reads over the separators behind a statement. Where the sequence goes on,
there must be one. -/
def parseSeparator (terminator? : Option Kind) : Parser Unit := do
  let separated ← Parser.skipSeparators
  fun c =>
    if separated || atEnd terminator? c then .ok () c
    else
      .error ⟨.missingSeparator ((c.current?.map Token.spelling).getD ""), c.position⟩ c

/-- Reads statements and the separators behind them up to the end of the
sequence. Every statement is at least one token, so at most `bound` remain. -/
def parseFrom (stmt : Parser Stmt) (terminator? : Option Kind) :
    (bound : Nat) → Parser (List Stmt)
  | 0 => pure []
  | bound + 1 => fun c =>
    if atEnd terminator? c then .ok [] c
    else
      (do
        let s ← stmt
        parseSeparator terminator?
        let rest ← parseFrom stmt terminator? bound
        return s :: rest : Parser (List Stmt)) c

/-- Reads a sequence of statements up to its terminator or to the end of the
tokens. Separators before and behind it are skipped. -/
def parse (stmt : Parser Stmt) (terminator? : Option Kind) : Parser (List Stmt) := do
  let _ ← Parser.skipSeparators
  fun c => parseFrom stmt terminator? c.rest.length c

end Sequence

namespace StmtForm

/-- Reads statements in braces. -/
def parseBlock (stmt : Parser Stmt) : Parser Block := do
  let _ ← Parser.expect (.bracket .openCurly)
  let body ← Sequence.parse stmt (some (.bracket .closeCurly))
  let _ ← Parser.expect (.bracket .closeCurly)
  return body

/-- Reads the body of a loop or a branch: a block, or one statement. -/
def parseBody (stmt : Parser Stmt) : Parser Block := do
  Parser.skipLineBreaks
  if ← Parser.isAt (.bracket .openCurly) then parseBlock stmt
  else
    let s ← stmt
    return [s]

/-! ## Declarations and assignments -/

/-- Whether a declaration without a value may end here. -/
def atStatementEnd (c : Cursor) : Bool :=
  match c.current? with
  | none => true
  | some token => token.isSeparator || token == .bracket .closeCurly

/-- Reads the name that a declaration introduces. -/
def parseDeclaredName : Parser String := fun c =>
  match c.current? with
  | some (.name _) => Parser.identifier c
  | _ => Parser.unexpected "expected identifier during variable declaration" c

/-- Reads a value, which may start on a later line, behind its `=` or compound
mark. -/
def parseValue (expr : Power → Parser Expr) : Parser Expr := do
  let _ ← Parser.advance
  Parser.skipLineBreaks
  expr .lowest

/-- Reads `var a`, `val a: Int = 1` and the like. -/
def parseDeclaration (expr : Power → Parser Expr) (type : Parser Ty) : Parser Stmt := do
  let word ← Parser.advance
  let name ← parseDeclaredName
  let ty ← OperandForm.parseAnnotation? type
  let readOnly := word == .keyword (.declaration true)
  if ← Parser.isAt (.infixMark .assign) then
    let value ← parseValue expr
    return .assign name value ty true readOnly
  else fun c =>
    if atStatementEnd c then .ok (.declare name ty readOnly) c
    else Parser.unexpected "expected `=` or the end of the declaration" c

/-- Reads an expression as a statement. Only calls and steps have a use. -/
def parseExpression (expr : Power → Parser Expr) : Parser Stmt := fun start =>
  (do
    match ← expr .lowest with
    | .call callee arguments => return .call callee arguments
    | .step name op before => return .step name op before
    | _ =>
      throw ⟨.unexpectedDetailed ((start.current?.map Token.spelling).getD "")
        "expression cannot be used as a statement", start.position⟩ : Parser Stmt) start

/-- Reads a statement that starts with a name: an assignment, or an expression. -/
def parseNamed (expr : Power → Parser Expr) : Parser Stmt := fun c =>
  match c.peekKind? 1 with
  | some (.infixMark .assign) =>
    (do
      let name ← Parser.identifier
      let value ← parseValue expr
      return .assign name value none false false : Parser Stmt) c
  | some (.infixMark (.compound op)) =>
    (do
      let name ← Parser.identifier
      let value ← parseValue expr
      return .compound name op value : Parser Stmt) c
  | _ => parseExpression expr c

/-! ## Control flow -/

/-- Reads `if (condition) body` with an optional `else body`. -/
def parseConditional (expr : Power → Parser Expr) (stmt : Parser Stmt) : Parser Stmt := do
  let _ ← Parser.expect (.keyword .ifWord)
  let condition ← OperandForm.parseCondition expr
  let thenBlock ← parseBody stmt
  let elseBlock? ← Parser.elseBranch? (parseBody stmt)
  match elseBlock? with
  | some elseBlock => return .ifElse condition thenBlock elseBlock
  | none => return .ifThen condition thenBlock

/-- Reads `for (name in source) body`. -/
def parseFor (expr : Power → Parser Expr) (stmt : Parser Stmt) : Parser Stmt := do
  let _ ← Parser.expect (.keyword .forWord)
  let _ ← Parser.expect (.bracket .openParen)
  let name ← Parser.identifier
  let _ ← Parser.expect (.keyword .inWord)
  let source ← expr .lowest
  let _ ← Parser.expect (.bracket .closeParen)
  let body ← parseBody stmt
  return .forIn name source body

/-- Reads `while (condition) body`. -/
def parseWhile (expr : Power → Parser Expr) (stmt : Parser Stmt) : Parser Stmt := do
  let _ ← Parser.expect (.keyword .whileWord)
  let condition ← OperandForm.parseCondition expr
  let body ← parseBody stmt
  return .whileLoop condition body

/-- Reads `continue`; any other word breaks. -/
def parseControl : Parser Stmt := do
  match ← Parser.advance with
  | .keyword (.control .continue) => return .control .continue
  | _ => return .control .break

/-! ## Functions and output -/

/-- Reads `name: T`. -/
def parseParameter (type : Parser Ty) : Parser (String × Ty) := do
  let name ← Parser.identifier
  let _ ← Parser.expect (.symbol .colon)
  let ty ← type
  return (name, ty)

/-- Reads `fun name(a: T, b: U): R { ... }`. -/
def parseFunction (type : Parser Ty) (stmt : Parser Stmt) : Parser Stmt := do
  let _ ← Parser.expect (.keyword .funWord)
  let name ← Parser.identifier
  let _ ← Parser.expect (.bracket .openParen)
  let parameters ← Parser.items (parseParameter type) (pure ())
  let _ ← Parser.expect (.symbol .colon)
  let result ← type
  Parser.skipLineBreaks
  let body ← parseBlock stmt
  return .function name parameters result body

/-- Reads `return value`. -/
def parseReturn (expr : Power → Parser Expr) : Parser Stmt := do
  let _ ← Parser.expect (.keyword .returnWord)
  let value ← expr .lowest
  return .returns value

/-- Reads `println(value)`; any other word prints without a line end. -/
def parseOutput (expr : Power → Parser Expr) : Parser Stmt := do
  let word ← Parser.advance
  let value ← OperandForm.parseGrouping expr
  match word with
  | .keyword (.output .println) => return .output .println value
  | _ => return .output .print value

/-- Reads a statement in a given form. -/
def parse (expr : Power → Parser Expr) (type : Parser Ty) (stmt : Parser Stmt) :
    StmtForm → Parser Stmt
  | .declaration => parseDeclaration expr type
  | .named => parseNamed expr
  | .expression => parseExpression expr
  | .conditional => parseConditional expr stmt
  | .forLoop => parseFor expr stmt
  | .whileLoop => parseWhile expr stmt
  | .control => parseControl
  | .function => parseFunction type stmt
  | .returns => parseReturn expr
  | .output => parseOutput expr
  | .block => do
    let body ← parseBlock stmt
    return .block body
  | .any => stmt

end StmtForm

namespace Grammar

/-- Reads a statement of at most `bound` tokens. -/
def stmtAt (g : Grammar) : (bound : Nat) → Parser Stmt
  | 0 => Parser.unexpected "expected a statement"
  | bound + 1 => fun c =>
    match c.kind?.bind g.statement with
    | some form => form.parse g.parseExpr g.parseType (g.stmtAt bound) c
    | none => Parser.unexpected "expected a statement" c

/-- Reads a statement. -/
def parseStmt (g : Grammar) : Parser Stmt := fun c => g.stmtAt c.rest.length c

/-- Reads a statement in a given form, whatever the current token. -/
def parseStmtAs (g : Grammar) (form : StmtForm) : Parser Stmt :=
  form.parse g.parseExpr g.parseType g.parseStmt

/-- Reads statements in braces. -/
def parseBlock (g : Grammar) : Parser Block := StmtForm.parseBlock g.parseStmt

/-- Reads a sequence of statements. -/
def parseSequence (g : Grammar) (terminator? : Option Kind) : Parser (List Stmt) :=
  Sequence.parse g.parseStmt terminator?

/-- Reads a type in a given form, whatever the current token. -/
def parseTypeAs (g : Grammar) (form : TypeForm) : Parser Ty := form.parse g.parseType

end Grammar

end ScriptLang
