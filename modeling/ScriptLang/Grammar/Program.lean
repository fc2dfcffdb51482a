import ScriptLang.Grammar.Statement

/-!
# Reading whole inputs

The entry points of the standard grammar. Each reads all of its tokens or
fails; where there is nothing to read, it says so.
-/

namespace ScriptLang

/-- The tokens as a single expression. -/
def parseExpression (tokens : List Token) : Except ParseError Expr :=
  wholeExpression (Grammar.standard.parseExpr .lowest) tokens

/-- The tokens as a single statement. Separators before and behind it are
skipped. -/
def parseStatement (tokens : List Token) : Except ParseError Stmt :=
  if tokens.all Token.isSeparator then .error ⟨.emptyInput, 0⟩
  else
    Parser.parse (do
      let _ ← Parser.skipSeparators
      let s ← Grammar.standard.parseStmt
      let _ ← Parser.skipSeparators
      Parser.expectEnd
      return s) tokens

/-- The tokens as a program: statements separated by line breaks and
semicolons. -/
def parseProgram (tokens : List Token) : Except ParseError Program :=
  if tokens.all Token.isSeparator then .error ⟨.emptyInput, 0⟩
  else
    Parser.parse (do
      let program ← Grammar.standard.parseSequence none
      Parser.expectEnd
      return program) tokens

end ScriptLang
