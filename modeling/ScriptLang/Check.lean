import ScriptLang.Grammar.Program
import ScriptLang.Typing.Checking

/-!
# From source text to a checked program

Scanning, parsing and type checking one after the other. The first stage that
fails gives the failure of the whole.
-/

namespace ScriptLang

/-- Why a text is no program. -/
inductive Failure
  | parse (error : ParseError)
  | type (error : TypeError)
  deriving DecidableEq

/-- The text of a failure, with the stage it comes from. -/
def Failure.message : Failure → String
  | .parse error => "parse error: " ++ error.message
  | .type error => "type error: " ++ error.message

/-- The program that tokens spell, with its final top-level environment. -/
def checkTokens (tokens : List Token) : Except Failure (Program × Environment) := do
  let program ← (parseProgram tokens).mapError Failure.parse
  let env ← (typeCheck program).mapError Failure.type
  return (program, env)

/-- The program that a text spells, with its final top-level environment. -/
def checkSource (source : String) : Except Failure (Program × Environment) := do
  let tokens ← (tokenize source).mapError Failure.parse
  checkTokens tokens

end ScriptLang
