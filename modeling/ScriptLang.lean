import ScriptLang.Check
import ScriptLang.Diagnostic.ParseError
import ScriptLang.Diagnostic.TypeError
import ScriptLang.Grammar.Cursor
import ScriptLang.Grammar.Expression
import ScriptLang.Grammar.Program
import ScriptLang.Grammar.Statement
import ScriptLang.Grammar.Table
import ScriptLang.Grammar.Template
import ScriptLang.Grammar.TypeAnnotation
import ScriptLang.Proofs.Outcome
import ScriptLang.Proofs.Printing.Canonical
import ScriptLang.Proofs.Printing.ExprPrinted
import ScriptLang.Proofs.Printing.PlainText
import ScriptLang.Proofs.Printing.Printer
import ScriptLang.Proofs.Printing.RoundTrip
import ScriptLang.Proofs.Printing.StmtPrinted
import ScriptLang.Proofs.Reading.Agreement
import ScriptLang.Proofs.Reading.Alternatives
import ScriptLang.Proofs.Reading.Contents
import ScriptLang.Proofs.Reading.Delimited
import ScriptLang.Proofs.Reading.ErrorPlaces
import ScriptLang.Proofs.Reading.ExprDerived
import ScriptLang.Proofs.Reading.ExprGrammar
import ScriptLang.Proofs.Reading.ExprRead
import ScriptLang.Proofs.Reading.FormAgreement
import ScriptLang.Proofs.Reading.Input
import ScriptLang.Proofs.Reading.LineBreaks
import ScriptLang.Proofs.Reading.Locality
import ScriptLang.Proofs.Reading.Located
import ScriptLang.Proofs.Reading.LocatedForms
import ScriptLang.Proofs.Reading.NameOrigins
import ScriptLang.Proofs.Reading.OperatorTree
import ScriptLang.Proofs.Reading.Precedence
import ScriptLang.Proofs.Reading.Run
import ScriptLang.Proofs.Reading.StmtDerived
import ScriptLang.Proofs.Reading.StmtGrammar
import ScriptLang.Proofs.Reading.StmtRead
import ScriptLang.Proofs.Reading.Tables
import ScriptLang.Proofs.Reading.Termination
import ScriptLang.Proofs.Reading.TypeSpelling
import ScriptLang.Proofs.Recursion
import ScriptLang.Proofs.Scanning.Boundaries
import ScriptLang.Proofs.Scanning.Context
import ScriptLang.Proofs.Scanning.Faults
import ScriptLang.Proofs.Scanning.Image
import ScriptLang.Proofs.Scanning.Lengths
import ScriptLang.Proofs.Scanning.Lines
import ScriptLang.Proofs.Scanning.LongestMatch
import ScriptLang.Proofs.Scanning.Rules
import ScriptLang.Proofs.Scanning.SourceText
import ScriptLang.Proofs.Scanning.TypeText
import ScriptLang.Proofs.Template.Pieces
import ScriptLang.Proofs.Template.Splices
import ScriptLang.Proofs.Typing.Bindings
import ScriptLang.Proofs.Typing.CheckedUses
import ScriptLang.Proofs.Typing.ControlFlow
import ScriptLang.Proofs.Typing.DeclarationOrder
import ScriptLang.Proofs.Typing.Expansion
import ScriptLang.Proofs.Typing.ExpectedTypes
import ScriptLang.Proofs.Typing.Growth
import ScriptLang.Proofs.Typing.Names
import ScriptLang.Proofs.Typing.Parameters
import ScriptLang.Proofs.Typing.Premises
import ScriptLang.Proofs.Typing.Renaming
import ScriptLang.Proofs.Typing.Rules
import ScriptLang.Proofs.Typing.Run
import ScriptLang.Proofs.Typing.Scope
import ScriptLang.Proofs.Typing.SessionState
import ScriptLang.Proofs.Typing.Shorthands
import ScriptLang.Proofs.Typing.SideBySide
import ScriptLang.Proofs.Typing.TwoRuns
import ScriptLang.Proofs.Typing.TypedScope
import ScriptLang.Proofs.Typing.Unchanged
import ScriptLang.Proofs.Typing.WellScoped
import ScriptLang.Proofs.Typing.WriteProtection
import ScriptLang.Syntax.Expr
import ScriptLang.Syntax.Operator
import ScriptLang.Syntax.Stmt
import ScriptLang.Syntax.Ty
import ScriptLang.Text.Printable
import ScriptLang.Text.Quoted
import ScriptLang.Text.Word
import ScriptLang.Token.Basic
import ScriptLang.Token.Label
import ScriptLang.Token.Lexeme
import ScriptLang.Token.Reserved
import ScriptLang.Token.Scanner
import ScriptLang.Typing.Checking
import ScriptLang.Typing.Environment
import ScriptLang.Typing.Inference
import ScriptLang.Typing.Session
import ScriptLang.Typing.SignatureTable
