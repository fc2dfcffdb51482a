import ScriptLang.Grammar.Table

/-!
# The tables read backwards

The tables of `Grammar.standard` lead from kinds to forms. Proofs about the parser
mostly go the other way: a form has been chosen, and the token that stands there has
to be one that leads to it. Each table has one lemma for that, over all of its forms.
`HeadedBy` gives the kinds that lead to a form, and none leads to the form `any`.

## Main results

* `type_eq_some`, `operand_eq_some`, `operator_eq_some`, `statement_eq_some` : a table
  has a form exactly at the kinds that head it.
* `operator_of_rank` : whatever binds behind an expression has a form.
-/

namespace ScriptLang

variable {k : Kind}

namespace TypeForm

/-- The kinds that lead to a form of a type. -/
def HeadedBy (k : Kind) : TypeForm → Prop
  | .basic => ∃ kind, k = .typeWord (.basic kind)
  | .collection => ∃ kind, k = .typeWord (.collection kind)
  | .function => k = .bracket .openParen
  | .any => False

end TypeForm

theorem type_eq_some {form : TypeForm} :
    Grammar.standard.type k = some form ↔ form.HeadedBy k := by
  unfold Grammar.standard
  dsimp only
  split <;> cases form <;> simp_all [TypeForm.HeadedBy]

namespace OperandForm

/-- The kinds that lead to a form that starts an expression. -/
def HeadedBy (k : Kind) : OperandForm → Prop
  | .primary => k = .int ∨ k = .name ∨ k = .text ∨ ∃ value, k = .keyword (.truth value)
  | .negation => k = .unaryMark .not
  | .step => ∃ op, k = .unaryMark (.step op)
  | .grouping => k = .bracket .openParen
  | .lambda => k = .bracket .openCurly
  | .conditional => k = .keyword .ifWord
  | .generator => ∃ kind, k = .typeWord (.collection kind)
  | .literal => ∃ kind, k = .keyword (.literal kind)

end OperandForm

theorem operand_eq_some {form : OperandForm} :
    Grammar.standard.operand k = some form ↔ form.HeadedBy k := by
  unfold Grammar.standard
  dsimp only
  split <;> cases form <;> simp_all [OperandForm.HeadedBy]

namespace OperatorForm

/-- The kinds that lead to a form that continues an expression. -/
def HeadedBy (k : Kind) : OperatorForm → Prop
  | .binary => ∃ op, k = .infixMark (.binary op)
  | .range => k = .symbol .dotDot
  | .step => ∃ op, k = .unaryMark (.step op)
  | .call => k = .bracket .openParen
  | .index => k = .bracket .openSquare

end OperatorForm

theorem operator_eq_some {form : OperatorForm} :
    Grammar.standard.operator k = some form ↔ form.HeadedBy k := by
  unfold Grammar.standard
  dsimp only
  split <;> cases form <;> simp_all [OperatorForm.HeadedBy]

namespace StmtForm

/-- The kinds that lead to a form of a statement. -/
def HeadedBy (k : Kind) : StmtForm → Prop
  | .declaration => ∃ readOnly, k = .keyword (.declaration readOnly)
  | .named => k = .name
  | .expression => ∃ op, k = .unaryMark (.step op)
  | .conditional => k = .keyword .ifWord
  | .forLoop => k = .keyword .forWord
  | .whileLoop => k = .keyword .whileWord
  | .control => ∃ control, k = .keyword (.control control)
  | .function => k = .keyword .funWord
  | .returns => k = .keyword .returnWord
  | .output => ∃ form, k = .keyword (.output form)
  | .block => k = .bracket .openCurly
  | .any => False

end StmtForm

theorem statement_eq_some {form : StmtForm} :
    Grammar.standard.statement k = some form ↔ form.HeadedBy k := by
  unfold Grammar.standard
  dsimp only
  split <;> cases form <;> simp_all [StmtForm.HeadedBy]

/-- Whatever binds behind an expression has a form in which it is read. -/
theorem operator_of_rank (h : 0 < (Grammar.standard.powerOf k).rank) :
    ∃ form, Grammar.standard.operator k = some form := by
  revert h
  unfold Grammar.powerOf Grammar.standard
  dsimp only
  split <;> simp_all [Power.rank]

end ScriptLang
