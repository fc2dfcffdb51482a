import ScriptLang.Grammar.Statement
import ScriptLang.Proofs.Reading.ExprGrammar

/-!
# The grammar of statements as rules

`Clause.Derives` says, rule by rule, what the standard grammar reads as which
statements. As for expressions, a derivation goes from the tokens before a
clause to the tokens behind it. Two rules look at what follows: a declaration
without a value ends where a statement may end, and a conditional without
`else` ends where no `else` is ahead.

In a sequence any number of separators may stand before a statement, and at
least one stands between two.
-/

namespace ScriptLang

/-! ## What stands around statements -/

/-- Whether a declaration without a value may end here. -/
def AtStatementEnd (tokens : List Token) : Prop :=
  ∀ t ∈ tokens.head?, t.isSeparator = true ∨ t = .bracket .closeCurly

/-- Whether an expression that starts here may stand as a statement. -/
def ExpressionHead (tokens : List Token) : Prop :=
  (∃ n ts, tokens = .name n :: ts) ∨ ∃ op ts, tokens = .unaryMark (.step op) :: ts

/-- The tokens of a function parameter. -/
def functionParameterTokens (parameter : String × Ty) : List Token :=
  .name parameter.1 :: .symbol .colon :: parameter.2.tokens

/-! ## The rules -/

/-- A part of a program, with what is read from it. -/
inductive Clause
  | stmt (s : Stmt)
  /-- Statements in braces. -/
  | block (body : Block)
  /-- The body of a loop or a branch: a block, or one statement. -/
  | body (body : Block)
  /-- Statements and the separators around them. -/
  | sequence (body : List Stmt)

/-- The clause is read from the front of the tokens and leaves the rest. -/
inductive Clause.Derives : Clause → List Token → List Token → Prop
  | declare {n : String} {ty? : Option Ty} {readOnly : Bool} {rest : List Token}
      (hEnd : AtStatementEnd rest) :
    Derives (.stmt (.declare n ty? readOnly))
      (.keyword (.declaration readOnly) :: .name n :: (annotationTokens ty? ++ rest)) rest
  | init {n : String} {value : Expr} {ty? : Option Ty} {readOnly : Bool} {m : Nat}
      {ts rest : List Token} (hValue : (Phrase.expr .lowest value).Derives embedded ts rest) :
    Derives (.stmt (.assign n value ty? true readOnly))
      (.keyword (.declaration readOnly) :: .name n ::
        (annotationTokens ty? ++ .infixMark .assign :: (breaks m ++ ts))) rest
  | assign {n : String} {value : Expr} {m : Nat} {ts rest : List Token}
      (hValue : (Phrase.expr .lowest value).Derives embedded ts rest) :
    Derives (.stmt (.assign n value none false false))
      (.name n :: .infixMark .assign :: (breaks m ++ ts)) rest
  | compound {n : String} {op : CompoundOp} {value : Expr} {m : Nat} {ts rest : List Token}
      (hValue : (Phrase.expr .lowest value).Derives embedded ts rest) :
    Derives (.stmt (.compound n op value))
      (.name n :: .infixMark (.compound op) :: (breaks m ++ ts)) rest
  | call {callee : String} {es : List Expr} {ts rest : List Token} (hHead : ExpressionHead ts)
      (hExpr : (Phrase.expr .lowest (.call callee es)).Derives embedded ts rest) :
    Derives (.stmt (.call callee es)) ts rest
  | step {n : String} {op : StepOp} {before : Bool} {ts rest : List Token}
      (hHead : ExpressionHead ts)
      (hExpr : (Phrase.expr .lowest (.step n op before)).Derives embedded ts rest) :
    Derives (.stmt (.step n op before)) ts rest
  | ifThen {condition : Expr} {thenBlock : Block} {ts ts₁ rest : List Token}
      (hCondition : (Phrase.expr .lowest condition).Derives embedded ts
        (.bracket .closeParen :: ts₁))
      (hThen : Derives (.body thenBlock) ts₁ rest) (hNoElse : ¬ ElseAhead rest) :
    Derives (.stmt (.ifThen condition thenBlock))
      (.keyword .ifWord :: .bracket .openParen :: ts) rest
  | ifElse {condition : Expr} {thenBlock elseBlock : Block} {n : Nat}
      {ts ts₁ ts₂ rest : List Token}
      (hCondition : (Phrase.expr .lowest condition).Derives embedded ts
        (.bracket .closeParen :: ts₁))
      (hThen : Derives (.body thenBlock) ts₁ (breaks n ++ .keyword .elseWord :: ts₂))
      (hElse : Derives (.body elseBlock) ts₂ rest) :
    Derives (.stmt (.ifElse condition thenBlock elseBlock))
      (.keyword .ifWord :: .bracket .openParen :: ts) rest
  | forIn {n : String} {source : Expr} {body : Block} {ts ts₁ rest : List Token}
      (hSource : (Phrase.expr .lowest source).Derives embedded ts (.bracket .closeParen :: ts₁))
      (hBody : Derives (.body body) ts₁ rest) :
    Derives (.stmt (.forIn n source body))
      (.keyword .forWord :: .bracket .openParen :: .name n :: .keyword .inWord :: ts) rest
  | whileLoop {condition : Expr} {body : Block} {ts ts₁ rest : List Token}
      (hCondition : (Phrase.expr .lowest condition).Derives embedded ts
        (.bracket .closeParen :: ts₁))
      (hBody : Derives (.body body) ts₁ rest) :
    Derives (.stmt (.whileLoop condition body))
      (.keyword .whileWord :: .bracket .openParen :: ts) rest
  | control {control : LoopControl} {rest : List Token} :
    Derives (.stmt (.control control)) (.keyword (.control control) :: rest) rest
  | function {name : String} {parameters : List (String × Ty)} {result : Ty} {body : Block}
      {m : Nat} {ts rest : List Token} (hBody : Derives (.block body) ts rest) :
    Derives (.stmt (.function name parameters result body))
      (.keyword .funWord :: .name name :: .bracket .openParen ::
        (listed functionParameterTokens parameters ++ .bracket .closeParen :: .symbol .colon ::
          (result.tokens ++ (breaks m ++ ts)))) rest
  | returns {value : Expr} {ts rest : List Token}
      (hValue : (Phrase.expr .lowest value).Derives embedded ts rest) :
    Derives (.stmt (.returns value)) (.keyword .returnWord :: ts) rest
  | output {form : Output} {value : Expr} {ts rest : List Token}
      (hValue : (Phrase.enclosed .closeParen value).Derives embedded ts rest) :
    Derives (.stmt (.output form value))
      (.keyword (.output form) :: .bracket .openParen :: ts) rest
  | block {body : Block} {ts rest : List Token} (hBlock : Derives (.block body) ts rest) :
    Derives (.stmt (.block body)) ts rest
  | braces {body : Block} {ts rest : List Token}
      (hInside : Derives (.sequence body) ts (.bracket .closeCurly :: rest)) :
    Derives (.block body) (.bracket .openCurly :: ts) rest
  | bodyBlock {body : Block} {m : Nat} {ts rest : List Token}
      (hBlock : Derives (.block body) ts rest) :
    Derives (.body body) (breaks m ++ ts) rest
  | bodySingle {s : Stmt} {m : Nat} {ts rest : List Token}
      (hHead : ts.head? ≠ some (.bracket .openCurly)) (hStmt : Derives (.stmt s) ts rest) :
    Derives (.body [s]) (breaks m ++ ts) rest
  | empty {q rest : List Token} (hBefore : Separators q) :
    Derives (.sequence []) (q ++ rest) rest
  | last {q : List Token} {s : Stmt} {ts rest : List Token} (hBefore : Separators q)
      (hStmt : Derives (.stmt s) ts rest) :
    Derives (.sequence [s]) (q ++ ts) rest
  | next {q : List Token} {s : Stmt} {ss : List Stmt} {t : Token} {ts ts₁ rest : List Token}
      (hBefore : Separators q) (hStmt : Derives (.stmt s) ts (t :: ts₁))
      (hBetween : t.isSeparator = true) (hMore : Derives (.sequence ss) ts₁ rest) :
    Derives (.sequence (s :: ss)) (q ++ ts) rest

namespace Clause

/-- The least number of tokens that a clause takes. A sequence may take none. -/
def least : Clause → Nat
  | .sequence _ => 0
  | _ => 1

namespace Derives

variable {cl : Clause} {ts rest : List Token} {s : Stmt} {ss : List Stmt} {body : Block}

/-- Every clause apart from a sequence takes a token. -/
theorem least_add_length_le (h : cl.Derives ts rest) :
    cl.least + rest.length ≤ ts.length := by
  induction h with
  | init hValue | assign hValue | compound hValue | returns hValue | output hValue =>
      have hLe := hValue.length_le
      simp only [least, List.length_cons, List.length_append]
      omega
  | call _ hExpr | step _ hExpr =>
      have hLt := hExpr.expr_length_lt
      simp only [least]
      omega
  | ifThen hExpr | ifElse hExpr | forIn hExpr | whileLoop hExpr =>
      have hLe := hExpr.length_le
      simp only [least, List.length_cons, List.length_append, length_breaks] at *
      omega
  | _ =>
      simp only [least, List.length_cons, List.length_append, length_breaks] at *
      omega

theorem length_le (h : cl.Derives ts rest) : rest.length ≤ ts.length := by
  have hLe := h.least_add_length_le
  omega

theorem stmt_length_lt (h : (Clause.stmt s).Derives ts rest) : rest.length < ts.length := by
  have hLe : 1 + rest.length ≤ ts.length := h.least_add_length_le
  omega

/-- A block starts with its brace. -/
theorem block_head (h : (Clause.block body).Derives ts rest) :
    ∃ ts', ts = .bracket .openCurly :: ts' := by
  cases h with
  | braces => exact ⟨_, rfl⟩

/-- A statement starts with a token that the grammar has a statement form for. -/
theorem stmt_head (h : (Clause.stmt s).Derives ts rest) :
    ∃ t ts', ts = t :: ts' ∧ (Grammar.standard.statement t.kind).isSome = true := by
  cases h with
  | call hHead | step hHead =>
      rcases hHead with ⟨n, ts', rfl⟩ | ⟨op, ts', rfl⟩ <;> exact ⟨_, ts', rfl, rfl⟩
  | block hBlock =>
      obtain ⟨ts', rfl⟩ := hBlock.block_head
      exact ⟨_, ts', rfl, rfl⟩
  | _ => exact ⟨_, _, rfl, rfl⟩

/-- No statement starts with a token that the grammar has no statement form for. -/
theorem stmt_head_ne {t : Token} (h : (Clause.stmt s).Derives ts rest)
    (hNone : Grammar.standard.statement t.kind = none) : ts.head? ≠ some t := by
  obtain ⟨u, ts', rfl, hSome⟩ := h.stmt_head
  intro hHead
  rw [Option.some.inj hHead, hNone] at hSome
  exact absurd hSome (by decide)

/-- No statement starts with a separator. -/
theorem stmt_noSeparator (h : (Clause.stmt s).Derives ts rest) : NoSeparator ts := by
  intro t ht
  have hNone := h.stmt_head_ne (t := t)
  cases hSeparator : t.isSeparator with
  | false => rfl
  | true =>
      refine absurd ht (hNone ?_)
      unfold Token.isSeparator at hSeparator
      split at hSeparator
      · rfl
      · rfl
      · exact absurd hSeparator nofun

/-- Separators may be added in front of a sequence. -/
theorem sequence_separators {q : List Token} (hq : Separators q)
    (h : (Clause.sequence ss).Derives ts rest) : (Clause.sequence ss).Derives (q ++ ts) rest := by
  cases h with
  | empty hBefore =>
      rw [← List.append_assoc]
      exact .empty (hq.append hBefore)
  | last hBefore hStmt =>
      rw [← List.append_assoc]
      exact .last (hq.append hBefore) hStmt
  | next hBefore hStmt hBetween hMore =>
      rw [← List.append_assoc]
      exact .next (hq.append hBefore) hStmt hBetween hMore

end Derives

end Clause

end ScriptLang
