import ScriptLang.Proofs.Reading.Input
import ScriptLang.Proofs.Reading.Locality
import ScriptLang.Proofs.Reading.OperatorTree

/-!
# Precedence and associativity

A sequence of operands with operators between them is read as the one ordered
tree of the sequence (`parseExpression_operators`).

The invariant of the climb is a statement about trees: an ordered tree is read
at every level that its root binds more tightly than, in front of everything
that binds no more tightly than its root (`OperatorTree.Ordered.derives`).
Reading goes on from the left subtree with the operator at the root, which the
order of the tree lets the level pass, and the right subtree is read at the
level of that operator, which ends in front of all that follows.
-/

namespace ScriptLang

/-! ## Operands -/

/-- Tokens that are read as an expression. -/
structure Accepted where
  tokens : List Token
  expr : Expr
  accepted : parseExpression tokens = .ok expr

/-- An accepted expression with line breaks around it. -/
structure Padded extends Accepted where
  before : Nat
  behind : Nat

namespace Padded

def paddedTokens (p : Padded) : List Token := breaks p.before ++ (p.tokens ++ breaks p.behind)

end Padded

/-- What may stand between operators. -/
inductive Operand
  | int (value : Int)
  | truth (value : Bool)
  | variable (name : String)
  | stepBehind (name : String) (op : StepOp)
  | stepBefore (op : StepOp) (name : String)
  /-- A call; without arguments too there may be line breaks in its parentheses. -/
  | call (callee : String) (gap : Nat) (arguments : List Padded)
  | index (name : String) (inside : Accepted)
  | grouping (inside : Padded)
  | not (operand : Operand)

namespace Operand

def tokens : Operand → List Token
  | .int value => [.int value]
  | .truth value => [.keyword (.truth value)]
  | .variable name => [.name name]
  | .stepBehind name op => [.name name, .unaryMark (.step op)]
  | .stepBefore op name => [.unaryMark (.step op), .name name]
  | .call callee gap arguments =>
    .name callee :: .bracket .openParen ::
      (breaks gap ++ (listed Padded.paddedTokens arguments ++ [.bracket .closeParen]))
  | .index name inside =>
    .name name :: .bracket .openSquare :: (inside.tokens ++ [.bracket .closeSquare])
  | .grouping inside => .bracket .openParen :: (inside.paddedTokens ++ [.bracket .closeParen])
  | .not operand => .unaryMark .not :: operand.tokens

def expr : Operand → Expr
  | .int value => .int value
  | .truth value => .boolean value
  | .variable name => .var name
  | .stepBehind name op => .step name op false
  | .stepBefore op name => .step name op true
  | .call callee _ arguments => .call callee (arguments.map fun p => p.expr)
  | .index name inside => .index name inside.expr
  | .grouping inside => inside.expr
  | .not operand => .not operand.expr

end Operand

/-! ## Reading an operand -/

section Operands

variable {power : Power} {e : Expr} {rest rest' : List Token}

theorem Accepted.derives (a : Accepted) (hRest : Replaces [] rest) :
    (Phrase.expr .lowest a.expr).Derives embedded (a.tokens ++ rest) rest :=
  (parseExpression_eq_ok.1 a.accepted).extend hRest

theorem Padded.derives_enclosed (p : Padded) :
    (Phrase.enclosed .closeParen p.expr).Derives embedded
      (p.paddedTokens ++ .bracket .closeParen :: rest) rest := by
  simp only [paddedTokens, List.append_assoc]
  exact .enclosed (p.derives (.of_bracket p.behind rfl))

theorem derives_moreArguments (arguments : List Padded) :
    (Phrase.moreArguments (arguments.map fun p => p.expr)).Derives embedded
      (listedMore Padded.paddedTokens arguments ++ .bracket .closeParen :: rest) rest := by
  induction arguments with
  | nil => exact .moreClose
  | cons p ps ih =>
      simp only [listedMore, List.flatMap_cons, Padded.paddedTokens, List.cons_append,
        List.append_assoc, List.map_cons] at ih ⊢
      refine .moreNext (p.derives ?_) ih
      cases ps with
      | nil => exact .of_bracket _ rfl
      | cons => exact .of_comma _

theorem derives_arguments (gap : Nat) (arguments : List Padded) :
    (Phrase.arguments (arguments.map fun p => p.expr)).Derives embedded
      (breaks gap ++ (listed Padded.paddedTokens arguments ++ .bracket .closeParen :: rest))
      rest := by
  cases arguments with
  | nil => exact .argumentsNone
  | cons p ps =>
      simp only [listed, Padded.paddedTokens, List.append_assoc, List.map_cons]
      rw [← List.append_assoc, breaks_append]
      refine .argumentsSome (p.derives ?_) (derives_moreArguments ps)
      cases ps with
      | nil => exact .of_bracket _ rfl
      | cons => exact .of_comma _

/-- Behind an operand the climb goes on, at every level up to that of `!`. -/
theorem Operand.derives (x : Operand) (hPower : power.rank ≤ Power.unary.rank)
    (hRest : headRank rest ≤ Power.unary.rank)
    (hClimb : (Phrase.climb power x.expr e).Derives embedded rest rest') :
    (Phrase.expr power e).Derives embedded (x.tokens ++ rest) rest' := by
  have hTrailing : power.rank < Power.trailing.rank := Nat.lt_of_le_of_lt hPower (by decide)
  have hCall : power.rank < Power.call.rank := Nat.lt_of_le_of_lt hPower (by decide)
  induction x generalizing power e rest' with
  | int value => exact .expr .int hClimb
  | truth value => exact .expr .truth hClimb
  | «variable» name => exact .expr .name hClimb
  | stepBehind name op => exact .expr .name (.stepBehind hTrailing hClimb)
  | stepBefore op name => exact .expr .step hClimb
  | call callee gap arguments =>
      simp only [tokens, List.cons_append, List.append_assoc, List.nil_append]
      exact .expr .name (.call hCall (derives_arguments gap arguments) hClimb)
  | index name inside =>
      simp only [tokens, List.cons_append, List.append_assoc, List.nil_append]
      exact .expr .name (.index hCall (inside.derives (.of_bracket 0 rfl)) hClimb)
  | grouping inside =>
      simp only [tokens, List.cons_append, List.append_assoc, List.nil_append]
      exact .expr (.grouping inside.derives_enclosed) hClimb
  | not operand ih =>
      have hOperand : (Phrase.expr .unary operand.expr).Derives embedded (operand.tokens ++ rest)
          rest := ih (Nat.le_refl _) (.stop hRest) (by decide) (by decide)
      exact .expr (.negation hOperand) hClimb

end Operands

/-! ## Reading an operator -/

namespace Joint

/-- The level at which the right operand is read. -/
def power : Joint → Power
  | .binary op => op.power
  | .range => .range

/-- The levels are those of the grammar. -/
theorem power_rank (o : Joint) : o.power.rank = o.level := by
  rcases o with ((_ | _ | _ | _ | _) | _ | _) | _ <;> rfl

theorem level_pos (o : Joint) : 0 < o.level := by
  rcases o with ((_ | _ | _ | _ | _) | _ | _) | _ <;> simp [level]

theorem level_le (o : Joint) : o.level ≤ Power.unary.rank := by
  rcases o with ((_ | _ | _ | _ | _) | _ | _) | _ <;> simp [level, Power.rank]

theorem headRank_token (o : Joint) (ts : List Token) : headRank (o.token :: ts) = o.level := by
  rw [← o.power_rank]
  cases o <;> rfl

variable {power : Power} {left right e : Expr} {ts ts₁ rest : List Token}

theorem derives (o : Joint) (hLevel : power.rank < o.level)
    (hRight : (Phrase.expr o.power right).Derives embedded ts ts₁)
    (hClimb : (Phrase.climb power (o.apply left right) e).Derives embedded ts₁ rest) :
    (Phrase.climb power left e).Derives embedded (o.token :: ts) rest := by
  rw [← o.power_rank] at hLevel
  cases o with
  | binary op => exact Phrase.Derives.binary (m := 0) hLevel hRight hClimb
  | range => exact .range hLevel hRight hClimb

end Joint

/-! ## Reading a sequence -/

/-- The tokens of a sequence of operands with operators between them. -/
def operatorTokens (first : Operand) (later : List (Joint × Operand)) : List Token :=
  first.tokens ++ later.flatMap fun p => p.1.token :: p.2.tokens

namespace OperatorTree

variable {t : OperatorTree Operand} {power : Power} {e : Expr} {rest rest' : List Token}

theorem operatorTokens_node (left right : OperatorTree Operand) (o : Joint) :
    operatorTokens (node left o right).first (node left o right).later =
      operatorTokens left.first left.later ++
        o.token :: operatorTokens right.first right.later := by
  simp [operatorTokens, first, later]

/-- An ordered tree is read at every level looser than its root, in front of
everything that binds no more tightly than its root. -/
theorem Ordered.derives (h : t.Ordered) (hPower : ∀ o ∈ t.root?, power.rank < o.level)
    (hUnary : power.rank ≤ Power.unary.rank) (hRest : ∀ o ∈ t.root?, headRank rest ≤ o.level)
    (hRestUnary : headRank rest ≤ Power.unary.rank)
    (hClimb : (Phrase.climb power (t.expr Operand.expr) e).Derives embedded rest rest') :
    (Phrase.expr power e).Derives embedded (operatorTokens t.first t.later ++ rest) rest' := by
  induction t generalizing power e rest rest' with
  | leaf x =>
      simp only [operatorTokens, first, later, List.flatMap_nil, List.append_nil]
      exact x.derives hUnary hRestUnary hClimb
  | node left o right ihLeft ihRight =>
      obtain ⟨hLeft, hRight, hLeftRoot, hRightRoot⟩ := h
      have hLevel : power.rank < o.level := hPower o rfl
      have hRestLevel : headRank rest ≤ o.level := hRest o rfl
      -- The right subtree is read at the level of `o`, which nothing behind it passes.
      have hRightRead : (Phrase.expr o.power (right.expr Operand.expr)).Derives embedded
          (operatorTokens right.first right.later ++ rest) rest := by
        refine ihRight hRight ?_ ?_ ?_ hRestUnary (.stop ?_)
        · rw [o.power_rank]
          exact hRightRoot
        · rw [o.power_rank]
          exact o.level_le
        · exact fun o' ho' => Nat.le_trans hRestLevel (Nat.le_of_lt (hRightRoot o' ho'))
        · rwa [o.power_rank]
      rw [operatorTokens_node, List.append_assoc, List.cons_append]
      -- The left subtree ends in front of `o`, which its root binds as tightly as.
      refine ihLeft hLeft ?_ hUnary ?_ ?_ (o.derives hLevel hRightRead hClimb)
      · exact fun o' ho' => Nat.lt_of_lt_of_le hLevel (hLeftRoot o' ho')
      · rw [o.headRank_token]
        exact hLeftRoot
      · rw [o.headRank_token]
        exact o.level_le

end OperatorTree

/-- A sequence of operands with operators between them is read as the one tree
over these operands that has the sequence as its reading and in which operators
of one level group to the left and tighter operators first. -/
theorem parseExpression_operators (x : Operand) (later : List (Joint × Operand)) :
    ∃ t : OperatorTree Operand, ((t.first = x ∧ t.later = later) ∧ t.Ordered) ∧
      (∀ t' : OperatorTree Operand, (t'.first = x ∧ t'.later = later) ∧ t'.Ordered → t' = t) ∧
      parseExpression (operatorTokens x later) = .ok (t.expr Operand.expr) := by
  have hLeaf : (OperatorTree.leaf x).Ordered := trivial
  have hFirst : ((OperatorTree.leaf x).grow later).first = x := OperatorTree.first_grow _ _
  have hLater : ((OperatorTree.leaf x).grow later).later = later := OperatorTree.later_grow _ _
  have hOrdered := hLeaf.grow later
  refine ⟨(OperatorTree.leaf x).grow later, ⟨⟨hFirst, hLater⟩, hOrdered⟩, ?_, ?_⟩
  · rintro t' ⟨⟨rfl, rfl⟩, hOrdered'⟩
    exact hOrdered'.eq_grow
  · rw [parseExpression_eq_ok]
    have hRead : (Phrase.expr .lowest (((OperatorTree.leaf x).grow later).expr
        Operand.expr)).Derives embedded (_ ++ []) [] :=
      hOrdered.derives (fun o _ => o.level_pos) (Nat.zero_le _) (fun o _ => Nat.zero_le _)
        (Nat.zero_le _) (.stop (Nat.zero_le _))
    rwa [List.append_nil, hFirst, hLater] at hRead

/-- Differences group to the left, and a product binds more tightly. -/
theorem parse_difference_and_product :
    parseExpression (operatorTokens (.variable "a")
        [(.binary (.arithmetic .minus), .int 1),
          (.binary (.arithmetic .minus), .grouping ⟨⟨[.name "b"], .var "b", rfl⟩, 1, 0⟩),
          (.binary (.arithmetic .multiply), .not (.truth true))]) =
      .ok (.binary (.binary (.var "a") (.arithmetic .minus) (.int 1)) (.arithmetic .minus)
        (.binary (.var "b") (.arithmetic .multiply) (.not (.boolean true)))) := by
  obtain ⟨t, -, hUnique, hParse⟩ := parseExpression_operators (.variable "a")
    [(.binary (.arithmetic .minus), .int 1),
      (.binary (.arithmetic .minus), .grouping ⟨⟨[.name "b"], .var "b", rfl⟩, 1, 0⟩),
      (.binary (.arithmetic .multiply), .not (.truth true))]
  rw [hParse, ← hUnique (.node (.node (.leaf (.variable "a")) (.binary (.arithmetic .minus))
      (.leaf (.int 1))) (.binary (.arithmetic .minus))
    (.node (.leaf (.grouping ⟨⟨[.name "b"], .var "b", rfl⟩, 1, 0⟩))
      (.binary (.arithmetic .multiply)) (.leaf (.not (.truth true)))))
    ⟨⟨rfl, rfl⟩, by simp [OperatorTree.Ordered, OperatorTree.root?, Joint.level]⟩]
  rfl

end ScriptLang
