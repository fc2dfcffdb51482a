import ScriptLang.Syntax.Operator
import ScriptLang.Syntax.Ty

/-!
# Expressions

The expression tree. Lists keep source order and every part is compared, so
structural equality is order-sensitive; `Expr.beq` decides it
(`Expr.beq_iff`).
-/

namespace ScriptLang

/-- An expression. -/
inductive Expr
  | int (value : Int)
  | boolean (value : Bool)
  /-- A string literal with its splices cut out of `remainder`. A splice is
  kept beside the offset at which it was cut, in source order. -/
  | text (remainder : String) (splices : List (Nat × Expr))
  | var (name : String)
  | binary (left : Expr) (op : BinaryOp) (right : Expr)
  | not (operand : Expr)
  /-- A step `++a` or `--a` when `before`, otherwise `a++` or `a--`. -/
  | step (name : String) (op : StepOp) (before : Bool)
  /-- A conditional without an alternative. -/
  | ifThen (condition thenBranch : Expr)
  | ifElse (condition thenBranch elseBranch : Expr)
  /-- A range `first..last`, both ends included. -/
  | range (first last : Expr)
  /-- A collection given by its size and an initializer, for instance
  `Array(size, { i -> ... })`. -/
  | generate (kind : Collection) (size : Expr)
      (parameters : List (String × Option Ty)) (body : Expr)
  /-- A collection given element by element: `arrayOf(...)`, `mutableListOf(...)`. -/
  | literal (kind : Collection) (items : List Expr)
  /-- A lambda `{ a: Int, b -> body }`; a parameter may leave its type open. -/
  | lambda (parameters : List (String × Option Ty)) (body : Expr)
  | call (callee : String) (arguments : List Expr)
  | index (name : String) (index : Expr)

/-- The parameters and the body of a lambda. -/
structure Lambda where
  parameters : List (String × Option Ty)
  body : Expr

/-- A lambda as an expression. -/
def Lambda.toExpr (fn : Lambda) : Expr := .lambda fn.parameters fn.body

namespace Expr

mutual

/-- Structural equality of expressions. -/
def beq : Expr → Expr → Bool
  | .int a, .int b => a == b
  | .boolean a, .boolean b => a == b
  | .text a xs, .text b ys => a == b && beqSplices xs ys
  | .var a, .var b => a == b
  | .binary a op b, .binary c op' d => op == op' && beq a c && beq b d
  | .not a, .not b => beq a b
  | .step a op p, .step b op' q => a == b && op == op' && p == q
  | .ifThen a b, .ifThen c d => beq a c && beq b d
  | .ifElse a b c, .ifElse d e f => beq a d && beq b e && beq c f
  | .range a b, .range c d => beq a c && beq b d
  | .generate k a ps b, .generate l c qs d => k == l && ps == qs && beq a c && beq b d
  | .literal k xs, .literal l ys => k == l && beqList xs ys
  | .lambda ps a, .lambda qs b => ps == qs && beq a b
  | .call a xs, .call b ys => a == b && beqList xs ys
  | .index a i, .index b j => a == b && beq i j
  | _, _ => false

/-- Structural equality of expression lists. -/
def beqList : List Expr → List Expr → Bool
  | [], [] => true
  | a :: as, b :: bs => beq a b && beqList as bs
  | _, _ => false

/-- Structural equality of splices, offsets included. -/
def beqSplices : List (Nat × Expr) → List (Nat × Expr) → Bool
  | [], [] => true
  | (m, a) :: as, (n, b) :: bs => m == n && beq a b && beqSplices as bs
  | _, _ => false

end

mutual

/-- The function `beq` decides equality. -/
theorem beq_iff : ∀ a b : Expr, beq a b = true ↔ a = b
  | .int _, b => by cases b <;> simp [beq]
  | .boolean _, b => by cases b <;> simp [beq]
  | .text _ xs, b => by cases b <;> simp [beq, beqSplices_iff xs]
  | .var _, b => by cases b <;> simp [beq]
  | .binary l _ r, b => by
    cases b <;> simp [beq, beq_iff l, beq_iff r]
    grind
  | .not a, b => by cases b <;> simp [beq, beq_iff a]
  | .step _ _ _, b => by cases b <;> simp [beq, and_assoc]
  | .ifThen c t, b => by cases b <;> simp [beq, beq_iff c, beq_iff t]
  | .ifElse c t e, b => by cases b <;> simp [beq, beq_iff c, beq_iff t, beq_iff e, and_assoc]
  | .range x y, b => by cases b <;> simp [beq, beq_iff x, beq_iff y]
  | .generate _ s _ body, b => by
    cases b <;> simp [beq, beq_iff s, beq_iff body]
    grind
  | .literal _ xs, b => by cases b <;> simp [beq, beqList_iff xs]
  | .lambda _ body, b => by cases b <;> simp [beq, beq_iff body]
  | .call _ xs, b => by cases b <;> simp [beq, beqList_iff xs]
  | .index _ i, b => by cases b <;> simp [beq, beq_iff i]

/-- The function `beqList` decides equality. -/
theorem beqList_iff : ∀ as bs : List Expr, beqList as bs = true ↔ as = bs
  | [], bs => by cases bs <;> simp [beqList]
  | a :: as, bs => by cases bs <;> simp [beqList, beq_iff a, beqList_iff as]

/-- The function `beqSplices` decides equality. -/
theorem beqSplices_iff : ∀ as bs : List (Nat × Expr), beqSplices as bs = true ↔ as = bs
  | [], bs => by cases bs <;> simp [beqSplices]
  | (m, a) :: as, bs => by
    rcases bs with _ | ⟨⟨n, b⟩, bs⟩ <;> simp [beqSplices, beq_iff a, beqSplices_iff as]

end

instance : DecidableEq Expr := fun a b => decidable_of_iff _ (beq_iff a b)

end Expr

instance : DecidableEq Lambda := fun a b =>
  decidable_of_iff (a.parameters = b.parameters ∧ a.body = b.body) (by
    cases a; cases b; simp)

end ScriptLang
