import ScriptLang.Syntax.Expr

/-!
# Statements

The statement tree. A block and a program are both plain lists of statements
in source order. As for expressions, structural equality is order-sensitive
and `Stmt.beq` decides it (`Stmt.beq_iff`).
-/

namespace ScriptLang

/-- A statement. -/
inductive Stmt
  /-- A declaration without a value: `var a: Int`. -/
  | declare (name : String) (ty : Option Ty) (readOnly : Bool)
  /-- The declaration `val a = 1` when `isNew`, otherwise the plain `a = 1`. -/
  | assign (name : String) (value : Expr) (ty : Option Ty) (isNew readOnly : Bool)
  | compound (name : String) (op : CompoundOp) (value : Expr)
  /-- A conditional without an alternative. -/
  | ifThen (condition : Expr) (thenBlock : List Stmt)
  | ifElse (condition : Expr) (thenBlock elseBlock : List Stmt)
  | forIn (name : String) (source : Expr) (body : List Stmt)
  | whileLoop (condition : Expr) (body : List Stmt)
  | block (body : List Stmt)
  | control (control : LoopControl)
  /-- A function declaration `fun name(a: T, b: U): R { ... }`. -/
  | function (name : String) (parameters : List (String × Ty)) (result : Ty)
      (body : List Stmt)
  | returns (value : Expr)
  | call (callee : String) (arguments : List Expr)
  /-- A step `++a` or `--a` when `before`, otherwise `a++` or `a--`. -/
  | step (name : String) (op : StepOp) (before : Bool)
  | output (form : Output) (value : Expr)

/-- The statements between a pair of braces. -/
abbrev Block := List Stmt

/-- The top level of a source text. -/
abbrev Program := List Stmt

/-- A function declaration on its own. -/
structure FunctionDecl where
  name : String
  parameters : List (String × Ty)
  result : Ty
  body : Block

/-- A function declaration as a statement. -/
def FunctionDecl.toStmt (f : FunctionDecl) : Stmt :=
  .function f.name f.parameters f.result f.body

namespace Stmt

mutual

/-- Structural equality of statements. -/
def beq : Stmt → Stmt → Bool
  | .declare a t r, .declare b u s => a == b && t == u && r == s
  | .assign a x t n r, .assign b y u m s => a == b && x == y && t == u && n == m && r == s
  | .compound a op x, .compound b op' y => a == b && op == op' && x == y
  | .ifThen a b, .ifThen c d => a == c && beqBlock b d
  | .ifElse a b c, .ifElse d e f => a == d && beqBlock b e && beqBlock c f
  | .forIn a x b, .forIn c y d => a == c && x == y && beqBlock b d
  | .whileLoop a b, .whileLoop c d => a == c && beqBlock b d
  | .block a, .block b => beqBlock a b
  | .control a, .control b => a == b
  | .function a ps r b, .function c qs s d => a == c && ps == qs && r == s && beqBlock b d
  | .returns a, .returns b => a == b
  | .call a xs, .call b ys => a == b && xs == ys
  | .step a op p, .step b op' q => a == b && op == op' && p == q
  | .output a x, .output b y => a == b && x == y
  | _, _ => false

/-- Structural equality of blocks. -/
def beqBlock : List Stmt → List Stmt → Bool
  | [], [] => true
  | a :: as, b :: bs => beq a b && beqBlock as bs
  | _, _ => false

end

mutual

/-- The function `beq` decides equality. -/
theorem beq_iff : ∀ a b : Stmt, beq a b = true ↔ a = b
  | .declare .., b => by cases b <;> simp [beq, and_assoc]
  | .assign .., b => by cases b <;> simp [beq, and_assoc]
  | .compound .., b => by cases b <;> simp [beq, and_assoc]
  | .ifThen _ t, b => by cases b <;> simp [beq, beqBlock_iff t]
  | .ifElse _ t e, b => by cases b <;> simp [beq, beqBlock_iff t, beqBlock_iff e, and_assoc]
  | .forIn _ _ body, b => by cases b <;> simp [beq, beqBlock_iff body, and_assoc]
  | .whileLoop _ body, b => by cases b <;> simp [beq, beqBlock_iff body]
  | .block body, b => by cases b <;> simp [beq, beqBlock_iff body]
  | .control _, b => by cases b <;> simp [beq]
  | .function _ _ _ body, b => by cases b <;> simp [beq, beqBlock_iff body, and_assoc]
  | .returns _, b => by cases b <;> simp [beq]
  | .call _ _, b => by cases b <;> simp [beq]
  | .step .., b => by cases b <;> simp [beq, and_assoc]
  | .output _ _, b => by cases b <;> simp [beq]

/-- The function `beqBlock` decides equality. -/
theorem beqBlock_iff : ∀ as bs : List Stmt, beqBlock as bs = true ↔ as = bs
  | [], bs => by cases bs <;> simp [beqBlock]
  | a :: as, bs => by cases bs <;> simp [beqBlock, beq_iff a, beqBlock_iff as]

end

instance : DecidableEq Stmt := fun a b => decidable_of_iff _ (beq_iff a b)

end Stmt

instance : DecidableEq FunctionDecl := fun f g =>
  decidable_of_iff
    (f.name = g.name ∧ f.parameters = g.parameters ∧ f.result = g.result ∧ f.body = g.body)
    (by cases f; cases g; simp)

end ScriptLang
