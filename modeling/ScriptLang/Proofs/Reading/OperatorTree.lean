import ScriptLang.Syntax.Expr
import ScriptLang.Token.Basic

/-!
# Operator trees

How a sequence of operands with operators between them groups into a binary
tree, apart from how it is read. A tree is `Ordered` if no operator stands
below one that binds more tightly: on its left an operator of the same level
may stand, on its right none. A sequence has exactly one ordered tree
(`Ordered.eq_grow`), and `grow` builds it by attaching one operand after
another at the right edge.

The operands are left abstract.
-/

namespace ScriptLang

/-! ## Operators between operands -/

/-- An operator that stands between two operands. -/
inductive Joint
  | binary (op : BinaryOp)
  | range
  deriving DecidableEq

namespace Joint

def token : Joint → Token
  | .binary op => .infixMark (.binary op)
  | .range => .symbol .dotDot

/-- The tree that the operator makes of its operands. -/
def apply : Joint → Expr → Expr → Expr
  | .binary op, left, right => .binary left op right
  | .range, left, right => .range left right

/-- How tightly the operator binds, loosest first: logical operators,
comparisons, ranges, additive and multiplicative operators. -/
def level : Joint → Nat
  | .binary (.logical _) => 1
  | .binary (.comparison _) => 2
  | .range => 3
  | .binary (.arithmetic .plus) => 4
  | .binary (.arithmetic .minus) => 4
  | .binary (.arithmetic .multiply) => 5
  | .binary (.arithmetic .divide) => 5
  | .binary (.arithmetic .modulo) => 5

end Joint

/-! ## Trees -/

/-- A binary tree of operators over operands. -/
inductive OperatorTree (α : Type)
  | leaf (x : α)
  | node (left : OperatorTree α) (o : Joint) (right : OperatorTree α)

namespace OperatorTree

variable {α : Type}

/-- The first operand in reading order. -/
def first : OperatorTree α → α
  | .leaf x => x
  | .node left _ _ => left.first

/-- The operators in reading order, each with the operand behind it. -/
def later : OperatorTree α → List (Joint × α)
  | .leaf _ => []
  | .node left o right => left.later ++ (o, right.first) :: right.later

/-- The operator at the root; an operand has none. -/
def root? : OperatorTree α → Option Joint
  | .leaf _ => none
  | .node _ o _ => some o

/-- The expression that the tree stands for. -/
def expr (operand : α → Expr) : OperatorTree α → Expr
  | .leaf x => operand x
  | .node left o right => o.apply (left.expr operand) (right.expr operand)

/-- Operators of one level group to the left, and tighter ones first. -/
def Ordered : OperatorTree α → Prop
  | .leaf _ => True
  | .node left o right => left.Ordered ∧ right.Ordered ∧
    (∀ o' ∈ left.root?, o.level ≤ o'.level) ∧ ∀ o' ∈ right.root?, o.level < o'.level

/-! ## The ordered tree of a sequence -/

/-- Attaches an operator and an operand at the right edge, above every operator
that binds at least as tightly. -/
def attach (o : Joint) (y : α) : OperatorTree α → OperatorTree α
  | .leaf x => .node (.leaf x) o (.leaf y)
  | .node left o' right =>
    if o.level ≤ o'.level then .node (.node left o' right) o (.leaf y)
    else .node left o' (right.attach o y)

/-- The tree with a sequence of operators and operands attached. -/
def grow (t : OperatorTree α) (later : List (Joint × α)) : OperatorTree α :=
  later.foldl (fun t p => t.attach p.1 p.2) t

variable {t left right : OperatorTree α} {o : Joint} {y : α} {k : Nat}

@[simp] theorem grow_nil (t : OperatorTree α) : t.grow [] = t := rfl

theorem grow_cons (t : OperatorTree α) (p : Joint × α) (later : List (Joint × α)) :
    t.grow (p :: later) = (t.attach p.1 p.2).grow later := rfl

theorem grow_append (t : OperatorTree α) (a b : List (Joint × α)) :
    t.grow (a ++ b) = (t.grow a).grow b :=
  List.foldl_append

theorem first_attach (o : Joint) (y : α) (t : OperatorTree α) :
    (t.attach o y).first = t.first := by
  cases t with
  | leaf x => rfl
  | node left o' right =>
      rw [attach]
      split <;> rfl

theorem later_attach (o : Joint) (y : α) (t : OperatorTree α) :
    (t.attach o y).later = t.later ++ [(o, y)] := by
  induction t with
  | leaf x => rfl
  | node left o' right _ ih =>
      rw [attach]
      split
      · rfl
      · simp [later, ih, first_attach]

theorem first_grow (t : OperatorTree α) (later : List (Joint × α)) :
    (t.grow later).first = t.first := by
  induction later generalizing t with
  | nil => rfl
  | cons p later ih => rw [grow_cons, ih, first_attach]

theorem later_grow (t : OperatorTree α) (later : List (Joint × α)) :
    (t.grow later).later = t.later ++ later := by
  induction later generalizing t with
  | nil => simp
  | cons p later ih =>
      rw [grow_cons, ih, later_attach]
      simp

/-- The root after attaching is the new operator or the old root. -/
theorem root?_attach {o' : Joint} (h : o' ∈ (t.attach o y).root?) : o' = o ∨ o' ∈ t.root? := by
  cases t with
  | leaf x => exact .inl (Option.some.inj h).symm
  | node left p right =>
      rw [attach] at h
      split at h
      · exact .inl (Option.some.inj h).symm
      · exact .inr h

theorem Ordered.attach (h : t.Ordered) (o : Joint) (y : α) : (t.attach o y).Ordered := by
  induction t with
  | leaf x => exact ⟨trivial, trivial, nofun, nofun⟩
  | node left p right _ ih =>
      rw [OperatorTree.attach]
      split
      · rename_i hLevel
        refine ⟨h, trivial, ?_, nofun⟩
        intro o' hRoot
        rwa [← Option.some.inj hRoot]
      · rename_i hLevel
        obtain ⟨hLeft, hRight, hLeftRoot, hRightRoot⟩ := h
        refine ⟨hLeft, ih hRight, hLeftRoot, ?_⟩
        intro o' hRoot
        rcases root?_attach hRoot with rfl | hOld
        · exact Nat.lt_of_not_le hLevel
        · exact hRightRoot o' hOld

theorem Ordered.grow (h : t.Ordered) (later : List (Joint × α)) : (t.grow later).Ordered := by
  induction later generalizing t with
  | nil => exact h
  | cons p later ih => exact ih (h.attach p.1 p.2)

/-! ## There is no other -/

/-- The root of an ordered tree binds loosest. -/
theorem Ordered.level_le (h : t.Ordered) (hRoot : ∀ o ∈ t.root?, k ≤ o.level) :
    ∀ p ∈ t.later, k ≤ p.1.level := by
  induction t with
  | leaf x => exact nofun
  | node left o right ihLeft ihRight =>
      obtain ⟨hLeft, hRight, hLeftRoot, hRightRoot⟩ := h
      have hLevel : k ≤ o.level := hRoot o rfl
      intro p hp
      rcases List.mem_append.1 hp with hIn | hIn
      · exact ihLeft hLeft (fun o' ho' => Nat.le_trans hLevel (hLeftRoot o' ho')) p hIn
      · rcases List.mem_cons.1 hIn with rfl | hIn
        · exact hLevel
        · have hBound : ∀ o' ∈ right.root?, k ≤ o'.level := fun o' ho' =>
            Nat.le_trans hLevel (Nat.le_of_lt (hRightRoot o' ho'))
          exact ihRight hRight hBound p hIn

/-- Behind an operator that binds more loosely than all that follow, a tree
grows on the right. -/
theorem grow_node {later : List (Joint × α)} (h : ∀ p ∈ later, o.level < p.1.level) :
    (node left o right).grow later = node left o (right.grow later) := by
  induction later generalizing right with
  | nil => rfl
  | cons p later ih =>
      have hLevel : ¬ p.1.level ≤ o.level := Nat.not_le.2 (h p (by simp))
      rw [grow_cons, attach, if_neg hLevel, grow_cons]
      exact ih fun q hq => h q (by simp [hq])

/-- Above operators that all bind at least as tightly, a tree grows at the root. -/
theorem attach_eq_node (h : ∀ o' ∈ t.root?, o.level ≤ o'.level) :
    t.attach o y = node t o (leaf y) := by
  cases t with
  | leaf x => rfl
  | node left o' right => rw [attach, if_pos (h o' rfl)]

/-- An ordered tree is the one that grows from its sequence. -/
theorem Ordered.eq_grow (h : t.Ordered) : t = (leaf t.first).grow t.later := by
  induction t with
  | leaf x => rfl
  | node left o right ihLeft ihRight =>
      obtain ⟨hLeft, hRight, hLeftRoot, hRightRoot⟩ := h
      have hTighter : ∀ p ∈ right.later, o.level < p.1.level := hRight.level_le hRightRoot
      calc node left o right
          = node left o ((leaf right.first).grow right.later) := by rw [← ihRight hRight]
        _ = (node left o (leaf right.first)).grow right.later := (grow_node hTighter).symm
        _ = (left.attach o right.first).grow right.later := by rw [attach_eq_node hLeftRoot]
        _ = (((leaf left.first).grow left.later).attach o right.first).grow right.later := by
            rw [← ihLeft hLeft]
        _ = (leaf left.first).grow (left.later ++ (o, right.first) :: right.later) := by
            rw [grow_append, grow_cons]

end OperatorTree

end ScriptLang
