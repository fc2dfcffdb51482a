import ScriptLang.Proofs.Printing.PlainText
import ScriptLang.Syntax.Stmt

/-!
# Trees that can be printed

The canonical printer leaves out splices, and it prints a plain assignment as a
name with a value. So it can only be inverted on trees whose texts are plain and
whose plain assignments have neither a type nor a mark that they are read-only.
`Expr.Plain` and `Canonical` say so, by way of two traversals: `Expr.EveryText`
asks for a property of every string node, `Stmt.Every` of every statement.
-/

namespace ScriptLang

/-! ## Expressions -/

mutual

/-- A property of the remainder and the splices of every string node, apart from
those inside of splices. -/
def Expr.EveryText (P : String → List (Nat × Expr) → Prop) : Expr → Prop
  | .int _ | .boolean _ | .var _ | .step _ _ _ => True
  | .text remainder splices => P remainder splices
  | .binary left _ right => left.EveryText P ∧ right.EveryText P
  | .not operand => operand.EveryText P
  | .ifThen condition thenBranch => condition.EveryText P ∧ thenBranch.EveryText P
  | .ifElse condition thenBranch elseBranch =>
    condition.EveryText P ∧ thenBranch.EveryText P ∧ elseBranch.EveryText P
  | .range first last => first.EveryText P ∧ last.EveryText P
  | .generate _ size _ body => size.EveryText P ∧ body.EveryText P
  | .literal _ items => Expr.EveryTextIn P items
  | .lambda _ body => body.EveryText P
  | .call _ arguments => Expr.EveryTextIn P arguments
  | .index _ inside => inside.EveryText P

/-- The property of every string node of some expressions. -/
def Expr.EveryTextIn (P : String → List (Nat × Expr) → Prop) : List Expr → Prop
  | [] => True
  | e :: es => e.EveryText P ∧ Expr.EveryTextIn P es

end

namespace Expr

/-- No string node of the expression has a splice. -/
def NoSplices (e : Expr) : Prop := e.EveryText fun _ splices => splices = []

/-- Every string node of the expression is a plain text. -/
def Plain (e : Expr) : Prop :=
  e.EveryText fun remainder splices => splices = [] ∧ PlainText remainder

theorem everyTextIn_iff {P : String → List (Nat × Expr) → Prop} {es : List Expr} :
    EveryTextIn P es ↔ ∀ e ∈ es, e.EveryText P := by
  induction es with
  | nil => simp [EveryTextIn]
  | cons e es ih => simp [EveryTextIn, ih]

variable {P Q R : String → List (Nat × Expr) → Prop}

mutual

/-- Two properties of every string node give a third, if they do at each. -/
theorem everyText_of (hPQR : ∀ t splices, P t splices → Q t splices → R t splices) :
    ∀ e : Expr, e.EveryText P → e.EveryText Q → e.EveryText R
  | .int _, _, _ | .boolean _, _, _ | .var _, _, _ | .step _ _ _, _, _ => trivial
  | .text _ _, hP, hQ => hPQR _ _ hP hQ
  | .binary l _ r, hP, hQ => ⟨everyText_of hPQR l hP.1 hQ.1, everyText_of hPQR r hP.2 hQ.2⟩
  | .not a, hP, hQ => everyText_of hPQR a hP hQ
  | .ifThen c t, hP, hQ => ⟨everyText_of hPQR c hP.1 hQ.1, everyText_of hPQR t hP.2 hQ.2⟩
  | .ifElse c t e, hP, hQ =>
    ⟨everyText_of hPQR c hP.1 hQ.1, everyText_of hPQR t hP.2.1 hQ.2.1,
      everyText_of hPQR e hP.2.2 hQ.2.2⟩
  | .range a b, hP, hQ => ⟨everyText_of hPQR a hP.1 hQ.1, everyText_of hPQR b hP.2 hQ.2⟩
  | .generate _ s _ b, hP, hQ => ⟨everyText_of hPQR s hP.1 hQ.1, everyText_of hPQR b hP.2 hQ.2⟩
  | .literal _ es, hP, hQ => everyTextIn_of hPQR es hP hQ
  | .lambda _ b, hP, hQ => everyText_of hPQR b hP hQ
  | .call _ es, hP, hQ => everyTextIn_of hPQR es hP hQ
  | .index _ i, hP, hQ => everyText_of hPQR i hP hQ

theorem everyTextIn_of (hPQR : ∀ t splices, P t splices → Q t splices → R t splices) :
    ∀ es : List Expr, EveryTextIn P es → EveryTextIn Q es → EveryTextIn R es
  | [], _, _ => trivial
  | e :: es, hP, hQ => ⟨everyText_of hPQR e hP.1 hQ.1, everyTextIn_of hPQR es hP.2 hQ.2⟩

end

end Expr

/-! ## Statements -/

namespace Stmt

/-- The expressions of a statement, apart from those of the statements inside. -/
def expressions : Stmt → List Expr
  | .assign _ value _ _ _ | .compound _ _ value | .returns value | .output _ value => [value]
  | .ifThen condition _ | .ifElse condition _ _ | .whileLoop condition _ => [condition]
  | .forIn _ source _ => [source]
  | .call _ arguments => arguments
  | .declare _ _ _ | .block _ | .control _ | .function _ _ _ _ | .step _ _ _ => []

/-- A plain assignment has neither a type nor a mark that it is read-only. -/
def PlainAssign : Stmt → Prop
  | .assign _ _ ty isNew readOnly => isNew = true ∨ (ty = none ∧ readOnly = false)
  | _ => True

mutual

/-- A property of a statement and of every statement inside. -/
def Every (P : Stmt → Prop) : Stmt → Prop
  | .ifThen condition thenBlock => P (.ifThen condition thenBlock) ∧ EveryIn P thenBlock
  | .ifElse condition thenBlock elseBlock =>
    P (.ifElse condition thenBlock elseBlock) ∧ EveryIn P thenBlock ∧ EveryIn P elseBlock
  | .forIn name source body => P (.forIn name source body) ∧ EveryIn P body
  | .whileLoop condition body => P (.whileLoop condition body) ∧ EveryIn P body
  | .block body => P (.block body) ∧ EveryIn P body
  | .function name parameters result body =>
    P (.function name parameters result body) ∧ EveryIn P body
  | s => P s

/-- The property of every statement in a list and inside of one. -/
def EveryIn (P : Stmt → Prop) : List Stmt → Prop
  | [] => True
  | s :: ss => s.Every P ∧ EveryIn P ss

end

variable {P Q R : Stmt → Prop}

mutual

theorem every_of (hPQR : ∀ s, P s → Q s → R s) : ∀ s : Stmt, s.Every P → s.Every Q → s.Every R
  | .ifThen _ b, hP, hQ => ⟨hPQR _ hP.1 hQ.1, everyIn_of hPQR b hP.2 hQ.2⟩
  | .ifElse _ b b', hP, hQ => ⟨hPQR _ hP.1 hQ.1, everyIn_of hPQR b hP.2.1 hQ.2.1,
      everyIn_of hPQR b' hP.2.2 hQ.2.2⟩
  | .forIn _ _ b, hP, hQ => ⟨hPQR _ hP.1 hQ.1, everyIn_of hPQR b hP.2 hQ.2⟩
  | .whileLoop _ b, hP, hQ => ⟨hPQR _ hP.1 hQ.1, everyIn_of hPQR b hP.2 hQ.2⟩
  | .block b, hP, hQ => ⟨hPQR _ hP.1 hQ.1, everyIn_of hPQR b hP.2 hQ.2⟩
  | .function _ _ _ b, hP, hQ => ⟨hPQR _ hP.1 hQ.1, everyIn_of hPQR b hP.2 hQ.2⟩
  | .declare _ _ _, hP, hQ | .assign _ _ _ _ _, hP, hQ | .compound _ _ _, hP, hQ
  | .control _, hP, hQ | .returns _, hP, hQ | .call _ _, hP, hQ | .step _ _ _, hP, hQ
  | .output _ _, hP, hQ => hPQR _ hP hQ

theorem everyIn_of (hPQR : ∀ s, P s → Q s → R s) :
    ∀ ss : List Stmt, EveryIn P ss → EveryIn Q ss → EveryIn R ss
  | [], _, _ => trivial
  | s :: ss, hP, hQ => ⟨every_of hPQR s hP.1 hQ.1, everyIn_of hPQR ss hP.2 hQ.2⟩

end

/-- No string node of the statement's own expressions has a splice. -/
def NoSplicesHere (s : Stmt) : Prop := ∀ e ∈ s.expressions, e.NoSplices

/-- The statement's own texts are plain, and it is plain as an assignment. -/
def PlainHere (s : Stmt) : Prop := (∀ e ∈ s.expressions, e.Plain) ∧ s.PlainAssign

end Stmt

/-- No string node of the program has a splice. -/
def NoSplices (p : Program) : Prop := Stmt.EveryIn Stmt.NoSplicesHere p

/-- The texts of the program are plain, and so are its plain assignments. -/
def Canonical (p : Program) : Prop := Stmt.EveryIn Stmt.PlainHere p

end ScriptLang
