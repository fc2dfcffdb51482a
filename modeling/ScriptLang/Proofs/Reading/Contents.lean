import ScriptLang.Proofs.Printing.PlainText
import ScriptLang.Proofs.Reading.Input

/-!
# The contents of tokens and of trees

Brackets, keywords, separators and the marks of a declaration only give a text
its shape. The other tokens have contents that end up in the tree: integers,
truth values, names, texts, type words and operators. `contents` takes the
contents out of a list of tokens, and `Expr.contents`, `Stmt.contents` walk a
tree in source order.

A derivation takes the contents of its tokens into its tree one by one
(`Phrase.Derives.contents_eq`, `Clause.Derives.contents_eq`): none is lost, none
is used twice, and none changes its place. What is read a second time after a
failed parameter list, or looked at behind line breaks for an `else`, leaves no
trace in a derivation.

## Main results

* `contents_of_read` : a program, a statement and an expression have the
  contents of the tokens that they are read from.
-/

namespace ScriptLang

/-! ## Contents -/

/-- What a token contributes to the tree. -/
inductive Content
  | int (value : Int)
  | truth (value : Bool)
  | name (name : String)
  /-- The string node of a literal, if its template is read. -/
  | text (node : Except ParseError Expr)
  | typeWord (word : TypeWord)
  | binary (op : BinaryOp)
  | compound (op : CompoundOp)
  | range
  | not
  | step (op : StepOp)

/-- The content of a token. Where a literal stands matters to the error of a
template only, so the node is the one that it gives at the start. -/
def Token.content? : Token → Option Content
  | .int value => some (.int value)
  | .keyword (.truth value) => some (.truth value)
  | .name n => some (.name n)
  | .text literal => some (.text (parseTemplate literal 0))
  | .typeWord word => some (.typeWord word)
  | .infixMark (.binary op) => some (.binary op)
  | .infixMark (.compound op) => some (.compound op)
  | .symbol .dotDot => some .range
  | .unaryMark .not => some .not
  | .unaryMark (.step op) => some (.step op)
  | _ => none

/-- The contents of tokens, in their order. -/
def contents (ts : List Token) : List Content := ts.filterMap Token.content?

@[simp] theorem contents_nil : contents [] = [] := rfl

@[simp] theorem contents_cons (t : Token) (ts : List Token) :
    contents (t :: ts) = t.content?.toList ++ contents ts := by
  cases hContent : t.content? <;> simp [contents, hContent]

@[simp] theorem contents_append (us ts : List Token) :
    contents (us ++ ts) = contents us ++ contents ts :=
  List.filterMap_append

/-! ## Trees in source order -/

mutual

/-- The contents of a type: parameters before the result. -/
def Ty.contents : Ty → List Content
  | .basic kind => [.typeWord (.basic kind)]
  | .collection kind element => [.typeWord (.collection kind), .typeWord (.basic element)]
  | .function parameters result => Ty.listContents parameters ++ result.contents

/-- The contents of types, one after the other. -/
def Ty.listContents : List Ty → List Content
  | [] => []
  | ty :: tys => ty.contents ++ Ty.listContents tys

end

/-- The contents of an optional annotation. -/
def annotationContents (ty? : Option Ty) : List Content := ty?.elim [] Ty.contents

/-- The contents of the parameters of a lambda: each name before its type. -/
def lambdaParameterContents (parameters : List (String × Option Ty)) : List Content :=
  parameters.flatMap fun parameter => .name parameter.1 :: annotationContents parameter.2

/-- The contents of the parameters of a function: each name before its type. -/
def functionParameterContents (parameters : List (String × Ty)) : List Content :=
  parameters.flatMap fun parameter => .name parameter.1 :: parameter.2.contents

mutual

/-- The contents of an expression: the left operand before the operator and the
right one, a name before its arguments, a constructor before the size and the
initializer. A string node is one content with all its splices. -/
def Expr.contents : Expr → List Content
  | .int value => [.int value]
  | .boolean value => [.truth value]
  | .text remainder splices => [.text (.ok (.text remainder splices))]
  | .var name => [.name name]
  | .binary left op right => left.contents ++ .binary op :: right.contents
  | .not operand => .not :: operand.contents
  | .step name op true => [.step op, .name name]
  | .step name op false => [.name name, .step op]
  | .ifThen condition thenBranch => condition.contents ++ thenBranch.contents
  | .ifElse condition thenBranch elseBranch =>
    condition.contents ++ (thenBranch.contents ++ elseBranch.contents)
  | .range first last => first.contents ++ .range :: last.contents
  | .generate kind size parameters body =>
    .typeWord (.collection kind) ::
      (size.contents ++ (lambdaParameterContents parameters ++ body.contents))
  | .literal _ items => Expr.listContents items
  | .lambda parameters body => lambdaParameterContents parameters ++ body.contents
  | .call callee arguments => .name callee :: Expr.listContents arguments
  | .index name inside => .name name :: inside.contents

/-- The contents of expressions, one after the other. -/
def Expr.listContents : List Expr → List Content
  | [] => []
  | e :: es => e.contents ++ Expr.listContents es

end

mutual

/-- The contents of a statement: a target before the operator and the value, a
loop variable before its source and the body, parameters before the result and
the body. -/
def Stmt.contents : Stmt → List Content
  | .declare name ty? _ => .name name :: annotationContents ty?
  | .assign name value ty? _ _ => .name name :: (annotationContents ty? ++ value.contents)
  | .compound name op value => .name name :: .compound op :: value.contents
  | .ifThen condition thenBlock => condition.contents ++ Stmt.blockContents thenBlock
  | .ifElse condition thenBlock elseBlock =>
    condition.contents ++ (Stmt.blockContents thenBlock ++ Stmt.blockContents elseBlock)
  | .forIn name source body => .name name :: (source.contents ++ Stmt.blockContents body)
  | .whileLoop condition body => condition.contents ++ Stmt.blockContents body
  | .block body => Stmt.blockContents body
  | .control _ => []
  | .function name parameters result body =>
    .name name ::
      (functionParameterContents parameters ++ (result.contents ++ Stmt.blockContents body))
  | .returns value => value.contents
  | .call callee arguments => (Expr.call callee arguments).contents
  | .step name op before => (Expr.step name op before).contents
  | .output _ value => value.contents

/-- The contents of statements, one after the other. -/
def Stmt.blockContents : List Stmt → List Content
  | [] => []
  | s :: ss => s.contents ++ Stmt.blockContents ss

end

/-! ## What is spelled -/

/-- Separators have no contents, and so have line breaks. -/
theorem contents_separators {q : List Token} (hq : Separators q) : contents q = [] := by
  rw [contents, List.filterMap_eq_nil_iff]
  intro t ht
  have hSeparator := hq t ht
  unfold Token.isSeparator at hSeparator
  split at hSeparator
  · rfl
  · rfl
  · exact absurd hSeparator nofun

@[simp] theorem contents_breaks (n : Nat) : contents (breaks n) = [] :=
  contents_separators (separators_breaks n)

mutual

theorem Ty.contents_tokens : ∀ ty : Ty, ScriptLang.contents ty.tokens = ty.contents
  | .basic _ => rfl
  | .collection _ _ => rfl
  | .function parameters result => by
      rw [Ty.tokens, Ty.contents]
      simp [Token.content?, Ty.contents_listTokens parameters, Ty.contents_tokens result]

theorem Ty.contents_listTokens :
    ∀ tys : List Ty, ScriptLang.contents (Ty.listTokens tys) = Ty.listContents tys
  | [] => rfl
  | ty :: tys => by
      rw [Ty.listTokens, Ty.listContents, contents_append, Ty.contents_tokens ty,
        Ty.contents_moreTokens tys]

theorem Ty.contents_moreTokens :
    ∀ tys : List Ty, ScriptLang.contents (Ty.moreTokens tys) = Ty.listContents tys
  | [] => rfl
  | ty :: tys => by
      rw [Ty.moreTokens, Ty.listContents]
      simp [Token.content?, Ty.contents_tokens ty, Ty.contents_moreTokens tys]

end

/-- Commas have no contents, so a list has the contents of its items. -/
theorem contents_listed {α : Type} {spell : α → List Token} {inside : α → List Content}
    (hSpell : ∀ a, contents (spell a) = inside a) (as : List α) :
    contents (listed spell as) = as.flatMap inside := by
  have hMore : ∀ as : List α, contents (listedMore spell as) = as.flatMap inside := by
    intro as
    induction as with
    | nil => rfl
    | cons a as ih =>
        rw [listedMore, List.flatMap_cons, contents_append, contents_cons, hSpell,
          List.flatMap_cons]
        rw [listedMore] at ih
        rw [ih]
        rfl
  cases as with
  | nil => rfl
  | cons a as => rw [listed, contents_append, hSpell, hMore, List.flatMap_cons]

theorem contents_annotation (ty? : Option Ty) :
    contents (annotationTokens ty?) = annotationContents ty? := by
  cases ty? with
  | none => rfl
  | some ty => exact ty.contents_tokens

theorem contents_parameterList (parameters : List (String × Option Ty)) :
    contents (parameterListTokens parameters) = lambdaParameterContents parameters := by
  have hSpell : ∀ parameter : String × Option Ty, contents (parameterTokens parameter) =
      .name parameter.1 :: annotationContents parameter.2 := by
    intro parameter
    rw [parameterTokens, contents_cons, contents_annotation]
    rfl
  rw [parameterListTokens, contents_append, contents_listed hSpell, lambdaParameterContents]
  exact List.append_nil _

theorem contents_functionParameters (parameters : List (String × Ty)) :
    contents (listed functionParameterTokens parameters) =
      functionParameterContents parameters := by
  refine contents_listed (fun parameter => ?_) parameters
  rw [functionParameterTokens, contents_cons, contents_cons, Ty.contents_tokens]
  rfl

/-- The content of a literal is the node that its template was read as. -/
theorem content?_text {literal : String} {position : Nat} {e : Expr}
    (hText : Template.parse embedded literal position = .ok e) :
    (Token.text literal).content?.toList = e.contents := by
  obtain ⟨remainder, splices, rfl, -⟩ := Template.text_of_parse hText
  have hStart : parseTemplate literal 0 = .ok (.text remainder splices) :=
    template_position hText 0
  rw [Token.content?, hStart, Expr.contents]
  rfl

/-! ## Expressions -/

/-- The contents that a phrase had before it was read. Only a climb has any:
those of its left operand. -/
def Phrase.before : Phrase → List Content
  | .climb _ left _ => left.contents
  | _ => []

/-- The contents of a phrase. -/
def Phrase.contents : Phrase → List Content
  | .operand e | .expr _ e | .climb _ _ e | .enclosed _ e | .branch e => e.contents
  | .lambda fn => lambdaParameterContents fn.parameters ++ fn.body.contents
  | .arguments es | .moreArguments es => Expr.listContents es

/-- The tokens that a phrase takes have the contents that it gains. -/
theorem Phrase.Derives.contents_eq {ph : Phrase} {ts rest : List Token}
    (h : ph.Derives embedded ts rest) :
    ph.before ++ ScriptLang.contents ts = ph.contents ++ ScriptLang.contents rest := by
  induction h with
  | text hText => rw [contents_cons, content?_text hText]; rfl
  | int | truth | name | step => rfl
  | stop => rfl
  | argumentsNone | moreClose =>
      simp [before, Phrase.contents, Expr.listContents, Token.content?]
  | lambdaOperand _ ih | branchBare _ _ ih => exact ih
  | negation _ ih | grouping _ ih | literal _ ih | enclosed _ ih | branchBraced _ ih =>
      simpa [before, Phrase.contents, Expr.contents, Token.content?] using ih
  | lambdaBare _ ih =>
      simpa [before, Phrase.contents, lambdaParameterContents, Token.content?] using ih
  | lambdaParameters _ ih =>
      simp only [before, Phrase.contents, List.nil_append] at ih ⊢
      simp [contents_parameterList, ih, Token.content?]
  | ifThen _ _ _ ihCondition ihThen =>
      simp only [before, Phrase.contents, List.nil_append] at ihCondition ihThen ⊢
      simp [ihCondition, ihThen, Expr.contents, Token.content?]
  | ifElse _ _ _ ihCondition ihThen ihElse =>
      simp only [before, Phrase.contents, List.nil_append] at ihCondition ihThen ihElse ⊢
      simp [ihCondition, ihThen, ihElse, Expr.contents, Token.content?]
  | generateInside _ _ ihSize ihLambda | generateBehind _ _ ihSize ihLambda =>
      simp only [before, Phrase.contents, List.nil_append] at ihSize ihLambda ⊢
      simp [ihSize, ihLambda, Expr.contents, Token.content?]
  | argumentsSome _ _ ihFirst ihMore | moreNext _ _ ihFirst ihMore =>
      simp only [before, Phrase.contents, List.nil_append] at ihFirst ihMore ⊢
      simp [ihFirst, ihMore, Expr.listContents, Token.content?]
  | expr _ _ ihLeft ihClimb =>
      simp only [before, Phrase.contents, List.nil_append] at ihLeft ihClimb ⊢
      rw [ihLeft, ihClimb]
  | binary _ _ _ ihRight ihClimb | range _ _ _ ihRight ihClimb =>
      simp only [before, Phrase.contents, List.nil_append] at ihRight ihClimb ⊢
      rw [← ihClimb]
      simp [ihRight, Expr.contents, Token.content?]
  | stepBehind _ _ ihClimb =>
      simp only [before, Phrase.contents] at ihClimb ⊢
      rw [← ihClimb]
      rfl
  | call _ _ _ ihInside ihClimb | index _ _ _ ihInside ihClimb =>
      simp only [before, Phrase.contents, List.nil_append] at ihInside ihClimb ⊢
      rw [← ihClimb]
      simp [ihInside, Expr.contents, Token.content?]

theorem contents_expr {power : Power} {e : Expr} {ts rest : List Token}
    (h : (Phrase.expr power e).Derives embedded ts rest) :
    contents ts = e.contents ++ contents rest :=
  h.contents_eq

/-! ## Statements -/

/-- The contents of a clause. -/
def Clause.contents : Clause → List Content
  | .stmt s => s.contents
  | .block ss | .body ss | .sequence ss => Stmt.blockContents ss

/-- The tokens that a clause takes have its contents. -/
theorem Clause.Derives.contents_eq {cl : Clause} {ts rest : List Token} (h : cl.Derives ts rest) :
    ScriptLang.contents ts = cl.contents ++ ScriptLang.contents rest := by
  induction h with
  | declare =>
      simp [Clause.contents, Stmt.contents, contents_annotation, Token.content?]
  | init hValue =>
      simp [contents_expr hValue, Clause.contents, Stmt.contents, contents_annotation,
        Token.content?]
  | assign hValue =>
      simp [contents_expr hValue, Clause.contents, Stmt.contents, annotationContents,
        Token.content?]
  | compound hValue | returns hValue =>
      simp [contents_expr hValue, Clause.contents, Stmt.contents, Token.content?]
  | call _ hExpr | step _ hExpr => exact contents_expr hExpr
  | output hValue =>
      have hInside : ScriptLang.contents _ = _ := hValue.contents_eq
      simp [hInside, Phrase.contents, Clause.contents, Stmt.contents, Token.content?]
  | ifThen hCondition _ _ ih =>
      simp only [Clause.contents] at ih ⊢
      simp [contents_expr hCondition, ih, Stmt.contents, Token.content?]
  | ifElse hCondition _ _ ihThen ihElse =>
      simp only [Clause.contents] at ihThen ihElse ⊢
      simp [contents_expr hCondition, ihThen, ihElse, Stmt.contents, Token.content?]
  | forIn hSource _ ih =>
      simp only [Clause.contents] at ih ⊢
      simp [contents_expr hSource, ih, Stmt.contents, Token.content?]
  | whileLoop hCondition _ ih =>
      simp only [Clause.contents] at ih ⊢
      simp [contents_expr hCondition, ih, Stmt.contents, Token.content?]
  | control => rfl
  | function _ ih =>
      simp only [Clause.contents] at ih ⊢
      simp [contents_functionParameters, Ty.contents_tokens, ih, Stmt.contents, Token.content?]
  | block _ ih => exact ih
  | braces _ ih => simpa [Clause.contents, Token.content?] using ih
  | bodyBlock _ ih => simpa [Clause.contents] using ih
  | bodySingle _ _ ih => simpa [Clause.contents, Stmt.blockContents] using ih
  | empty hBefore =>
      simp [contents_separators hBefore, Clause.contents, Stmt.blockContents]
  | last hBefore _ ih =>
      simpa [contents_separators hBefore, Clause.contents, Stmt.blockContents] using ih
  | @next _ _ _ t _ _ _ hBefore _ hBetween _ ihFirst ihMore =>
      have hOne : Separators [t] := by simpa [Separators] using hBetween
      have hNone : t.content?.toList = [] := by
        simpa using contents_separators hOne
      simp only [Clause.contents, contents_cons, hNone, List.nil_append] at ihFirst ihMore ⊢
      simp [contents_separators hBefore, ihFirst, ihMore, Stmt.blockContents]

/-! ## Whole inputs -/

/-- Reading loses nothing, uses nothing twice and keeps the order: a program, a
statement and an expression have the contents of the tokens that they are read
from, one by one. -/
theorem contents_of_read :
    (∀ (ts : List Token) (p : Program), parseProgram ts = .ok p →
      contents ts = Stmt.blockContents p) ∧
    (∀ (ts : List Token) (s : Stmt), parseStatement ts = .ok s → contents ts = s.contents) ∧
    (∀ (ts : List Token) (e : Expr), parseExpression ts = .ok e → contents ts = e.contents) := by
  refine ⟨?_, ?_, ?_⟩
  · intro ts p hRun
    have hContents := (parseProgram_eq_ok.1 hRun).2.contents_eq
    simpa [Clause.contents] using hContents
  · intro ts s hRun
    obtain ⟨q, ts₁, r, rfl, hBefore, hStmt, hBehind⟩ := parseStatement_eq_ok.1 hRun
    have hContents : contents ts₁ = s.contents ++ contents r := hStmt.contents_eq
    rw [contents_append, contents_separators hBefore, hContents, contents_separators hBehind]
    simp
  · intro ts e hRun
    have hContents := contents_expr (parseExpression_eq_ok.1 hRun)
    simpa using hContents

/-- `val s = "n: $n" + f({ i -> i..9 })`, where the name behind the brace is read
as a parameter and `n` stays inside its string node. -/
theorem contents_of_splice_and_range :
    contents [.keyword (.declaration true), .name "s", .infixMark .assign, .text "n: $n",
        .infixMark (.binary (.arithmetic .plus)), .name "f", .bracket .openParen,
        .bracket .openCurly, .name "i", .symbol .arrow, .name "i", .symbol .dotDot, .int 9,
        .bracket .closeCurly, .bracket .closeParen] =
      Stmt.blockContents
        [.assign "s" (.binary (.text "n: " [(3, .var "n")]) (.arithmetic .plus)
          (.call "f" [.lambda [("i", none)] (.range (.var "i") (.int 9))])) none true true] :=
  contents_of_read.1 _ _ rfl

end ScriptLang
