import ScriptLang.Proofs.Printing.ExprPrinted
import ScriptLang.Proofs.Reading.Delimited

/-!
# Printed statements are derived

The canonical tokens of a statement are derived as that statement, and those of
a list as a sequence, if their texts and assignments are plain
(`Stmt.derives_tokens`, `Stmt.derives_sequenceTokens`).
-/

namespace ScriptLang

variable {e : Expr} {s : Stmt} {ss body : List Stmt} {ts ts₁ ts₂ rest : List Token}

/-! ## Blocks and sequences -/

theorem derives_blockTokens (h : (Clause.sequence body).Derives (sequenceTokens body) []) :
    (Clause.block body).Derives (Stmt.blockTokens body ++ rest) rest := by
  rw [Stmt.blockTokens_eq, List.cons_append, List.append_assoc]
  exact derives_block h

theorem derives_body (h : (Clause.sequence body).Derives (sequenceTokens body) []) :
    (Clause.body body).Derives (Stmt.blockTokens body ++ rest) rest :=
  Clause.Derives.bodyBlock (m := 0) (derives_blockTokens h)

/-- A line break joins a statement to those behind it. -/
theorem derives_next (hFirst : (Clause.stmt s).Derives ts₁ [])
    (hMore : (Clause.sequence ss).Derives ts₂ []) :
    (Clause.sequence (s :: ss)).Derives (ts₁ ++ .symbol .lineBreak :: ts₂) [] := by
  have hBreak : Separators [.symbol .lineBreak] := by decide
  have hFront : StmtReplaces [] ([.symbol .lineBreak] ++ ts₂) :=
    stmtReplaces_separators hBreak nofun (sequence_not_elseAhead hBreak hMore)
  exact Clause.Derives.next (q := []) nofun (hFirst.extend hFront) rfl hMore

/-! ## Statements -/

section Forms

variable {condition : Expr} {thenBlock elseBlock : Block} {n : String}

theorem derives_ifThenStmt (hCondition : (Phrase.expr .lowest condition).Derives embedded ts [])
    (hThen : (Clause.sequence thenBlock).Derives (sequenceTokens thenBlock) []) :
    (Clause.stmt (.ifThen condition thenBlock)).Derives
      (.keyword .ifWord :: (parens ts ++ Stmt.blockTokens thenBlock)) [] := by
  have hBody : (Clause.body thenBlock).Derives (Stmt.blockTokens thenBlock ++ []) [] :=
    derives_body hThen
  rw [List.append_nil] at hBody
  rw [parens_append]
  exact .ifThen (derives_closeParen hCondition) hBody not_elseAhead_nil

theorem derives_ifElseStmt (hCondition : (Phrase.expr .lowest condition).Derives embedded ts [])
    (hThen : (Clause.sequence thenBlock).Derives (sequenceTokens thenBlock) [])
    (hElse : (Clause.sequence elseBlock).Derives (sequenceTokens elseBlock) []) :
    (Clause.stmt (.ifElse condition thenBlock elseBlock)).Derives
      (.keyword .ifWord :: (parens ts ++ (Stmt.blockTokens thenBlock ++
        .keyword .elseWord :: Stmt.blockTokens elseBlock))) [] := by
  have hBody : (Clause.body elseBlock).Derives (Stmt.blockTokens elseBlock ++ []) [] :=
    derives_body hElse
  rw [List.append_nil] at hBody
  rw [parens_append]
  exact Clause.Derives.ifElse (n := 0) (derives_closeParen hCondition) (derives_body hThen) hBody

theorem derives_forIn (hSource : (Phrase.expr .lowest e).Derives embedded ts [])
    (hBody : (Clause.sequence body).Derives (sequenceTokens body) []) :
    (Clause.stmt (.forIn n e body)).Derives
      (.keyword .forWord :: (parens (.name n :: .keyword .inWord :: ts) ++
        Stmt.blockTokens body)) [] := by
  have hBody : (Clause.body body).Derives (Stmt.blockTokens body ++ []) [] := derives_body hBody
  rw [List.append_nil] at hBody
  rw [parens_append]
  exact .forIn (derives_closeParen hSource) hBody

theorem derives_whileLoop (hCondition : (Phrase.expr .lowest condition).Derives embedded ts [])
    (hBody : (Clause.sequence body).Derives (sequenceTokens body) []) :
    (Clause.stmt (.whileLoop condition body)).Derives
      (.keyword .whileWord :: (parens ts ++ Stmt.blockTokens body)) [] := by
  have hBody : (Clause.body body).Derives (Stmt.blockTokens body ++ []) [] := derives_body hBody
  rw [List.append_nil] at hBody
  rw [parens_append]
  exact .whileLoop (derives_closeParen hCondition) hBody

theorem derives_function {parameters : List (String × Ty)} {result : Ty}
    (hBody : (Clause.sequence body).Derives (sequenceTokens body) []) :
    (Clause.stmt (.function n parameters result body)).Derives
      (.keyword .funWord :: .name n :: (parens (listed functionParameterTokens parameters) ++
        .symbol .colon :: (result.tokens ++ Stmt.blockTokens body))) [] := by
  have hBlock : (Clause.block body).Derives (Stmt.blockTokens body ++ []) [] :=
    derives_blockTokens hBody
  rw [List.append_nil] at hBlock
  rw [parens_append]
  exact Clause.Derives.function (m := 0) hBlock

end Forms

mutual

/-- The canonical tokens of a statement are derived as that statement. -/
theorem Stmt.derives_tokens :
    ∀ s : Stmt, s.Every PlainHere → (Clause.stmt s).Derives s.tokens []
  | .declare n ty readOnly, _ => by
    have hDeclare : (Clause.stmt (.declare n ty readOnly)).Derives
        (.keyword (.declaration readOnly) :: .name n :: (annotationTokens ty ++ [])) [] :=
      .declare nofun
    rwa [List.append_nil] at hDeclare
  | .assign _ value _ true _, h =>
    Clause.Derives.init (m := 0) (value.derives_tokens (h.1 value (by simp [expressions])))
  | .assign _ value ty false readOnly, h => by
    obtain ⟨hTexts, hNew | ⟨rfl, rfl⟩⟩ := h
    · exact absurd hNew nofun
    · exact Clause.Derives.assign (m := 0)
        (value.derives_tokens (hTexts value (by simp [expressions])))
  | .compound _ _ value, h =>
    Clause.Derives.compound (m := 0) (value.derives_tokens (h.1 value (by simp [expressions])))
  | .ifThen condition thenBlock, h =>
    derives_ifThenStmt (condition.derives_tokens (h.1.1 condition (by simp [expressions])))
      (derives_sequenceTokens thenBlock h.2)
  | .ifElse condition thenBlock elseBlock, h =>
    derives_ifElseStmt (condition.derives_tokens (h.1.1 condition (by simp [expressions])))
      (derives_sequenceTokens thenBlock h.2.1) (derives_sequenceTokens elseBlock h.2.2)
  | .forIn _ source body, h =>
    derives_forIn (source.derives_tokens (h.1.1 source (by simp [expressions])))
      (derives_sequenceTokens body h.2)
  | .whileLoop condition body, h =>
    derives_whileLoop (condition.derives_tokens (h.1.1 condition (by simp [expressions])))
      (derives_sequenceTokens body h.2)
  | .block body, h => by
    have hBlock : (Clause.block body).Derives (blockTokens body ++ []) [] :=
      derives_blockTokens (derives_sequenceTokens body h.2)
    rw [List.append_nil] at hBlock
    exact .block hBlock
  | .control _, _ => .control
  | .function _ _ _ body, h => derives_function (derives_sequenceTokens body h.2)
  | .returns value, h => .returns (value.derives_tokens (h.1 value (by simp [expressions])))
  | .call callee arguments, h => by
    have hPlain : (Expr.call callee arguments).Plain := Expr.everyTextIn_iff.2 h.1
    exact .call (.inl ⟨callee, _, rfl⟩) (Expr.derives_tokens _ hPlain)
  | .step n op true, _ => .step (.inr ⟨op, _, rfl⟩) (Expr.derives_tokens (.step n op true) trivial)
  | .step n op false, _ =>
    .step (.inl ⟨n, _, rfl⟩) (Expr.derives_tokens (.step n op false) trivial)
  | .output _ value, h =>
    .output (derives_enclosed (value.derives_tokens (h.1 value (by simp [expressions]))) rfl)

/-- The canonical tokens of statements are derived as the sequence of them. -/
theorem Stmt.derives_sequenceTokens : ∀ ss : List Stmt, EveryIn PlainHere ss →
    (Clause.sequence ss).Derives (sequenceTokens ss) []
  | [], _ => Clause.Derives.empty (q := []) nofun
  | [s], h => by
    rw [sequenceTokens, moreTokens, List.append_nil]
    exact Clause.Derives.last (q := []) nofun (derives_tokens s h.1)
  | s :: s' :: ss, h => by
    rw [sequenceTokens_cons_cons]
    exact derives_next (derives_tokens s h.1) (derives_sequenceTokens (s' :: ss) h.2)

end

end ScriptLang
