import ScriptLang.Grammar.Program
import ScriptLang.Proofs.Reading.StmtRead

/-!
# Whole inputs

Each entry point succeeds exactly where the rules derive its result from all
tokens: `parseExpression_eq_ok`, `parseStatement_eq_ok`, `parseProgram_eq_ok`.
From here on the parsers are spoken of by the rules alone.
-/

namespace ScriptLang

open ScriptLang.Parser

variable {ts : List Token}

namespace Parser

variable {α : Type} {p : Parser α} {a : α}

theorem parse_eq_ok : Parser.parse p ts = .ok a ↔ ∃ c, p ⟨0, ts⟩ = .ok a c := by
  rw [Parser.parse, Cursor.start]
  cases p ⟨0, ts⟩ <;> simp

theorem expectEnd_eq_ok {c c' : Cursor} {u : Unit} :
    expectEnd c = .ok u c' ↔ c.rest = [] ∧ c = c' := by
  rcases c with ⟨n, _ | ⟨t, ts⟩⟩ <;> simp [expectEnd, Cursor.current?]

/-- Reading all tokens with `p` is reading with `p` up to the end. -/
theorem parse_all_eq_ok :
    Parser.parse (do let a ← p; expectEnd; return a) ts = .ok a ↔
      ∃ m, p ⟨0, ts⟩ = .ok a ⟨m, []⟩ := by
  simp only [parse_eq_ok, bind_eq_ok, expectEnd_eq_ok, pure_eq_ok]
  constructor
  · rintro ⟨_, a', c₁, hRun, _, _, ⟨hRest, -⟩, rfl, -⟩
    exact ⟨c₁.position, by rw [hRun, ← hRest]⟩
  · rintro ⟨m, hRun⟩
    exact ⟨⟨m, []⟩, a, ⟨m, []⟩, hRun, (), ⟨m, []⟩, ⟨rfl, rfl⟩, rfl, rfl⟩

end Parser

/-- An expression is what the rules derive from all tokens. -/
theorem parseExpression_eq_ok {e : Expr} :
    parseExpression ts = .ok e ↔ (Phrase.expr .lowest e).Derives embedded ts [] := by
  have hNonempty : (Phrase.expr .lowest e).Derives embedded ts [] → ¬ ts.isEmpty = true := by
    intro h hEmpty
    have hLt := h.expr_length_lt
    rw [List.isEmpty_iff.1 hEmpty] at hLt
    exact absurd hLt (Nat.lt_irrefl _)
  rw [parseExpression, wholeExpression]
  by_cases hEmpty : ts.isEmpty = true
  · rw [if_pos hEmpty]
    exact ⟨nofun, fun h => absurd hEmpty (hNonempty h)⟩
  · rw [if_neg hEmpty, parse_all_eq_ok]
    constructor
    · rintro ⟨m, hRun⟩
      exact parseExpr_readsDerived _ _ _ _ hRun
    · exact fun h => reads_expr h 0

theorem all_isSeparator_iff : ts.all Token.isSeparator = true ↔ Separators ts :=
  List.all_eq_true

/-- A statement is what the rules derive between separators. -/
theorem parseStatement_eq_ok {s : Stmt} :
    parseStatement ts = .ok s ↔ ∃ q ts₁ r, ts = q ++ ts₁ ∧ Separators q ∧
      (Clause.stmt s).Derives ts₁ r ∧ Separators r := by
  rw [parseStatement]
  by_cases hAll : ts.all Token.isSeparator = true
  · rw [if_pos hAll]
    refine ⟨fun hRun => absurd hRun (by simp), ?_⟩
    rintro ⟨q, ts₁, r, rfl, -, hStmt, -⟩
    obtain ⟨t, ts', rfl, -⟩ := hStmt.stmt_head
    have hNone : t.isSeparator = false := hStmt.stmt_noSeparator t rfl
    have hSome := all_isSeparator_iff.1 hAll t (by simp)
    rw [hNone] at hSome
    exact absurd hSome Bool.false_ne_true
  · rw [if_neg hAll]
    constructor
    · intro hRun
      simp only [parse_eq_ok, bind_eq_ok, expectEnd_eq_ok, pure_eq_ok, skipSeparators,
        EStateM.Result.ok.injEq] at hRun
      obtain ⟨_, _, c₁, ⟨-, rfl⟩, s', c₂, hStmt, _, c₃, ⟨-, rfl⟩, _, _, ⟨hEnd, -⟩, rfl, -⟩ := hRun
      obtain ⟨q, hTokens, hSeparators, -⟩ := skipSeparators_rest ⟨0, ts⟩
      obtain ⟨r, hRest, hSeparators', -⟩ := skipSeparators_rest c₂
      rw [hEnd, List.append_nil] at hRest
      exact ⟨q, _, c₂.rest, hTokens, hSeparators, parseStmt_readsDerived _ _ _ hStmt,
        by rwa [hRest]⟩
    · rintro ⟨q, ts₁, r, rfl, hq, hStmt, hr⟩
      have hRead : (do
          let _ ← Parser.skipSeparators
          let s ← Grammar.standard.parseStmt
          let _ ← Parser.skipSeparators
          Parser.expectEnd
          return s : Parser Stmt).Reads (q ++ ts₁) s [] := by
        have hEnd : NoSeparator [] := by simp [NoSeparator]
        have hSkip := reads_skipSeparators hr hEnd
        rw [List.append_nil] at hSkip
        have hExpectEnd : Parser.expectEnd.Reads [] () [] := fun n => ⟨n, rfl⟩
        exact .bind (reads_skipSeparators hq hStmt.stmt_noSeparator) (.bind (reads_stmt hStmt)
          (.bind hSkip (.bind hExpectEnd .pure)))
      obtain ⟨m, hRun⟩ := hRead 0
      exact parse_eq_ok.2 ⟨_, hRun⟩

/-- No statement is derived from separators. -/
theorem sequence_of_separators {ss : List Stmt} (hAll : Separators ts)
    (h : (Clause.sequence ss).Derives ts []) : ss = [] := by
  cases h with
  | empty => rfl
  | last _ hStmt | next _ hStmt =>
      obtain ⟨t, ts', rfl, -⟩ := hStmt.stmt_head
      have hNone : t.isSeparator = false := hStmt.stmt_noSeparator t rfl
      have hSome := hAll t (by simp)
      rw [hNone] at hSome
      exact absurd hSome nofun

/-- An empty sequence is derived from separators only. -/
theorem separators_of_sequence (h : (Clause.sequence []).Derives ts []) : Separators ts := by
  cases h with
  | empty hBefore => simpa using hBefore

/-- A program is a sequence of at least one statement that takes all tokens. -/
theorem parseProgram_eq_ok {p : Program} :
    parseProgram ts = .ok p ↔ p ≠ [] ∧ (Clause.sequence p).Derives ts [] := by
  rw [parseProgram]
  by_cases hAll : ts.all Token.isSeparator = true
  · rw [if_pos hAll]
    refine ⟨fun hRun => absurd hRun (by simp), ?_⟩
    rintro ⟨hNonempty, hSequence⟩
    exact absurd (sequence_of_separators (all_isSeparator_iff.1 hAll) hSequence) hNonempty
  · rw [if_neg hAll, parse_all_eq_ok]
    constructor
    · rintro ⟨m, hRun⟩
      have hDerived := sequence_derived parseStmt_readsDerived hRun
      refine ⟨?_, hDerived⟩
      rintro rfl
      exact hAll (all_isSeparator_iff.2 (separators_of_sequence hDerived))
    · rintro ⟨-, hSequence⟩
      have hEnd : NoSeparator [] := nofun
      have hRead : (Grammar.standard.parseSequence none).Reads ts p [] :=
        reads_sequence (fun _ _ _ _ h => reads_stmt h) (Nat.le_refl _) nofun (fun _ => rfl) hEnd
          hSequence
      exact hRead 0

end ScriptLang
