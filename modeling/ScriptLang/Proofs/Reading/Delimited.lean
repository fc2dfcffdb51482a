import ScriptLang.Proofs.Reading.Input
import ScriptLang.Proofs.Reading.Locality

/-!
# Programs as delimited statements

A program is read exactly where its tokens can be divided into pieces that are
read as single statements, with separators between the pieces
(`Delimited`). Cutting at a separator loses nothing, since what a statement
looks at behind itself is there too at the end of the tokens. Joining adds
nothing, since a separator ends every statement and the next piece cannot start
with `else`, which the statement before it would take.

## Main results

* `parseProgram_iff_delimited` : programs are delimited runs of statements,
  they can be joined by separators, and a program of one statement is a
  statement.
-/

namespace ScriptLang

/-- The tokens are divided into pieces, each of which is read as a statement,
with at least one separator between two pieces. -/
inductive Delimited : List Token → List Stmt → Prop
  | one {ts : List Token} {s : Stmt} (hPiece : parseStatement ts = .ok s) : Delimited ts [s]
  | cons {piece q ts : List Token} {s : Stmt} {ss : List Stmt}
      (hPiece : parseStatement piece = .ok s) (hBetween : q ≠ []) (hSeparators : Separators q)
      (hMore : Delimited ts ss) : Delimited (piece ++ q ++ ts) (s :: ss)

variable {ts q r rest : List Token} {s : Stmt} {ss : List Stmt}

/-! ## Cutting -/

/-- Where no statement follows, only separators are left. -/
theorem parseStatement_of_derives (hBefore : Separators q)
    (hStmt : (Clause.stmt s).Derives ts rest) (hBehind : Separators rest) :
    parseStatement (q ++ ts) = .ok s :=
  parseStatement_eq_ok.2 ⟨q, ts, rest, rfl, hBefore, hStmt, hBehind⟩

/-- A statement can be cut out in front of a separator. -/
theorem Clause.Derives.cut (hStmt : (Clause.stmt s).Derives ts rest) :
    ∃ u, ts = u ++ rest ∧ (Clause.stmt s).Derives u [] := by
  obtain ⟨u, hTokens, hu⟩ := hStmt.locality
  have hAlone := hu [] (.nil rest)
  rw [List.append_nil] at hAlone
  exact ⟨u, hTokens, hAlone⟩

theorem delimited_of_sequence (h : (Clause.sequence ss).Derives ts rest) (hEnd : rest = [])
    (hNonempty : ss ≠ []) : Delimited ts ss := by
  generalize hClause : Clause.sequence ss = cl at h
  induction h generalizing ss with
  | empty =>
      cases hClause
      exact absurd rfl hNonempty
  | last hBefore hStmt =>
      cases hClause
      exact .one (parseStatement_of_derives hBefore hStmt (by rw [hEnd]; exact nofun))
  | @next q s ss t _ ts₁ _ hBefore hStmt hBetween hMore _ ihMore =>
      cases hClause
      by_cases hLast : ss = []
      · subst hLast
        rw [hEnd] at hMore
        have hBehind : Separators (t :: ts₁) := by
          intro u hu
          cases List.mem_cons.1 hu with
          | inl hEq => rwa [hEq]
          | inr hMem => exact separators_of_sequence hMore u hMem
        exact .one (parseStatement_of_derives hBefore hStmt hBehind)
      · obtain ⟨u, rfl, hAlone⟩ := hStmt.cut
        have hPiece := parseStatement_of_derives hBefore hAlone nofun
        have hBehind : Separators [t] := by simpa [Separators] using hBetween
        simpa using Delimited.cons hPiece (by simp) hBehind (ihMore hEnd hLast rfl)
  | _ => exact absurd hClause nofun

/-! ## Joining -/

/-- No `else` is ahead of a sequence, even behind separators. -/
theorem sequence_not_elseAhead (hSeparators : Separators q)
    (h : (Clause.sequence ss).Derives ts []) : ¬ ElseAhead (q ++ ts) := by
  rintro ⟨n, ts', hElse⟩
  have hNone : NoSeparator (.keyword .elseWord :: ts') := by
    intro t ht
    rw [← Option.some.inj ht]
    rfl
  have hDrop := dropWhile_separators (separators_breaks n) hNone
  rw [← hElse] at hDrop
  have hAll := h.sequence_separators hSeparators
  generalize q ++ ts = us at hAll hDrop
  -- Dropping all separators leaves the first statement, or nothing.
  cases hAll with
  | empty hBefore =>
      have hEnd : NoSeparator [] := nofun
      rw [dropWhile_separators hBefore hEnd] at hDrop
      exact absurd hDrop nofun
  | last hBefore hStmt | next hBefore hStmt =>
      rw [dropWhile_separators hBefore hStmt.stmt_noSeparator] at hDrop
      refine hStmt.stmt_head_ne (t := .keyword .elseWord) rfl ?_
      rw [hDrop]
      rfl

/-- A separator may stand in place of the end, unless an `else` is ahead. -/
theorem stmtReplaces_separators (hSeparators : Separators q) (hBetween : q ≠ [])
    (hNoElse : ¬ ElseAhead (q ++ ts)) : StmtReplaces rest (q ++ ts) := by
  obtain ⟨t, q, rfl⟩ := List.exists_cons_of_ne_nil hBetween
  have hHead : t.isSeparator = true := hSeparators t (by simp)
  refine ⟨⟨?_, fun hElse => absurd hElse hNoElse⟩, ?_⟩
  · have hRank : headRank (t :: q ++ ts) = 0 := by
      unfold Token.isSeparator at hHead
      split at hHead
      · rfl
      · rfl
      · exact absurd hHead nofun
    rw [hRank]
    exact Nat.zero_le _
  · intro _ u hu
    rw [← Option.some.inj hu]
    exact .inl hHead

theorem sequence_of_delimited (h : Delimited ts ss) : (Clause.sequence ss).Derives ts [] := by
  induction h with
  | one hPiece =>
      obtain ⟨q, ts, r, rfl, hBefore, hStmt, hBehind⟩ := parseStatement_eq_ok.1 hPiece
      cases r with
      | nil => exact .last hBefore hStmt
      | cons t r =>
          have hMore : (Clause.sequence []).Derives (r ++ []) [] :=
            .empty fun u hu => hBehind u (by simp [hu])
          rw [List.append_nil] at hMore
          exact .next hBefore hStmt (hBehind t (by simp)) hMore
  | @cons piece q ts s ss hPiece hBetween hSeparators _ ih =>
      obtain ⟨q₀, ts₀, r, rfl, hBefore, hStmt, hBehind⟩ := parseStatement_eq_ok.1 hPiece
      obtain ⟨u, rfl, hu⟩ := hStmt.locality
      have hAll := hBehind.append hSeparators
      have hSome : r ++ q ≠ [] := by simp [hBetween]
      have hReplaces : StmtReplaces r (r ++ q ++ ts) :=
        stmtReplaces_separators hAll hSome (sequence_not_elseAhead hAll ih)
      have hFirst := hu _ hReplaces
      obtain ⟨t, q', hCons⟩ := List.exists_cons_of_ne_nil hSome
      rw [hCons] at hFirst hAll
      have hTokens : q₀ ++ (u ++ r) ++ q ++ ts = q₀ ++ (u ++ (t :: q' ++ ts)) := by
        rw [← hCons]
        simp
      rw [hTokens]
      exact .next hBefore hFirst (hAll t (by simp))
        (ih.sequence_separators fun v hv => hAll v (by simp [hv]))

/-! ## Programs -/

theorem Delimited.ne_nil (h : Delimited ts ss) : ss ≠ [] := by
  cases h <;> simp

theorem parseProgram_eq_ok_iff_delimited {p : Program} :
    parseProgram ts = .ok p ↔ Delimited ts p := by
  rw [parseProgram_eq_ok]
  constructor
  · exact fun h => delimited_of_sequence h.2 rfl h.1
  · exact fun h => ⟨h.ne_nil, sequence_of_delimited h⟩

theorem Delimited.append {a b : List Token} {sa sb : List Stmt} (ha : Delimited a sa)
    (hBetween : q ≠ []) (hSeparators : Separators q) (hb : Delimited b sb) :
    Delimited (a ++ q ++ b) (sa ++ sb) := by
  induction ha with
  | one hPiece => exact .cons hPiece hBetween hSeparators hb
  | cons hPiece hBetween' hSeparators' _ ih =>
      simpa using Delimited.cons hPiece hBetween' hSeparators' ih

theorem delimited_singleton : Delimited ts [s] ↔ parseStatement ts = .ok s := by
  constructor
  · intro h
    cases h with
    | one hPiece => exact hPiece
    | cons _ _ _ hMore => exact absurd rfl hMore.ne_nil
  · exact .one

/-- A program is read exactly as a run of statements with separators between
them. In particular two programs can be joined by separators, and a program of
one statement is what is read as a single statement. -/
theorem parseProgram_iff_delimited :
    (∀ (ts : List Token) (ss : List Stmt), parseProgram ts = .ok ss ↔ Delimited ts ss) ∧
    (∀ (a q b : List Token) (pa pb : Program), parseProgram a = .ok pa →
      parseProgram b = .ok pb → q ≠ [] → Separators q →
      parseProgram (a ++ q ++ b) = .ok (pa ++ pb)) ∧
    (∀ (ts : List Token) (s : Stmt), parseStatement ts = .ok s ↔ parseProgram ts = .ok [s]) := by
  refine ⟨fun ts ss => parseProgram_eq_ok_iff_delimited, ?_, ?_⟩
  · intro a q b pa pb ha hb hBetween hSeparators
    rw [parseProgram_eq_ok_iff_delimited] at ha hb ⊢
    exact ha.append hBetween hSeparators hb
  · intro ts s
    rw [parseProgram_eq_ok_iff_delimited, delimited_singleton]

/-- `var i = 0` and `i++` joined by a semicolon and a line break. -/
theorem joined_declaration_and_step :
    parseProgram ([.keyword (.declaration false), .name "i", .infixMark .assign, .int 0] ++
        [.symbol .semicolon, .symbol .lineBreak] ++ [.name "i", .unaryMark (.step .increase)]) =
      .ok ([.assign "i" (.int 0) none true false] ++ [.step "i" .increase false]) :=
  parseProgram_iff_delimited.2.1 _ _ _ _ _ rfl rfl (by simp) (by decide)

end ScriptLang
