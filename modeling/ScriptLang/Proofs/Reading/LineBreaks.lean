import Mathlib.Logic.Relation
import ScriptLang.Proofs.Reading.Input
import ScriptLang.Proofs.Reading.Locality

/-!
# Line breaks that mean nothing

Line breaks separate statements, but behind an infix mark, inside braces next to
the brace, and around `else` they mean nothing: they may be added there, and
the same tree is read.

One insertion (`BreaksAdded`) is followed through a derivation from left to
right. `Spaced` says what an insertion leaves of the tokens from some place on,
where `gap` tells whether the token before that place lets line breaks follow.
A relation between the tokens before and behind a phrase `Survives` if it holds
again of spaced tokens. Survival is put together part by part, in reading order,
and every rule of the grammar takes what may have been added in its stride.

## Main results

* `Phrase.Derives.survives`, `Clause.Derives.survives` : derivations survive
  added line breaks, with the same tree.
* `read_with_breaks` : so do whole inputs.
-/

namespace ScriptLang

/-! ## Places -/

/-- Whether line breaks behind the token mean nothing: behind an operator
between two operands, behind `=` and the compound marks, behind an opening
brace and behind `else`. -/
def Token.breaksBehind : Token → Bool
  | .infixMark _ | .bracket .openCurly | .keyword .elseWord => true
  | _ => false

/-- Whether line breaks before the token mean nothing: before a closing brace
and before `else`. -/
def Token.breaksBefore : Token → Bool
  | .bracket .closeCurly | .keyword .elseWord => true
  | _ => false

/-- Any number of line breaks is added at one place where they mean nothing. -/
inductive BreaksAdded : List Token → List Token → Prop
  | behind {us ts : List Token} {t : Token} (n : Nat) (hPlace : t.breaksBehind = true) :
    BreaksAdded (us ++ t :: ts) (us ++ t :: (breaks n ++ ts))
  | before {us ts : List Token} {t : Token} (n : Nat) (hPlace : t.breaksBefore = true) :
    BreaksAdded (us ++ t :: ts) (us ++ (breaks n ++ t :: ts))

/-- Line breaks are added at places where they mean nothing. With a `gap` before
the tokens they may also be added at the front. -/
inductive Spaced : Bool → List Token → List Token → Prop
  | nil {gap : Bool} {n : Nat} (hPlace : gap = true ∨ n = 0) : Spaced gap [] (breaks n)
  | cons {gap : Bool} {t : Token} {n : Nat} {ts ts' : List Token}
      (hPlace : gap = true ∨ t.breaksBefore = true ∨ n = 0)
      (hMore : Spaced t.breaksBehind ts ts') :
    Spaced gap (t :: ts) (breaks n ++ t :: ts')

variable {gap : Bool} {t : Token} {m : Nat} {ts ts' mid rest rest' : List Token}

namespace Spaced

/-- Nothing need be added. -/
theorem refl (gap : Bool) (ts : List Token) : Spaced gap ts ts := by
  induction ts generalizing gap with
  | nil => exact .nil (n := 0) (.inr rfl)
  | cons t ts ih => exact .cons (n := 0) (.inr (.inr rfl)) (ih _)

/-- Into a gap line breaks may be added. -/
theorem front (n : Nat) (ts : List Token) : Spaced true ts (breaks n ++ ts) := by
  cases ts with
  | nil =>
      rw [List.append_nil]
      exact .nil (.inl rfl)
  | cons t ts => exact .cons (.inl rfl) (.refl _ ts)

theorem of_added (h : BreaksAdded ts ts') (gap : Bool) : Spaced gap ts ts' := by
  cases h with
  | @behind us ts t n hPlace =>
      induction us generalizing gap with
      | nil =>
          refine .cons (n := 0) (.inr (.inr rfl)) ?_
          rw [hPlace]
          exact front n ts
      | cons u us ih => exact .cons (n := 0) (.inr (.inr rfl)) (ih _)
  | @before us ts t n hPlace =>
      induction us generalizing gap with
      | nil => exact .cons (.inr (.inl hPlace)) (.refl _ ts)
      | cons u us ih => exact .cons (n := 0) (.inr (.inr rfl)) (ih _)

theorem eq_nil (h : Spaced false [] ts') : ts' = [] := by
  generalize hGap : false = gap at h
  cases h with
  | nil hPlace =>
      subst hGap
      rw [hPlace.resolve_left Bool.false_ne_true]
      rfl

/-- Before a token only line breaks are added. -/
theorem cons_cases (h : Spaced gap (t :: ts) ts') :
    ∃ n us, ts' = breaks n ++ t :: us ∧ Spaced t.breaksBehind ts us ∧
      (gap = true ∨ t.breaksBefore = true ∨ n = 0) := by
  cases h with
  | cons hPlace hMore => exact ⟨_, _, rfl, hMore, hPlace⟩

/-- Line breaks at the front can be told apart from those inside. -/
theorem peel (h : Spaced gap ts ts') : ∃ n us, ts' = breaks n ++ us ∧ Spaced false ts us := by
  cases h with
  | nil => exact ⟨_, [], (List.append_nil _).symm, .refl _ []⟩
  | cons _ hMore => exact ⟨_, _, rfl, .cons (n := 0) (.inr (.inr rfl)) hMore⟩

/-- Where no line break stands at the front, none was added there. -/
theorem head?_eq (h : Spaced gap ts ts') (hNone : NoBreak ts') : ts'.head? = ts.head? := by
  cases h with
  | @nil _ n =>
      cases n with
      | zero => rfl
      | succ n => exact absurd rfl hNone
  | @cons _ _ n =>
      cases n with
      | zero => rfl
      | succ n => exact absurd rfl hNone

/-! ### What follows -/

theorem elseAhead_breaks (n : Nat) : ElseAhead (breaks n ++ ts) ↔ ElseAhead ts := by
  induction n with
  | zero => exact Iff.rfl
  | succ n ih =>
      rw [breaks_succ, List.cons_append, elseAhead_cons, ih]
      simp

/-- An `else` that is ahead was ahead before. -/
theorem elseAhead (h : Spaced gap ts ts') (hElse : ElseAhead ts') : ElseAhead ts := by
  induction h with
  | @nil _ n _ =>
      rw [← List.append_nil (breaks n), elseAhead_breaks] at hElse
      exact hElse
  | cons _ _ ih =>
      rw [elseAhead_breaks, elseAhead_cons] at hElse
      exact elseAhead_cons.2 (hElse.imp_right fun hBreak => ⟨hBreak.1, ih hBreak.2⟩)

/-- What was read in front of some tokens may end in front of them when they
are spaced. -/
theorem stmtReplaces (h : Spaced false ts ts') : StmtReplaces ts ts' := by
  have hElse := h.elseAhead
  cases ts with
  | nil =>
      rw [h.eq_nil]
      exact ⟨⟨Nat.le_refl _, id⟩, id⟩
  | cons t ts =>
      obtain ⟨n, us, rfl, -, -⟩ := h.cons_cases
      cases n with
      | zero => exact ⟨⟨Nat.le_refl _, hElse⟩, id⟩
      | succ n =>
          refine ⟨⟨Nat.zero_le _, hElse⟩, ?_⟩
          intro _ u hu
          rw [← Option.some.inj hu]
          exact .inl rfl

end Spaced

/-! ## Survival -/

/-- The tokens leave no place for line breaks, neither among them nor around
them. -/
def Dense (ts : List Token) : Prop :=
  ∀ t ∈ ts, t.breaksBehind = false ∧ t.breaksBefore = false

theorem Dense.append {us : List Token} (hu : Dense us) (ht : Dense ts) : Dense (us ++ ts) := by
  intro t hMem
  exact (List.mem_append.1 hMem).elim (hu t) (ht t)

theorem Dense.cons (hHead : t.breaksBehind = false ∧ t.breaksBefore = false) (ht : Dense ts) :
    Dense (t :: ts) :=
  List.forall_mem_cons.2 ⟨hHead, ht⟩

theorem dense_nil : Dense [] := fun _ ht => absurd ht List.not_mem_nil

theorem dense_separators {q : List Token} (hq : Separators q) : Dense q := by
  intro t ht
  have hSeparator := hq t ht
  unfold Token.isSeparator at hSeparator
  split at hSeparator
  · exact ⟨rfl, rfl⟩
  · exact ⟨rfl, rfl⟩
  · exact absurd hSeparator Bool.false_ne_true

theorem dense_listed {α : Type} {spell : α → List Token} {as : List α}
    (hSpell : ∀ a ∈ as, Dense (spell a)) : Dense (listed spell as) := by
  have hMore : ∀ as : List α, (∀ a ∈ as, Dense (spell a)) → Dense (listedMore spell as) := by
    intro as hAll t ht
    obtain ⟨a, ha, hMem⟩ := List.mem_flatMap.1 ht
    exact Dense.cons ⟨rfl, rfl⟩ (hAll a ha) t hMem
  cases as with
  | nil => exact dense_nil
  | cons a as => exact (hSpell a (by simp)).append (hMore as fun b hb => hSpell b (by simp [hb]))

/-- A type is spelled without braces, infix marks and `else`. -/
theorem Ty.dense_tokens (ty : Ty) : Dense ty.tokens := by
  cases ty with
  | basic kind => exact .cons ⟨rfl, rfl⟩ dense_nil
  | collection kind element =>
      exact .cons ⟨rfl, rfl⟩ (.cons ⟨rfl, rfl⟩ (.cons ⟨rfl, rfl⟩ (.cons ⟨rfl, rfl⟩ dense_nil)))
  | function parameters result =>
      rw [Ty.tokens, Ty.listTokens_eq]
      refine .cons ⟨rfl, rfl⟩ (.append (dense_listed fun ty _ => ty.dense_tokens) ?_)
      exact .cons ⟨rfl, rfl⟩ (.cons ⟨rfl, rfl⟩ result.dense_tokens)

theorem dense_annotated (ty? : Option Ty) : Dense (annotationTokens ty?) := by
  cases ty? with
  | none => exact dense_nil
  | some ty => exact .cons ⟨rfl, rfl⟩ ty.dense_tokens

theorem dense_parameterList (parameters : List (String × Option Ty)) :
    Dense (parameterListTokens parameters) := by
  refine .append (dense_listed fun parameter _ => ?_) (.cons ⟨rfl, rfl⟩ dense_nil)
  exact .cons ⟨rfl, rfl⟩ (dense_annotated parameter.2)

theorem dense_functionParameters (parameters : List (String × Ty)) :
    Dense (listed functionParameterTokens parameters) :=
  dense_listed fun parameter _ => .cons ⟨rfl, rfl⟩ (.cons ⟨rfl, rfl⟩ parameter.2.dense_tokens)

/-- When the tokens are spaced, so is `rest`, and they still relate to it. The
token before `rest` leaves a gap if `behind` says so. -/
def Survives (gap behind : Bool) (Rel : List Token → List Token → Prop) (ts rest : List Token) :
    Prop :=
  ∀ ts', Spaced gap ts ts' → ∃ rest', Spaced behind rest rest' ∧ Rel ts' rest'

namespace Survives

variable {within behind : Bool} {Rel First : List Token → List Token → Prop}

/-- Where nothing is taken. -/
theorem here (hRel : ∀ rest', Spaced gap rest rest' → Rel rest' rest') :
    Survives gap gap Rel rest rest :=
  fun rest' h => ⟨rest', h, hRel rest' h⟩

/-- A token before which nothing may be added. -/
theorem token (t : Token) (hBefore : t.breaksBefore = false)
    (h : Survives t.breaksBehind behind (fun ts rest => Rel (t :: ts) rest) ts rest) :
    Survives false behind Rel (t :: ts) rest := by
  intro ts' hSpaced
  obtain ⟨n, us, rfl, hMore, hPlace⟩ := hSpaced.cons_cases
  have hNone : n = 0 := by simpa [hBefore] using hPlace
  subst hNone
  exact h us hMore

/-- Tokens without a place for line breaks. -/
theorem dense {v : List Token} (hDense : Dense v)
    (h : Survives false behind (fun ts rest => Rel (v ++ ts) rest) ts rest) :
    Survives false behind Rel (v ++ ts) rest := by
  induction v generalizing Rel with
  | nil => exact h
  | cons t v ih =>
      obtain ⟨⟨hBehind, hBefore⟩, hMore⟩ := List.forall_mem_cons.1 hDense
      refine token t hBefore ?_
      rw [hBehind]
      exact ih hMore h

/-- Line breaks that may stand here in any number take in those that are added. -/
theorem absorb (h : Survives false behind (fun ts rest => ∀ n, Rel (breaks n ++ ts) rest) ts rest) :
    Survives gap behind Rel (breaks m ++ ts) rest := by
  intro ts' hSpaced
  obtain ⟨n, us, rfl, hInside⟩ := hSpaced.peel
  have hAll : Survives false behind (fun ts rest => Rel (breaks n ++ ts) rest)
      (breaks m ++ ts) rest := by
    refine dense (dense_separators (separators_breaks m)) ?_
    intro us' hSpaced'
    obtain ⟨rest', hRest, hRel⟩ := h us' hSpaced'
    refine ⟨rest', hRest, ?_⟩
    show Rel (breaks n ++ (breaks m ++ us')) rest'
    rw [← List.append_assoc, breaks_append]
    exact hRel _
  exact hAll us hInside

/-- The same where no line break stands yet. -/
theorem behindGap
    (h : Survives false behind (fun ts rest => ∀ n, Rel (breaks n ++ ts) rest) ts rest) :
    Survives gap behind Rel ts rest :=
  absorb (m := 0) h

/-- A token before which line breaks may stand in any number. -/
theorem closing (t : Token)
    (h : Survives t.breaksBehind behind (fun ts rest => ∀ n, Rel (breaks n ++ t :: ts) rest)
      ts rest) : Survives gap behind Rel (breaks m ++ t :: ts) rest := by
  refine absorb ?_
  intro ts' hSpaced
  obtain ⟨n, us, rfl, hMore, -⟩ := hSpaced.cons_cases
  obtain ⟨rest', hRest, hRel⟩ := h us hMore
  refine ⟨rest', hRest, ?_⟩
  intro k
  rw [← List.append_assoc, breaks_append]
  exact hRel _

theorem imp (h : Survives gap behind First ts rest)
    (hImp : ∀ ts rest', Spaced behind rest rest' → First ts rest' → Rel ts rest') :
    Survives gap behind Rel ts rest := by
  intro ts' hSpaced
  obtain ⟨rest', hRest, hFirst⟩ := h ts' hSpaced
  exact ⟨rest', hRest, hImp _ _ hRest hFirst⟩

/-- One part after the other. -/
theorem bind (hFirst : Survives gap within First ts mid)
    (hMore : Survives within behind (fun mid rest => ∀ ts, First ts mid → Rel ts rest) mid rest) :
    Survives gap behind Rel ts rest := by
  intro ts' hSpaced
  obtain ⟨mid', hMid, hFirst'⟩ := hFirst ts' hSpaced
  obtain ⟨rest', hRest, hRel⟩ := hMore mid' hMid
  exact ⟨rest', hRest, hRel _ hFirst'⟩

end Survives

/-! ## Expressions -/

/-- Whether the last token of a phrase leaves a gap. Only the bracket of an
enclosed expression may, and the grammar closes with none that does. -/
def Phrase.gapBehind : Phrase → Bool
  | .enclosed close _ => (Token.bracket close).breaksBehind
  | _ => false

namespace Phrase.Derives

variable {embed : String → Except ParseError Expr} {ph : Phrase}

/-- A derived phrase is derived again when its tokens are spaced. -/
theorem survives (h : ph.Derives embed ts rest) :
    Survives false ph.gapBehind (ph.Derives embed) ts rest := by
  induction h with
  | int => exact .token _ rfl (.here fun _ _ => .int)
  | truth => exact .token _ rfl (.here fun _ _ => .truth)
  | name => exact .token _ rfl (.here fun _ _ => .name)
  | text hText => exact .token _ rfl (.here fun _ _ => .text hText)
  | step => exact .token _ rfl (.token _ rfl (.here fun _ _ => .step))
  | negation _ ih => exact .token _ rfl (ih.imp fun _ _ _ h => .negation h)
  | grouping _ ih => exact .token _ rfl (ih.imp fun _ _ _ h => .grouping h)
  | lambdaOperand _ ih => exact ih.imp fun _ _ _ h => .lambdaOperand h
  | ifThen _ _ hNoElse ihCondition ihThen =>
      apply Survives.token _ rfl
      apply Survives.token _ rfl
      apply ihCondition.bind
      apply Survives.token _ rfl
      apply Survives.absorb
      exact ihThen.imp fun _ _ hRest hThen _ _ hCondition =>
        .ifThen hCondition hThen fun hElse => hNoElse (hRest.elseAhead hElse)
  | ifElse _ _ _ ihCondition ihThen ihElse =>
      apply Survives.token _ rfl
      apply Survives.token _ rfl
      apply ihCondition.bind
      apply Survives.token _ rfl
      apply Survives.absorb
      apply ihThen.bind
      apply Survives.closing
      apply Survives.absorb
      exact ihElse.imp fun _ _ _ hElse _ _ _ hThen _ _ hCondition =>
        .ifElse hCondition hThen hElse
  | generateInside _ _ ihSize ihLambda =>
      apply Survives.token _ rfl
      apply Survives.token _ rfl
      apply ihSize.bind
      apply Survives.token _ rfl
      apply Survives.absorb
      apply ihLambda.bind
      apply Survives.token _ rfl
      exact .here fun _ _ _ hLambda _ _ hSize => .generateInside hSize hLambda
  | generateBehind _ _ ihSize ihLambda =>
      apply Survives.token _ rfl
      apply Survives.token _ rfl
      apply ihSize.bind
      apply Survives.token _ rfl
      exact ihLambda.imp fun _ _ _ hLambda _ hSize => .generateBehind hSize hLambda
  | literal _ ih => exact .token _ rfl (.token _ rfl (ih.imp fun _ _ _ h => .literal h))
  | enclosed _ ih =>
      apply Survives.absorb
      apply ih.bind
      apply Survives.closing
      apply Survives.here
      exact fun _ _ _ _ h _ => .enclosed h
  | lambdaParameters _ ih =>
      apply Survives.token _ rfl
      apply Survives.absorb
      apply Survives.dense (dense_parameterList _)
      exact ih.imp fun _ _ _ h _ => .lambdaParameters h
  | lambdaBare _ ih =>
      apply Survives.token _ rfl
      apply Survives.behindGap
      exact ih.imp fun _ _ _ h n => .lambdaBare (h.enclosed_breaks n)
  | branchBraced _ ih =>
      apply Survives.token _ rfl
      apply Survives.behindGap
      exact ih.imp fun _ _ _ h n => .branchBraced (h.enclosed_breaks n)
  | branchBare hHead _ ih =>
      intro ts' hSpaced
      obtain ⟨rest', hRest, hExpr⟩ := ih ts' hSpaced
      refine ⟨rest', hRest, .branchBare ?_ hExpr⟩
      rwa [hSpaced.head?_eq hExpr.expr_noBreak]
  | argumentsNone =>
      apply Survives.absorb
      exact .token _ rfl (.here fun _ _ _ => .argumentsNone)
  | argumentsSome _ _ ihFirst ihMore =>
      apply Survives.absorb
      apply ihFirst.bind
      apply Survives.absorb
      exact ihMore.imp fun _ _ _ hMore _ _ hFirst _ => .argumentsSome hFirst hMore
  | moreClose => exact .token _ rfl (.here fun _ _ => .moreClose)
  | moreNext _ _ ihFirst ihMore =>
      apply Survives.token _ rfl
      apply Survives.absorb
      apply ihFirst.bind
      apply Survives.absorb
      exact ihMore.imp fun _ _ _ hMore _ _ hFirst _ => .moreNext hFirst hMore
  | expr _ _ ihLeft ihClimb =>
      apply ihLeft.bind
      exact ihClimb.imp fun _ _ _ hClimb _ hLeft => .expr hLeft hClimb
  | stop hRank =>
      exact .here fun _ hRest => .stop (Nat.le_trans hRest.stmtReplaces.rank hRank)
  | binary hRank _ _ ihRight ihClimb =>
      apply Survives.token _ rfl
      apply Survives.absorb
      apply ihRight.bind
      exact ihClimb.imp fun _ _ _ hClimb _ hRight _ => .binary hRank hRight hClimb
  | range hRank _ _ ihLast ihClimb =>
      apply Survives.token _ rfl
      apply ihLast.bind
      exact ihClimb.imp fun _ _ _ hClimb _ hLast => .range hRank hLast hClimb
  | stepBehind hRank _ ih => exact .token _ rfl (ih.imp fun _ _ _ h => .stepBehind hRank h)
  | call hRank _ _ ihArguments ihClimb =>
      apply Survives.token _ rfl
      apply ihArguments.bind
      exact ihClimb.imp fun _ _ _ hClimb _ hArguments => .call hRank hArguments hClimb
  | index hRank _ _ ihIndex ihClimb =>
      apply Survives.token _ rfl
      apply ihIndex.bind
      apply Survives.token _ rfl
      exact ihClimb.imp fun _ _ _ hClimb _ hIndex => .index hRank hIndex hClimb

/-- The first token of an expression stays the first. -/
theorem survives_head {power : Power} {e : Expr} (h : (Phrase.expr power e).Derives embed ts rest) :
    Survives false false
      (fun us rest => (Phrase.expr power e).Derives embed us rest ∧ us.head? = ts.head?) ts
      rest := by
  intro ts' hSpaced
  obtain ⟨rest', hRest, hDerived⟩ := h.survives ts' hSpaced
  exact ⟨rest', hRest, hDerived, hSpaced.head?_eq hDerived.expr_noBreak⟩

end Phrase.Derives

/-! ## Statements -/

/-- Whether an expression may stand as a statement shows in its first token. -/
theorem ExpressionHead.of_head? (hHead : ExpressionHead ts) (hEq : ts'.head? = ts.head?) :
    ExpressionHead ts' := by
  rcases hHead with ⟨n, us, rfl⟩ | ⟨op, us, rfl⟩
  · obtain ⟨us', rfl⟩ := List.head?_eq_some_iff.1 hEq
    exact .inl ⟨n, us', rfl⟩
  · obtain ⟨us', rfl⟩ := List.head?_eq_some_iff.1 hEq
    exact .inr ⟨op, us', rfl⟩

namespace Clause.Derives

variable {cl : Clause} {q : List Token} {ss : List Stmt} {body : Block}

/-- Line breaks may be added in front of a body. -/
theorem body_breaks (h : (Clause.body body).Derives ts rest) (n : Nat) :
    (Clause.body body).Derives (breaks n ++ ts) rest := by
  cases h with
  | bodyBlock hBlock =>
      rw [← List.append_assoc, breaks_append]
      exact .bodyBlock hBlock
  | bodySingle hHead hStmt =>
      rw [← List.append_assoc, breaks_append]
      exact .bodySingle hHead hStmt

/-- A sequence takes the separators behind it if it may. -/
theorem sequence_trailing (hq : Separators q)
    (h : (Clause.sequence ss).Derives ts (q ++ rest)) : (Clause.sequence ss).Derives ts rest := by
  generalize hClause : Clause.sequence ss = cl at h
  generalize hBehind : q ++ rest = behind at h
  induction h generalizing ss with
  | empty hBefore =>
      cases hClause
      rw [← hBehind, ← List.append_assoc]
      exact .empty (hBefore.append hq)
  | last hBefore hStmt =>
      cases hClause
      rw [← hBehind] at hStmt
      cases q with
      | nil => exact .last hBefore hStmt
      | cons t q =>
          have hMore : (Clause.sequence []).Derives (q ++ rest) rest :=
            .empty fun u hu => hq u (by simp [hu])
          exact .next hBefore hStmt (hq t (by simp)) hMore
  | next hBefore hStmt hBetween _ _ ihMore =>
      cases hClause
      exact .next hBefore hStmt hBetween (ihMore rfl hBehind)
  | _ => exact absurd hClause nofun

/-- A derived clause is derived again when its tokens are spaced. -/
theorem survives (h : cl.Derives ts rest) : Survives false false cl.Derives ts rest := by
  induction h with
  | declare hEnd =>
      apply Survives.token _ rfl
      apply Survives.token _ rfl
      apply Survives.dense (dense_annotated _)
      exact .here fun _ hRest => .declare (hRest.stmtReplaces.atEnd hEnd)
  | init hValue =>
      apply Survives.token _ rfl
      apply Survives.token _ rfl
      apply Survives.dense (dense_annotated _)
      apply Survives.token _ rfl
      apply Survives.absorb
      exact hValue.survives.imp fun _ _ _ h _ => .init h
  | assign hValue =>
      apply Survives.token _ rfl
      apply Survives.token _ rfl
      apply Survives.absorb
      exact hValue.survives.imp fun _ _ _ h _ => .assign h
  | compound hValue =>
      apply Survives.token _ rfl
      apply Survives.token _ rfl
      apply Survives.absorb
      exact hValue.survives.imp fun _ _ _ h _ => .compound h
  | call hHead hExpr =>
      exact hExpr.survives_head.imp fun _ _ _ h => .call (hHead.of_head? h.2) h.1
  | step hHead hExpr =>
      exact hExpr.survives_head.imp fun _ _ _ h => .step (hHead.of_head? h.2) h.1
  | ifThen hCondition _ hNoElse ih =>
      apply Survives.token _ rfl
      apply Survives.token _ rfl
      apply hCondition.survives.bind
      apply Survives.token _ rfl
      exact ih.imp fun _ _ hRest hThen _ hCondition =>
        .ifThen hCondition hThen fun hElse => hNoElse (hRest.elseAhead hElse)
  | ifElse hCondition _ _ ihThen ihElse =>
      apply Survives.token _ rfl
      apply Survives.token _ rfl
      apply hCondition.survives.bind
      apply Survives.token _ rfl
      apply ihThen.bind
      apply Survives.closing
      apply Survives.behindGap
      exact ihElse.imp fun _ _ _ hElse n _ _ hThen _ hCondition =>
        .ifElse hCondition hThen (hElse.body_breaks n)
  | forIn hSource _ ih =>
      apply Survives.token _ rfl
      apply Survives.token _ rfl
      apply Survives.token _ rfl
      apply Survives.token _ rfl
      apply hSource.survives.bind
      apply Survives.token _ rfl
      exact ih.imp fun _ _ _ hBody _ hSource => .forIn hSource hBody
  | whileLoop hCondition _ ih =>
      apply Survives.token _ rfl
      apply Survives.token _ rfl
      apply hCondition.survives.bind
      apply Survives.token _ rfl
      exact ih.imp fun _ _ _ hBody _ hCondition => .whileLoop hCondition hBody
  | control => exact .token _ rfl (.here fun _ _ => .control)
  | function _ ih =>
      apply Survives.token _ rfl
      apply Survives.token _ rfl
      apply Survives.token _ rfl
      apply Survives.dense (dense_functionParameters _)
      apply Survives.token _ rfl
      apply Survives.token _ rfl
      apply Survives.dense (Ty.dense_tokens _)
      apply Survives.absorb
      exact ih.imp fun _ _ _ h _ => .function h
  | returns hValue => exact .token _ rfl (hValue.survives.imp fun _ _ _ h => .returns h)
  | output hValue =>
      exact .token _ rfl (.token _ rfl (hValue.survives.imp fun _ _ _ h => .output h))
  | block _ ih => exact ih.imp fun _ _ _ h => .block h
  | braces _ ih =>
      apply Survives.token _ rfl
      apply Survives.behindGap
      apply ih.bind
      apply Survives.closing (m := 0)
      apply Survives.here
      exact fun _ _ n _ hInside k => .braces ((hInside.sequence_trailing
        (separators_breaks n)).sequence_separators (separators_breaks k))
  | bodyBlock _ ih => exact .absorb (ih.imp fun _ _ _ h _ => .bodyBlock h)
  | bodySingle hHead _ ih =>
      apply Survives.absorb
      intro ts' hSpaced
      obtain ⟨rest', hRest, hStmt⟩ := ih ts' hSpaced
      refine ⟨rest', hRest, fun _ => .bodySingle ?_ hStmt⟩
      rwa [hSpaced.head?_eq hStmt.stmt_noSeparator.noBreak]
  | empty hBefore => exact .dense (dense_separators hBefore) (.here fun _ _ => .empty hBefore)
  | last hBefore _ ih =>
      exact .dense (dense_separators hBefore) (ih.imp fun _ _ _ h => .last hBefore h)
  | @next _ _ _ t _ _ _ hBefore _ hBetween _ ihFirst ihMore =>
      have hOne : Dense [t] := dense_separators (by simpa [Separators] using hBetween)
      apply Survives.dense (dense_separators hBefore)
      apply ihFirst.bind
      apply Survives.dense hOne
      exact ihMore.imp fun _ _ _ hMore _ hFirst => .next hBefore hFirst hBetween hMore

end Clause.Derives

/-! ## Whole inputs -/

/-- Nothing is added among tokens that leave no place for it. -/
theorem Spaced.eq_of_dense (hDense : Dense ts) (h : Spaced false ts ts') : ts' = ts := by
  have hSame : Survives false false (fun us rest => us = ts ++ rest) (ts ++ []) [] :=
    .dense hDense (.here fun _ _ => rfl)
  rw [List.append_nil] at hSame
  obtain ⟨rest, hRest, hEq⟩ := hSame ts' h
  rw [hEq, hRest.eq_nil, List.append_nil]

theorem parseProgram_spaced {p : Program} (h : Spaced false ts ts')
    (hRun : parseProgram ts = .ok p) : parseProgram ts' = .ok p := by
  rw [parseProgram_eq_ok] at hRun ⊢
  obtain ⟨rest, hRest, hSequence⟩ := hRun.2.survives ts' h
  rw [hRest.eq_nil] at hSequence
  exact ⟨hRun.1, hSequence⟩

theorem parseStatement_spaced {s : Stmt} (h : Spaced false ts ts')
    (hRun : parseStatement ts = .ok s) : parseStatement ts' = .ok s := by
  rw [parseStatement_eq_ok] at hRun ⊢
  obtain ⟨q, ts₁, r, rfl, hBefore, hStmt, hBehind⟩ := hRun
  have hAll : Survives false false (fun ts rest => ∃ ts₁, ts = q ++ ts₁ ∧
      (Clause.stmt s).Derives ts₁ rest) (q ++ ts₁) r :=
    .dense (dense_separators hBefore) (hStmt.survives.imp fun ts _ _ h => ⟨ts, rfl, h⟩)
  obtain ⟨r', hRest, ts₁', rfl, hStmt'⟩ := hAll ts' h
  rw [hRest.eq_of_dense (dense_separators hBehind)] at hStmt'
  exact ⟨q, ts₁', r, rfl, hBefore, hStmt', hBehind⟩

theorem parseExpression_spaced {e : Expr} (h : Spaced false ts ts')
    (hRun : parseExpression ts = .ok e) : parseExpression ts' = .ok e := by
  rw [parseExpression_eq_ok] at hRun ⊢
  obtain ⟨rest, hRest, hExpr⟩ := hRun.survives ts' h
  rw [hRest.eq_nil] at hExpr
  exact hExpr

/-- Line breaks may be added behind operators, `=` and compound marks, behind
an opening and before a closing brace, and around `else`, in any number and at
any of these places together: the tokens are read as the same tree. -/
theorem read_with_breaks (h : Relation.ReflTransGen BreaksAdded ts ts') :
    (∀ p : Program, parseProgram ts = .ok p → parseProgram ts' = .ok p) ∧
    (∀ s : Stmt, parseStatement ts = .ok s → parseStatement ts' = .ok s) ∧
    (∀ e : Expr, parseExpression ts = .ok e → parseExpression ts' = .ok e) := by
  induction h with
  | refl => exact ⟨fun _ hRun => hRun, fun _ hRun => hRun, fun _ hRun => hRun⟩
  | tail _ hStep ih =>
      have hSpaced := Spaced.of_added hStep false
      refine ⟨fun p hRun => ?_, fun s hRun => ?_, fun e hRun => ?_⟩
      · exact parseProgram_spaced hSpaced (ih.1 p hRun)
      · exact parseStatement_spaced hSpaced (ih.2.1 s hRun)
      · exact parseExpression_spaced hSpaced (ih.2.2 e hRun)

/-- The statement `if (a) b += 1 else c++` with a line break behind `+=` and two
before `else`. -/
theorem read_spaced_conditional :
    parseStatement [.keyword .ifWord, .bracket .openParen, .name "a", .bracket .closeParen,
        .name "b", .infixMark (.compound .plus), .symbol .lineBreak, .int 1, .symbol .lineBreak,
        .symbol .lineBreak, .keyword .elseWord, .name "c", .unaryMark (.step .increase)] =
      .ok (.ifElse (.var "a") [.compound "b" .plus (.int 1)] [.step "c" .increase false]) := by
  have hMark : BreaksAdded
      ([.keyword .ifWord, .bracket .openParen, .name "a", .bracket .closeParen, .name "b"] ++
        .infixMark (.compound .plus) ::
          [.int 1, .keyword .elseWord, .name "c", .unaryMark (.step .increase)])
      _ := .behind 1 rfl
  have hElse : BreaksAdded
      ([.keyword .ifWord, .bracket .openParen, .name "a", .bracket .closeParen, .name "b",
          .infixMark (.compound .plus), .symbol .lineBreak, .int 1] ++
        .keyword .elseWord :: [.name "c", .unaryMark (.step .increase)])
      _ := .before 2 rfl
  exact (read_with_breaks (.tail (.tail .refl hMark) hElse)).2.1 _ rfl

end ScriptLang
