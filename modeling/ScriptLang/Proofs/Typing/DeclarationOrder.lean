import ScriptLang.Proofs.Typing.SessionState
import ScriptLang.Proofs.Typing.TwoRuns

/-!
# The order of declarations

Two functions that have different names and do not call each other may be
declared in either order (`independent_declarations`).

Each of them is accepted behind the other exactly if it is accepted alone, since
only the functions that it calls, and those of its own name, play a part in its
check (`checkFunction_behind`). Behind both, the two tables differ in their order
only, and no lookup sees that: the two functions never have one signature. So
the rest of the program ends alike.
-/

namespace ScriptLang

open Checker

variable {f g : FunctionDecl} {names : List String} {session : Session} {env : Environment}
  {loopOk returnOk : Bool}

/-- The functions have different names, and neither calls a function of the
other's name. -/
structure FunctionDecl.Independent (f g : FunctionDecl) : Prop where
  names : f.name ≠ g.name
  calls : g.name ∉ blockCallees f.body
  called : f.name ∉ blockCallees g.body

theorem FunctionDecl.Independent.symm (h : f.Independent g) : g.Independent f :=
  ⟨h.names.symm, h.called, h.calls⟩

/-! ## Tables -/

/-- A declared function is found under its own name only. -/
theorem agreeOn_declaring (session : Session) (hName : f.name ∉ names) :
    session.functions.AgreeOn names (session.declaring [f]).functions := by
  intro name hLookedUp types
  have hOther : (f.signature == ⟨name, types⟩) = false := by
    refine beq_false_of_ne fun hSame => hName ?_
    have hNames : f.name = name := congrArg Signature.name hSame
    rwa [hNames]
  simp [SignatureTable.get?, Session.declaring, List.find?_append, hOther]

/-- The order of two functions is not seen by a lookup. -/
theorem agreeOn_swap (session : Session) (hNames : f.name ≠ g.name) (names : List String) :
    (session.declaring [f, g]).functions.AgreeOn names (session.declaring [g, f]).functions := by
  intro name _ types
  by_cases hFirst : f.signature = ⟨name, types⟩
  · have hSecond : (g.signature == ⟨name, types⟩) = false := by
      refine beq_false_of_ne fun hSame => hNames ?_
      exact congrArg Signature.name (hFirst.trans hSame.symm)
    simp [SignatureTable.get?, Session.declaring, List.find?_append, List.find?_cons, hSecond]
  · have hOther : (f.signature == ⟨name, types⟩) = false := beq_false_of_ne hFirst
    simp [SignatureTable.get?, Session.declaring, List.find?_append, List.find?_cons, hOther]

theorem perm_swap (session : Session) (f g : FunctionDecl) :
    (session.declaring [f, g]).functions.entries.Perm
      (session.declaring [g, f]).functions.entries :=
  List.Perm.append_left _ (List.Perm.swap _ _ [])

/-! ## One function -/

/-- A function is accepted behind another one if it is accepted alone. -/
theorem checkFunction_behind (h : f.Independent g) :
    checkStmt env loopOk returnOk g.toStmt (session.declaring [f]) =
        .ok env (session.declaring [f, g]) ↔
      checkStmt env loopOk returnOk g.toStmt session = .ok env (session.declaring [g]) := by
  have hTable : session.functions.AgreeOn (g.name :: blockCallees g.body)
      (session.declaring [f]).functions := by
    refine agreeOn_declaring session fun hMem => ?_
    rcases List.mem_cons.1 hMem with hSame | hCalled
    · exact h.names hSame
    · exact h.called hCalled
  have hDeclared : ∀ d ∈ g.toStmt.declaration?, d.name ∈ g.name :: blockCallees g.body := by
    rintro _ ⟨⟩
    exact List.mem_cons_self
  have hEnd : EndAlike session.functions (session.declaring [f]).functions (env.GrownAlike env)
      (checkStmt env loopOk returnOk g.toStmt session)
      (checkStmt env loopOk returnOk g.toStmt (session.declaring [f])) :=
    checkStmt_twin_of_callees hTable g.toStmt loopOk returnOk (List.Subset.refl _)
      (List.subset_cons_self _ _) hDeclared (fun _ _ => rfl) (.refl _ _ session.results)
  rcases checkFunction_cases session env loopOk returnOk g with ⟨e, hAlone⟩ | ⟨-, hAlone⟩
  · rcases checkFunction_cases (session.declaring [f]) env loopOk returnOk g with
      ⟨e', hBehind⟩ | ⟨-, hBehind⟩
    · rw [hAlone, hBehind]
      exact ⟨nofun, nofun⟩
    · rw [hAlone, hBehind] at hEnd
      cases hEnd
  · rcases checkFunction_cases (session.declaring [f]) env loopOk returnOk g with
      ⟨e', hBehind⟩ | ⟨-, hBehind⟩
    · rw [hAlone, hBehind] at hEnd
      cases hEnd
    · rw [Session.declaring_declaring] at hBehind
      exact ⟨fun _ => hAlone, fun _ => hBehind⟩

/-! ## Two functions -/

/-- Two functions are declared one behind the other, or one of them fails. -/
theorem checkPair_cases (session : Session) (env : Environment) (f g : FunctionDecl) :
    (∃ e left, checkTopLevel env [f.toStmt, g.toStmt] session = .error e left) ∨
      checkTopLevel env [f.toStmt, g.toStmt] session = .ok env (session.declaring [f, g]) := by
  rw [checkTopLevel_cons]
  rcases checkFunction_cases session env false false f with ⟨e, hFirst⟩ | ⟨-, hFirst⟩
  · exact .inl ⟨e, session, bind_of_error hFirst⟩
  · rw [bind_of_ok hFirst, checkTopLevel_cons]
    rcases checkFunction_cases (session.declaring [f]) env false false g with
      ⟨e, hSecond⟩ | ⟨-, hSecond⟩
    · exact .inl ⟨e, _, bind_of_error hSecond⟩
    · rw [bind_of_ok hSecond, Session.declaring_declaring]
      exact .inr rfl

/-- Independent functions are declared one behind the other exactly if each is
accepted alone. -/
theorem checkPair_eq_ok (h : f.Independent g) :
    checkTopLevel env [f.toStmt, g.toStmt] session = .ok env (session.declaring [f, g]) ↔
      checkStmt env false false f.toStmt session = .ok env (session.declaring [f]) ∧
        checkStmt env false false g.toStmt session = .ok env (session.declaring [g]) := by
  rw [← checkFunction_behind h, checkTopLevel_cons]
  constructor
  · intro hBoth
    rcases checkFunction_cases session env false false f with ⟨e, hFirst⟩ | ⟨-, hFirst⟩
    · rw [bind_of_error hFirst] at hBoth
      exact absurd hBoth nofun
    · rw [bind_of_ok hFirst, checkTopLevel_cons] at hBoth
      obtain ⟨env', left, hSecond, hEnd⟩ := bind_eq_ok.1 hBoth
      cases hEnd
      exact ⟨hFirst, hSecond⟩
  · rintro ⟨hFirst, hSecond⟩
    rw [bind_of_ok hFirst, checkTopLevel_cons, bind_of_ok hSecond]
    rfl

theorem checkPair_swap (h : f.Independent g) :
    checkTopLevel env [f.toStmt, g.toStmt] session = .ok env (session.declaring [f, g]) ↔
      checkTopLevel env [g.toStmt, f.toStmt] session = .ok env (session.declaring [g, f]) := by
  rw [checkPair_eq_ok h, checkPair_eq_ok h.symm, and_comm]

/-! ## Whole programs -/

/-- Both orders of two functions fail, or what follows them ends alike. -/
theorem checkTopLevel_swap (h : f.Independent g) (session : Session) (env : Environment)
    (after : Program) :
    ((∃ e left, checkTopLevel env [f.toStmt, g.toStmt] session = .error e left) ∧
      ∃ e left, checkTopLevel env [g.toStmt, f.toStmt] session = .error e left) ∨
    EndAlike (session.declaring [f, g]).functions (session.declaring [g, f]).functions (· = ·)
      (checkTopLevel env (f.toStmt :: g.toStmt :: after) session)
      (checkTopLevel env (g.toStmt :: f.toStmt :: after) session) := by
  rcases checkPair_cases session env f g with ⟨e, left, hFails⟩ | hBoth
  · rcases checkPair_cases session env g f with hOther | hOther
    · exact .inl ⟨⟨e, left, hFails⟩, hOther⟩
    · rw [(checkPair_swap h).2 hOther] at hFails
      exact absurd hFails nofun
  · have hSwapped := (checkPair_swap h).1 hBoth
    have hFirst : checkTopLevel env (f.toStmt :: g.toStmt :: after) session =
        checkTopLevel env after (session.declaring [f, g]) := checkTopLevel_behind hBoth after
    have hSecond : checkTopLevel env (g.toStmt :: f.toStmt :: after) session =
        checkTopLevel env after (session.declaring [g, f]) := checkTopLevel_behind hSwapped after
    have hTable := agreeOn_swap session h.names (blockNames after)
    rw [hFirst, hSecond]
    refine .inr (((checkTopLevel_twin hTable after (List.Subset.refl _) fun _ _ => rfl).imp
      fun _ _ hGrown => ?_) (.refl _ _ session.results))
    exact hGrown.eq

/-- Two functions that have different names and do not call each other may be
declared in either order, whatever stands in front of them and behind them. The
program succeeds in both orders or in none. If it succeeds, the environments are
equal, and so are the tables but for their order, which no lookup sees. If it
fails behind the two functions, it fails with the same error. -/
theorem independent_declarations (h : f.Independent g) (session : Session)
    (before after : Program) :
    ((∃ env left, checkProgram (before ++ f.toStmt :: g.toStmt :: after) session = .ok env left) ↔
      ∃ env left, checkProgram (before ++ g.toStmt :: f.toStmt :: after) session = .ok env left) ∧
    (∀ env₁ env₂ left₁ left₂,
      checkProgram (before ++ f.toStmt :: g.toStmt :: after) session = .ok env₁ left₁ →
      checkProgram (before ++ g.toStmt :: f.toStmt :: after) session = .ok env₂ left₂ →
        env₁ = env₂ ∧ left₁.results = left₂.results ∧
          left₁.functions.entries.Perm left₂.functions.entries ∧
          ∀ signature, left₁.functions.get? signature = left₂.functions.get? signature) ∧
    (∀ env left, checkProgram (before ++ [f.toStmt, g.toStmt]) session = .ok env left → ∀ e,
      (∃ left, checkProgram (before ++ f.toStmt :: g.toStmt :: after) session = .error e left) ↔
        ∃ left, checkProgram (before ++ g.toStmt :: f.toStmt :: after) session =
          .error e left) := by
  simp only [checkProgram]
  cases hBefore : checkTopLevel .empty before session with
  | error e left =>
      rw [checkTopLevel_behind_error hBefore, checkTopLevel_behind_error hBefore,
        checkTopLevel_behind_error hBefore]
      exact ⟨.rfl, nofun, nofun⟩
  | ok env mid =>
      rw [checkTopLevel_behind hBefore, checkTopLevel_behind hBefore,
        checkTopLevel_behind hBefore]
      rcases checkTopLevel_swap h mid env after with
        ⟨⟨e, left, hFails⟩, ⟨e', left', hFails'⟩⟩ | hEnd
      · have hFirst : checkTopLevel env (f.toStmt :: g.toStmt :: after) mid = .error e left :=
          checkTopLevel_behind_error hFails after
        have hSecond : checkTopLevel env (g.toStmt :: f.toStmt :: after) mid = .error e' left' :=
          checkTopLevel_behind_error hFails' after
        rw [hFirst, hSecond, hFails]
        exact ⟨⟨nofun, nofun⟩, nofun, nofun⟩
      · refine ⟨hEnd.ok_iff, ?_, fun _ _ _ e => hEnd.error_iff e⟩
        intro env₁ env₂ left₁ left₂ hFirst hSecond
        rw [hFirst, hSecond] at hEnd
        obtain ⟨hLeft, rfl⟩ := hEnd.of_ok
        refine ⟨rfl, hLeft.results, hLeft.perm (perm_swap mid f g), ?_⟩
        intro signature
        have hTable := agreeOn_swap mid h.names [signature.name]
        exact hLeft.agreeOn hTable signature.name List.mem_cons_self signature.parameters

/-- `fun echo(one: Int): Int`, which returns its parameter. -/
def returnsParameter : FunctionDecl := ⟨"echo", [("one", .int)], .int, [.returns (.var "one")]⟩

/-- The declaration of `b` by `echo(a) + one()`. -/
def addsBoth (ty? : Option Ty) : Program :=
  [.assign "b" (.binary (.call "echo" [.var "a"]) (.arithmetic .plus) (.call "one" [])) ty?
    true true]

/-- The parameter `one` is no call of the function `one`, so both orders of the
two functions behind `val a = 1` are good for a program that calls them. Both
fail alike where the sum is taken for a string. -/
theorem orders_of_echo_and_one :
    let before : Program := [.assign "a" (.int 1) none true true]
    let left₁ := Session.empty.declaring [returnsParameter, returnsOne]
    let left₂ := Session.empty.declaring [returnsOne, returnsParameter]
    returnsParameter.Independent returnsOne ∧
      (∃ env left, checkProgram (before ++ returnsOne.toStmt :: returnsParameter.toStmt ::
        addsBoth none) .empty = .ok env left) ∧
      (left₁.results = left₂.results ∧
        left₁.functions.entries.Perm left₂.functions.entries ∧
        ∀ signature, left₁.functions.get? signature = left₂.functions.get? signature) ∧
      ∃ left, checkProgram (before ++ returnsOne.toStmt :: returnsParameter.toStmt ::
        addsBoth (some .string)) .empty = .error (.mismatch .string .int) left := by
  intro before left₁ left₂
  let onlyA := Environment.empty.bind "a" .int true
  let both := onlyA.bind "b" .int true
  have hIndependent : returnsParameter.Independent returnsOne :=
    ⟨by decide, by decide, by decide⟩
  have hGood := independent_declarations hIndependent .empty before (addsBoth none)
  have hBad := independent_declarations hIndependent .empty before (addsBoth (some .string))
  exact ⟨hIndependent, hGood.1.1 ⟨both, left₁, rfl⟩,
    (hGood.2.1 both both left₁ left₂ rfl rfl).2,
    (hBad.2.2 onlyA left₁ rfl _).1 ⟨left₁, rfl⟩⟩

end ScriptLang
