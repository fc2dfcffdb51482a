import ScriptLang.Proofs.Typing.Unchanged

/-!
# The state of a session

What a statement and a program do to the session they are checked in. Only a
function declaration that succeeds changes it: it puts its function at the end
of the table, under its signature, which was free. After a program the table
holds in addition the functions declared in front of the first statement that
fails.

A table is built by declaring functions in the empty one (`Built`), and checking
keeps it so. In a built table every key is the signature of its function, and no
key occurs twice (`WellKeyed`).

## Main results

* `checkStmt_cases`, `checkTopLevel_cases` : the outcome of a statement and of a
  program, with the session that is left.
* `session_exact` : the same with blocks and with the keys, over any calls.
-/

namespace ScriptLang

open Checker

variable {session : Session} {f : FunctionDecl} {s : Stmt} {env : Environment}
  {loopOk returnOk : Bool}

/-! ## Declaring functions -/

/-- The session with functions declared behind the others. -/
def Session.declaring (session : Session) (fs : List FunctionDecl) : Session :=
  { session with functions := ⟨session.functions.entries ++ fs.map fun f => (f.signature, f)⟩ }

@[simp] theorem Session.declaring_nil (session : Session) : session.declaring [] = session := by
  simp [declaring]

@[simp] theorem Session.declaring_declaring (session : Session) (fs gs : List FunctionDecl) :
    (session.declaring fs).declaring gs = session.declaring (fs ++ gs) := by
  simp [declaring]

/-- A function under a free signature is declared. -/
theorem declareFunction_of_free (hFree : f.signature ∉ session.functions.signatures) :
    declareFunction f session = .ok () (session.declaring [f]) := by
  have hDeclare := (SignatureTable.declare_eq_ok_iff session.functions _ f).2 ⟨hFree, rfl⟩
  rw [declareFunction, hDeclare]
  rfl

theorem expectUndeclared_eq_ok {signature : Signature} {table : SignatureTable} :
    expectUndeclared signature table = .ok () ↔ signature ∉ table.signatures := by
  rw [← SignatureTable.contains_iff, expectUndeclared]
  cases table.contains signature <;> simp

/-- A checker that leaves the session as it was succeeds or fails in it. -/
theorem Checker.Keeps.cases {α : Type} {p : Checker α} (hp : Keeps p) (session : Session) :
    (∃ a, p session = .ok a session) ∨ ∃ e, p session = .error e session := by
  cases hRun : p session with
  | ok a left => exact .inl ⟨a, by rw [← hp session, after_of_ok hRun]⟩
  | error e left => exact .inr ⟨e, by rw [← hp session, after_of_error hRun]⟩

/-- Where the signature was free and the body has been checked, the signature is
still free: the declaration cannot fail any more. -/
theorem declare_after_body {inner env' : Environment} {left : Session}
    (hFree : expectUndeclared f.signature session.functions = .ok ())
    (hBody : within f.result (checkBlock inner false true f.body) session = .ok env' left) :
    ∃ table, left.functions.declare f = .ok table := by
  have hKeeps := (checkBlock_keeps f.body inner false true).within f.result session
  rw [after_of_ok hBody] at hKeeps
  rw [hKeeps]
  exact ⟨_, (SignatureTable.declare_eq_ok_iff _ _ f).2 ⟨expectUndeclared_eq_ok.1 hFree, rfl⟩⟩

/-! ## Statements -/

theorem checkFunction_cases (session : Session) (env : Environment) (loopOk returnOk : Bool)
    (f : FunctionDecl) :
    (∃ e, checkStmt env loopOk returnOk f.toStmt session = .error e session) ∨
      (f.signature ∉ session.functions.signatures ∧
        checkStmt env loopOk returnOk f.toStmt session = .ok env (session.declaring [f])) := by
  obtain ⟨name, parameters, result, body⟩ := f
  simp only [FunctionDecl.toStmt, checkStmt]
  rcases (Keeps.infer (expectUndeclared (FunctionDecl.signature
      ⟨name, parameters, result, body⟩))).cases session with ⟨⟨⟩, hFresh⟩ | ⟨e, hTaken⟩
  · have hFree := expectUndeclared_eq_ok.1 (infer_eq_ok.1 hFresh).1
    rw [bind_of_ok hFresh]
    rcases (Keeps.ofExcept (bindFunctionParameters env [] parameters)).cases session with
      ⟨inner, hInner⟩ | ⟨e, hInner⟩
    · rw [bind_of_ok hInner]
      rcases ((checkBlock_keeps body inner false true).within result).cases session with
        ⟨_, hBody⟩ | ⟨e, hBody⟩
      · rw [bind_of_ok hBody, bind_of_ok (declareFunction_of_free hFree)]
        exact .inr ⟨hFree, rfl⟩
      · exact .inl ⟨e, bind_of_error hBody⟩
    · exact .inl ⟨e, bind_of_error hInner⟩
  · exact .inl ⟨e, bind_of_error hTaken⟩

/-- A statement that fails leaves the session as it was. One that succeeds
declares the function that it declares, under a signature that was free. -/
theorem checkStmt_cases (session : Session) (env : Environment) (loopOk returnOk : Bool)
    (s : Stmt) :
    (∃ e, checkStmt env loopOk returnOk s session = .error e session) ∨
      ∃ env', checkStmt env loopOk returnOk s session =
          .ok env' (session.declaring s.declaration?.toList) ∧
        ∀ f ∈ s.declaration?, f.signature ∉ session.functions.signatures := by
  cases hDeclares : s.declaration? with
  | none =>
      rcases (checkStmt_keeps s env loopOk returnOk hDeclares).cases session with
        ⟨env', hRun⟩ | ⟨e, hRun⟩
      · exact .inr ⟨env', by simpa using hRun, nofun⟩
      · exact .inl ⟨e, hRun⟩
  | some f =>
      rw [Stmt.declaration?_eq_some hDeclares]
      rcases checkFunction_cases session env loopOk returnOk f with ⟨e, hRun⟩ | ⟨hFree, hRun⟩
      · exact .inl ⟨e, hRun⟩
      · refine .inr ⟨env, hRun, ?_⟩
        intro g hg
        rwa [← Option.some.inj hg]

/-! ## Programs -/

/-- The functions that top-level statements declare. -/
def declarations (p : Program) : List FunctionDecl := p.filterMap Stmt.declaration?

theorem declarations_cons (s : Stmt) (p : Program) :
    declarations (s :: p) = s.declaration?.toList ++ declarations p := by
  rw [declarations, List.filterMap_cons]
  cases s.declaration? <;> rfl

/-- A program is checked up to its first failing statement, if there is one. The
functions declared in front of it stay declared, and nothing else changes. -/
theorem checkTopLevel_cases (p : Program) : ∀ (env : Environment) (session : Session),
    ∃ done rest env', p = done ++ rest ∧
      checkTopLevel env done session = .ok env' (session.declaring (declarations done)) ∧
      ((rest = [] ∧
          checkTopLevel env p session = .ok env' (session.declaring (declarations done))) ∨
        ∃ s rest' e, rest = s :: rest' ∧
          checkStmt env' false false s (session.declaring (declarations done)) =
            .error e (session.declaring (declarations done)) ∧
          checkTopLevel env p session = .error e (session.declaring (declarations done))) := by
  induction p with
  | nil =>
      intro env session
      have hDone :
          checkTopLevel env [] session = .ok env (session.declaring (declarations [])) := by
        rw [declarations, List.filterMap_nil, Session.declaring_nil]
        rfl
      exact ⟨[], [], env, rfl, hDone, .inl ⟨rfl, hDone⟩⟩
  | cons s p ih =>
      intro env session
      rcases checkStmt_cases session env false false s with ⟨e, hRun⟩ | ⟨env₁, hRun, -⟩
      · have hStart : session.declaring (declarations []) = session := session.declaring_nil
        refine ⟨[], s :: p, env, rfl, by rw [hStart]; rfl, .inr ⟨s, p, e, rfl, ?_⟩⟩
        rw [hStart, checkTopLevel_cons, bind_of_error hRun]
        exact ⟨hRun, rfl⟩
      · obtain ⟨done, rest, env', rfl, hDone, hRest⟩ :=
          ih env₁ (session.declaring s.declaration?.toList)
        rw [Session.declaring_declaring, ← declarations_cons] at hDone hRest
        refine ⟨s :: done, rest, env', rfl, ?_, ?_⟩
        · rw [checkTopLevel_cons, bind_of_ok hRun, hDone]
        · rw [checkTopLevel_cons, bind_of_ok hRun]
          exact hRest

/-! ## Keys -/

namespace SignatureTable

/-- The tables that can be built: functions are only added by declaring them. -/
inductive Built : SignatureTable → Prop
  | empty : Built .empty
  | declare {table table' : SignatureTable} {f : FunctionDecl} (hTable : Built table)
      (hDeclare : table.declare f = .ok table') : Built table'

/-- Every key is the signature of its function, and no key occurs twice. -/
structure WellKeyed (table : SignatureTable) : Prop where
  keyed : ∀ entry ∈ table.entries, entry.1 = entry.2.signature
  distinct : table.signatures.Nodup

theorem WellKeyed.declare {table table' : SignatureTable} (h : table.WellKeyed)
    (hDeclare : table.declare f = .ok table') : table'.WellKeyed := by
  obtain ⟨hFree, rfl⟩ := (declare_eq_ok_iff table table' f).1 hDeclare
  refine ⟨?_, ?_⟩
  · intro entry hEntry
    rcases List.mem_append.1 hEntry with hOld | hNew
    · exact h.keyed entry hOld
    · rw [List.mem_singleton.1 hNew]
  · have hSplit : signatures ⟨table.entries ++ [(f.signature, f)]⟩ =
        table.signatures ++ [f.signature] := by simp [signatures]
    rw [hSplit, List.nodup_append]
    refine ⟨h.distinct, by simp, ?_⟩
    intro signature hOld other hNew hEq
    rw [List.mem_singleton.1 hNew] at hEq
    exact hFree (hEq ▸ hOld)

theorem Built.wellKeyed {table : SignatureTable} (h : table.Built) : table.WellKeyed := by
  induction h with
  | empty => exact ⟨nofun, List.nodup_nil⟩
  | declare _ hDeclare ih => exact ih.declare hDeclare

end SignatureTable

/-! ## Sequences of calls -/

/-- A request to a checker. -/
inductive Call
  | stmt (env : Environment) (loopOk returnOk : Bool) (s : Stmt)
  | block (env : Environment) (loopOk returnOk : Bool) (body : Block)
  | program (p : Program)

/-- The session after a call, whatever its outcome. -/
def Call.run : Call → Session → Session
  | .stmt env loopOk returnOk s => (checkStmt env loopOk returnOk s).after
  | .block env loopOk returnOk body => (checkBlock env loopOk returnOk body).after
  | .program p => (checkProgram p).after

/-- The session after calls one after the other. -/
def sessionAfter (calls : List Call) (session : Session) : Session :=
  calls.foldl (fun session call => call.run session) session

/-- What a session keeps while calls change it: its table stays a built one, and
its result types are those of `start`. -/
structure Session.Sound (start session : Session) : Prop where
  built : session.functions.Built
  results : session.results = start.results

namespace Session.Sound

variable {start : Session}

theorem declaring (h : start.Sound session)
    (hFree : f.signature ∉ session.functions.signatures) :
    start.Sound (session.declaring [f]) where
  built := h.built.declare ((SignatureTable.declare_eq_ok_iff _ _ f).2 ⟨hFree, rfl⟩)
  results := h.results

theorem stmt (h : start.Sound session) (env : Environment) (loopOk returnOk : Bool) (s : Stmt) :
    start.Sound ((checkStmt env loopOk returnOk s).after session) := by
  rcases checkStmt_cases session env loopOk returnOk s with ⟨e, hRun⟩ | ⟨env', hRun, hFree⟩
  · rwa [after_of_error hRun]
  · rw [after_of_ok hRun]
    cases hDeclares : s.declaration? with
    | none => rwa [Option.toList_none, declaring_nil]
    | some f => exact h.declaring (hFree f hDeclares)

/-- Each top-level statement keeps a session sound, so a run over them does. -/
theorem topLevel (p : Program) : ∀ (env : Environment) (session : Session),
    start.Sound session → start.Sound ((checkTopLevel env p).after session) := by
  induction p with
  | nil => exact fun env session h => h
  | cons s p ih =>
      intro env session h
      have hStep := h.stmt env false false s
      rw [checkTopLevel_cons]
      cases hRun : checkStmt env false false s session with
      | ok env' left =>
          rw [after_of_ok hRun] at hStep
          rw [after, bind_of_ok hRun]
          exact ih env' left hStep
      | error e left =>
          rw [after_of_error hRun] at hStep
          rwa [after_of_error (bind_of_error hRun)]

theorem run (h : start.Sound session) (call : Call) : start.Sound (call.run session) := by
  cases call with
  | stmt env loopOk returnOk s => exact h.stmt env loopOk returnOk s
  | block env loopOk returnOk body =>
      rw [Call.run, checkBlock_keeps body env loopOk returnOk session]
      exact h
  | program p => exact topLevel p .empty session h

theorem sessionAfter (h : start.Sound session) (calls : List Call) :
    start.Sound (sessionAfter calls session) := by
  induction calls generalizing session with
  | nil => exact h
  | cons call calls ih => exact ih (h.run call)

end Session.Sound

/-! ## The state is exact -/

/-- What a session is left with, on success and on failure. A statement changes
it only by a function declaration that succeeds; a block never changes it, so a
declaration whose body has been checked does not fail any more; a program
declares the functions in front of its first failing statement; and over any
calls the result types stay the same and the keys are the distinct signatures of
their functions. -/
theorem session_exact :
    (∀ (session : Session) (env : Environment) (loopOk returnOk : Bool) (s : Stmt),
      (∃ e, checkStmt env loopOk returnOk s session = .error e session) ∨
        ∃ env', checkStmt env loopOk returnOk s session =
            .ok env' (session.declaring s.declaration?.toList) ∧
          ∀ f ∈ s.declaration?, f.signature ∉ session.functions.signatures) ∧
    (∀ (session : Session) (env : Environment) (loopOk returnOk : Bool) (body : Block),
      (checkBlock env loopOk returnOk body).after session = session) ∧
    (∀ (session left : Session) (f : FunctionDecl) (inner env' : Environment),
      expectUndeclared f.signature session.functions = .ok () →
      within f.result (checkBlock inner false true f.body) session = .ok env' left →
      ∃ table, left.functions.declare f = .ok table) ∧
    (∀ (session : Session) (p : Program), ∃ done rest env', p = done ++ rest ∧
      checkProgram done session = .ok env' (session.declaring (declarations done)) ∧
      ((rest = [] ∧
          checkProgram p session = .ok env' (session.declaring (declarations done))) ∨
        ∃ s rest' e, rest = s :: rest' ∧
          checkStmt env' false false s (session.declaring (declarations done)) =
            .error e (session.declaring (declarations done)) ∧
          checkProgram p session = .error e (session.declaring (declarations done)))) ∧
    (∀ (session : Session) (calls : List Call), session.functions.Built →
      (sessionAfter calls session).functions.WellKeyed ∧
        (sessionAfter calls session).results = session.results) := by
  refine ⟨checkStmt_cases, fun session env loopOk returnOk body =>
    checkBlock_keeps body env loopOk returnOk session, ?_, ?_, ?_⟩
  · intro session left f inner env' hFree hBody
    exact declare_after_body hFree hBody
  · exact fun session p => checkTopLevel_cases p .empty session
  · intro session calls hBuilt
    have hStart : session.Sound session := ⟨hBuilt, rfl⟩
    have hAfter := hStart.sessionAfter calls
    exact ⟨hAfter.built.wellKeyed, hAfter.results⟩

/-- `fun one(): Int` with its body `return 1`. -/
def returnsOne : FunctionDecl := ⟨"one", [], .int, [.returns (.int 1)]⟩

/-- The function is declared once, though it is given twice. -/
theorem session_of_returnsOne :
    (∃ table, Session.empty.functions.declare returnsOne = .ok table) ∧
      (sessionAfter [.program [returnsOne.toStmt], .program [returnsOne.toStmt]]
        .empty).functions.WellKeyed ∧
      (sessionAfter [.program [returnsOne.toStmt], .program [returnsOne.toStmt]]
        .empty).functions.size = 1 := by
  refine ⟨session_exact.2.2.1 .empty .empty returnsOne .empty .empty rfl rfl, ?_, rfl⟩
  exact (session_exact.2.2.2.2 .empty _ .empty).1

end ScriptLang
