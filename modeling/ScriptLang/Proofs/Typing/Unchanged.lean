import ScriptLang.Proofs.Typing.Run

/-!
# What leaves a session as it was

Statements are checked in a session, and what is checked inside of a function
runs under one more result type. `Checker.Keeps` says that a checker leaves the
session as it was, whether it succeeds or fails. All statements but function
declarations do (`checkStmt_keeps`), and so does every block, which refuses
declarations (`checkBlock_keeps`).
-/

namespace ScriptLang

namespace Checker

variable {α β : Type} {p : Checker α}

/-- The session that a checker leaves, also if it fails. -/
def after (p : Checker α) (session : Session) : Session :=
  match p session with
  | .ok _ left => left
  | .error _ left => left

/-- The checker leaves every session as it was, also if it fails. -/
def Keeps (p : Checker α) : Prop := ∀ session, p.after session = session

theorem after_of_ok {a : α} {session left : Session} (h : p session = .ok a left) :
    p.after session = left := by
  rw [after, h]

theorem after_of_error {e : TypeError} {session left : Session}
    (h : p session = .error e left) : p.after session = left := by
  rw [after, h]

namespace Keeps

theorem pure (a : α) : Keeps (Pure.pure a : Checker α) := fun _ => rfl

theorem throw (e : TypeError) : Keeps (MonadExcept.throw e : Checker α) := fun _ => rfl

theorem ofExcept (x : Except TypeError α) : Keeps (Checker.ofExcept x) := by
  intro session
  cases x <;> rfl

theorem infer (f : SignatureTable → Except TypeError α) : Keeps (Checker.infer f) :=
  fun session => ofExcept (f session.functions) session

theorem expectedResult (returnOk : Bool) : Keeps (Checker.expectedResult returnOk) := by
  rintro ⟨functions, results⟩
  cases returnOk <;> cases results <;> rfl

theorem bind {f : α → Checker β} (hp : Keeps p) (hf : ∀ a, Keeps (f a)) : Keeps (p >>= f) := by
  intro session
  cases hRun : p session with
  | ok a left =>
      have hLeft : left = session := (after_of_ok hRun).symm.trans (hp session)
      rw [after, bind_of_ok hRun, hLeft]
      exact hf a session
  | error e left =>
      have hLeft : left = session := (after_of_error hRun).symm.trans (hp session)
      rw [after, bind_of_error hRun, hLeft]

/-- The result type that was pushed for the body is the one that is popped. -/
theorem within (hp : Keeps p) (result : Ty) : Keeps (Checker.within result p) := by
  intro session
  have hInside := hp { session with results := result :: session.results }
  rw [after] at hInside
  rw [after, Checker.within]
  cases hRun : p { session with results := result :: session.results } with
  | ok a left =>
      rw [hRun] at hInside
      show ({ left with results := left.results.tail } : Session) = session
      rw [show left = _ from hInside]
      rfl
  | error e left =>
      rw [hRun] at hInside
      show ({ left with results := left.results.tail } : Session) = session
      rw [show left = _ from hInside]
      rfl

end Keeps

end Checker

/-! ## Statements and blocks -/

open Checker

mutual

/-- A statement that declares no function leaves the session as it was. -/
theorem checkStmt_keeps : ∀ (s : Stmt) (env : Environment) (loopOk returnOk : Bool),
    s.declaration? = none → Keeps (checkStmt env loopOk returnOk s)
  | .declare _ _ _, _, _, _, _ => .ofExcept _
  | .assign _ _ _ true _, _, _, _, _ => by
    rw [checkStmt]
    exact .infer _
  | .assign _ _ _ false _, env, _, _, _ => .bind (.infer _) fun _ => .pure env
  | .compound _ _ _, env, _, _, _ => .bind (.infer _) fun _ => .pure env
  | .ifThen _ _, env, _, _, _ => .pure env
  | .ifElse _ _ _, env, _, _, _ => .pure env
  | .forIn _ _ body, env, _, returnOk, _ =>
    .bind (.infer _) fun _ => .bind (.ofExcept _) fun _ =>
      .bind (checkBlock_keeps body _ true returnOk) fun _ => .pure env
  | .whileLoop _ body, env, _, returnOk, _ =>
    .bind (.infer _) fun _ => .bind (.ofExcept _) fun _ =>
      .bind (checkBlock_keeps body env true returnOk) fun _ => .pure env
  | .block body, env, loopOk, returnOk, _ =>
    .bind (checkBlock_keeps body env loopOk returnOk) fun _ => .pure env
  | .control word, env, loopOk, _, _ => by
    rw [checkStmt]
    cases loopOk with
    | true => exact .pure env
    | false => exact .throw (.controlOutsideLoop word)
  | .returns _, env, _, returnOk, _ =>
    .bind (.expectedResult returnOk) fun _ => .bind (.infer _) fun _ => .pure env
  | .call _ _, env, _, _, _ => .bind (.infer _) fun _ => .pure env
  | .step _ _ _, env, _, _, _ => .pure env
  | .output _ _, env, _, _, _ => .bind (.infer _) fun _ => .pure env

/-- A block leaves the session as it was: it refuses to declare functions. -/
theorem checkBlock_keeps : ∀ (body : List Stmt) (env : Environment) (loopOk returnOk : Bool),
    Keeps (checkBlock env loopOk returnOk body)
  | [], env, _, _ => .pure env
  | s :: rest, env, loopOk, returnOk => by
    cases hDeclares : s.declaration? with
    | none =>
        rw [checkBlock_cons hDeclares]
        exact .bind (checkStmt_keeps s env loopOk returnOk hDeclares) fun env' =>
          checkBlock_keeps rest env' loopOk returnOk
    | some f =>
        rw [checkBlock_declaration hDeclares]
        exact .throw (.nestedFunction f.name)

end

end ScriptLang
