import ScriptLang.Proofs.Scanning.Boundaries
import ScriptLang.Proofs.Scanning.Image

/-!
# Texts on separate lines

Two texts with a line break between them are scanned one after the other, if all
angle brackets are closed at the end of the first (`tokenize_lines`).

The first text is scanned up to the line break as it is scanned alone, since a
line break is as good as the end of the text. Then the line break is a token, and
behind it the context is the context of a start but for the tokens that have been
read. The last of these decides only how a `<` is read, and a line break decides it
as the start does (`Context.Scans.alike`).
-/

namespace ScriptLang

variable {ctx ctx' : Context} {rest taken lexeme : List Char} {action : Action}
  {ts : List Token} {token? : Option Token}

/-! ## Contexts that are read alike -/

namespace Context

/-- Two contexts in which texts are read alike. -/
structure Alike (ctx ctx' : Context) : Prop where
  depth : ctx.depth = ctx'.depth
  afterCollection : ctx.AfterCollection ↔ ctx'.AfterCollection

namespace Alike

/-- The last token is the same behind the same tokens, if there are any, and the
depth has changed by as much. -/
theorem after (h : ctx.Alike ctx') (t : Token) : (ctx.after t).Alike (ctx'.after t) := by
  have hDepth : (ctx.after t).depth = (ctx'.after t).depth := by
    unfold Context.after
    rw [h.depth]
  refine ⟨hDepth, ?_⟩
  rw [AfterCollection, AfterCollection, back?_after, back?_after]

theorem afterAll (h : ctx.Alike ctx') (ts : List Token) :
    (ctx.afterAll ts).Alike (ctx'.afterAll ts) := by
  induction ts generalizing ctx ctx' with
  | nil => exact h
  | cons t ts ih => exact ih (h.after t)

theorem portion (h : ctx.Alike ctx') (action : Action) (lexeme : List Char) :
    ctx.portion action lexeme = ctx'.portion action lexeme := by
  unfold Context.portion
  rw [h.depth]

theorem does (h : ctx.Alike ctx') (hDoes : ctx.Does action lexeme token?) :
    ctx'.Does action lexeme token? := by
  cases hDoes with
  | skip => exact .skip
  | word hWord => exact .word hWord
  | number hFits => exact .number hFits
  | text hBody => exact .text hBody
  | emit hMark => exact .emit hMark
  | openAngle hAfter => exact .openAngle (h.afterCollection.1 hAfter)
  | less hOther => exact .less fun hAfter => hOther (h.afterCollection.2 hAfter)
  | closeAngle hMeets hOpen => exact .closeAngle hMeets (h.depth ▸ hOpen)
  | greater hNone => exact .greater (h.depth ▸ hNone)
  | greaterEqual hNone => exact .greaterEqual (h.depth ▸ hNone)

theorem steps (h : ctx.Alike ctx') (hSteps : ctx.Steps taken rest token?) :
    ctx'.Steps taken rest token? := by
  obtain ⟨action, lexeme, hFirst, hDoes, hPortion⟩ := hSteps
  exact ⟨action, lexeme, hFirst, h.does hDoes, (h.portion action lexeme).symm.trans hPortion⟩

end Alike

theorem Scans.alike (hScans : ctx.Scans rest taken ts) (h : ctx.Alike ctx') :
    ctx'.Scans rest taken ts := by
  induction hScans generalizing ctx' with
  | stop => exact .stop
  | @step ctx taken behind token? ts hTakes hMore ih =>
      exact .step (fun rest' hLike => h.steps (hTakes rest' hLike)) (ih (h.afterAll _))

/-! ## The line break -/

theorem steps_lineBreak : ctx.Steps ['\n'] rest (some (.symbol .lineBreak)) := by
  have hRules : rules =
      rules.take 2 ++ .mark "\n" (.symbol .lineBreak) "\n" :: rules.drop 3 := rfl
  have hLexeme : (Rule.mark "\n" (.symbol .lineBreak) "\n").pattern.lexeme? ('\n' :: rest) =
      some ['\n'] := rfl
  exact ⟨_, _, firstLexeme?_of_startsAt hRules (by decide) hLexeme, .emit rfl, rfl⟩

/-- A line break starts a text anew if no angle bracket is open. -/
theorem alike_lineBreak (h : ctx.depth = 0) : start.Alike (ctx.after (.symbol .lineBreak)) := by
  refine ⟨h.symm, ⟨nofun, ?_⟩⟩
  rintro ⟨kind, hKind⟩
  rw [back?_after] at hKind
  cases hKind

end Context

open Context

/-- A text on a line of its own is scanned as if it stood alone, if no angle
bracket is open in front of it. So is the text in front of it. -/
theorem tokenize_lines {a b : String} {ta : List Token} (ha : tokenize a = .ok ta)
    (hClosed : opened ta = closed ta) :
    (∀ tb, tokenize b = .ok tb →
      tokenize (a ++ "\n" ++ b) = .ok (ta ++ [.symbol .lineBreak] ++ tb)) ∧
    (∀ fault p, tokenize b = .error ⟨fault, p⟩ →
      tokenize (a ++ "\n" ++ b) = .error ⟨fault, a.utf8ByteSize + 1 + p⟩) := by
  have hText : (a ++ "\n" ++ b).toList = a.toList ++ (['\n'] ++ b.toList) := by simp
  have hDepth : (start.afterAll ta).depth = 0 := by
    have hWellFormed : WellFormed ta := start_accepts_iff.1 (tokenize_accepts ha)
    have hCount := start_depth hWellFormed.closeAngle
    omega
  have hAlike := alike_lineBreak hDepth
  have hFirst : start.Scans (['\n'] ++ b.toList) a.toList ta := by
    rcases tokenize_cases a with ⟨ts, hScans, hOk⟩ | ⟨_, _, _, _, _, _, _, hError⟩
    · obtain rfl := Except.ok.inj (ha.symm.trans hOk)
      exact hScans.endsLike (.lineBreak [] b.toList)
    · rw [ha] at hError
      exact absurd hError nofun
  rcases tokenize_cases b with ⟨tb, hScans, hOk⟩ | ⟨taken, rest, tb, fault, hSource, hScans,
    hStuck, hError⟩
  · rw [hOk]
    refine ⟨?_, nofun⟩
    rintro _ ⟨⟩
    have hSecond := (hScans.alike hAlike).reads .nil
    rw [List.append_nil, List.append_nil] at hSecond
    have hRest := Reads.step steps_lineBreak hSecond
    refine tokenize_of_reads ?_
    rw [hText, List.append_assoc]
    exact hFirst.reads hRest
  · rw [hError]
    refine ⟨nofun, ?_⟩
    rintro _ _ ⟨⟩
    have hSecond := (hScans.alike hAlike).fails (.of_stuck hStuck)
    rw [← hSource, Nat.add_zero] at hSecond
    have hRest := Fails.step steps_lineBreak hSecond
    have hBytes : a.utf8ByteSize + 1 + byteLength taken =
        byteLength a.toList + (byteLength ['\n'] + byteLength taken) := by
      rw [← utf8ByteSize_ofList a.toList, String.ofList_toList, Nat.add_assoc]
      rfl
    refine tokenize_of_fails ?_
    rw [hText, hBytes]
    exact hFirst.fails hRest

/-- The comment hides a bracket and a quote from the second line, and the depth is
zero there, so that `>=` compares. -/
theorem lines_behind_comment :
    let ta : List Token := [.typeWord (.collection .array), .bracket .openAngle,
      .typeWord (.basic .int), .bracket .closeAngle]
    tokenize "Array<Int> // é <\x22" = .ok ta ∧ opened ta = closed ta ∧
      tokenize ("Array<Int> // é <\x22" ++ "\n" ++ ">= 1") = .ok (ta ++ [.symbol .lineBreak] ++
        [.infixMark (.binary (.comparison .greaterEqual)), .int 1]) ∧
      tokenize ("Array<Int> // é <\x22" ++ "\n" ++ "1 ?") =
        .error ⟨.unrecognised "?", "Array<Int> // é <\x22".utf8ByteSize + 1 + 2⟩ := by
  intro ta
  have hFirst : tokenize "Array<Int> // é <\x22" = .ok ta := by
    unfold ta
    decide +kernel
  have hClosed : opened ta = closed ta := by decide
  have hSecond : tokenize ">= 1" =
      .ok [.infixMark (.binary (.comparison .greaterEqual)), .int 1] := by decide +kernel
  have hFault : tokenize "1 ?" = .error ⟨.unrecognised "?", 2⟩ := by decide +kernel
  exact ⟨hFirst, hClosed, (tokenize_lines hFirst hClosed).1 _ hSecond,
    (tokenize_lines hFirst hClosed).2 _ _ hFault⟩

end ScriptLang
