import ScriptLang.Proofs.Scanning.Rules
import ScriptLang.Token.Scanner

/-!
# Tokens in context

How a text is read on from some place depends on two things besides the text: the
tokens before it, of which the last one decides, and how many angle brackets are
open. A `Context` is this part of a scanner, and it is determined by the tokens
read so far.

`Context.Does` says for each action which token it reads in a context. All that is
known of an action follows from this: it leaves the scanner behind its portion of
the lexeme, with the token added (`Context.Does.act_eq`), and the context admits the
token (`Context.Does.accepts`). Only a number that is too large is refused, and then
the scanner is as it was. So the tokens of a run are admitted one after the other
(`Scanner.run_accepts`).
-/

namespace ScriptLang

/-! ## Contexts -/

/-- What the reading of a text depends on besides the text. -/
structure Context where
  /-- The tokens that have been read. -/
  tokens : Array Token
  /-- The number of angle brackets that are open. -/
  depth : Nat

variable {ctx : Context} {t : Token} {ts : List Token} {word : String} {lexeme : List Char}
  {action : Action} {token? : Option Token}

namespace Context

/-- The context in which a text is scanned from its start. -/
def start : Context := ⟨#[], 0⟩

/-- The name of a collection was read last. -/
def AfterCollection (ctx : Context) : Prop :=
  ∃ kind, ctx.tokens.back? = some (.typeWord (.collection kind))

/-- The context behind a token. -/
def after (ctx : Context) (t : Token) : Context where
  tokens := ctx.tokens.push t
  depth :=
    match t with
    | .bracket .openAngle => ctx.depth + 1
    | .bracket .closeAngle => ctx.depth - 1
    | _ => ctx.depth

theorem back?_after : (ctx.after t).tokens.back? = some t := Array.back?_push

/-- The context behind some tokens. -/
def afterAll (ctx : Context) (ts : List Token) : Context := ts.foldl after ctx

theorem afterAll_cons : ctx.afterAll (t :: ts) = (ctx.after t).afterAll ts := rfl

theorem afterAll_append {more : List Token} :
    ctx.afterAll (ts ++ more) = (ctx.afterAll ts).afterAll more :=
  List.foldl_append

/-- The tokens are kept in the order in which they are read. -/
theorem tokens_afterAll : (ctx.afterAll ts).tokens.toList = ctx.tokens.toList ++ ts := by
  induction ts generalizing ctx with
  | nil => exact (List.append_nil _).symm
  | cons t ts ih =>
      have hPush : (ctx.after t).tokens.toList = ctx.tokens.toList ++ [t] := Array.toList_push
      rw [afterAll_cons, ih, hPush, List.append_assoc]
      rfl

/-- Whether a scanner can read the token next. -/
def Admits (ctx : Context) : Token → Prop
  | .int value => 0 ≤ value ∧ value ≤ maxInt
  | .name name => Text.isWord name.toList = true ∧ isReserved name = false
  | .text text => '\x22' ∉ text.toList
  | .bracket .openAngle => ctx.AfterCollection
  | .infixMark (.binary (.comparison .less)) => ¬ ctx.AfterCollection
  | .bracket .closeAngle => 0 < ctx.depth
  | .infixMark (.binary (.comparison .greater))
  | .infixMark (.binary (.comparison .greaterEqual)) => ctx.depth = 0
  | _ => True

/-- Each token is admitted by the context behind the tokens before it. -/
def Accepts (ctx : Context) : List Token → Prop
  | [] => True
  | t :: ts => ctx.Admits t ∧ (ctx.after t).Accepts ts

theorem accepts_append {more : List Token} :
    ctx.Accepts (ts ++ more) ↔ ctx.Accepts ts ∧ (ctx.afterAll ts).Accepts more := by
  induction ts generalizing ctx with
  | nil => exact ⟨fun h => ⟨trivial, h⟩, fun h => h.2⟩
  | cons t ts ih =>
      rw [List.cons_append, Accepts, Accepts, ih, afterAll_cons, and_assoc]

end Context

/-! ## Tokens that any context admits -/

/-- Whether the token is spelled by a reserved word. -/
def Token.isReservedWord : Token → Bool
  | .keyword _ | .typeWord _ => true
  | _ => false

theorem reservedWords_isReservedWord : ∀ entry ∈ reservedWords, entry.2.isReservedWord = true := by
  decide

theorem Token.ofWord_cases (word : String) :
    (Token.ofWord word).isReservedWord = true ∨
      (Token.ofWord word = .name word ∧ isReserved word = false) := by
  rw [ofWord, isReserved]
  cases hFound : reservedWords.lookup word with
  | none => exact .inr ⟨rfl, rfl⟩
  | some t =>
      obtain ⟨before, after, hTable, -⟩ := List.lookup_eq_some_iff.1 hFound
      have hEntry : (word, t) ∈ reservedWords := by
        rw [hTable]
        exact List.mem_append_right _ List.mem_cons_self
      exact .inl (reservedWords_isReservedWord _ hEntry)

/-- No word is read as a text. -/
theorem Token.ofWord_ne_text {contents : String} : Token.ofWord word ≠ .text contents := by
  intro hText
  rcases Token.ofWord_cases word with hReserved | ⟨hName, -⟩
  · rw [hText] at hReserved
    exact absurd hReserved nofun
  · rw [hText] at hName
    exact absurd hName nofun

/-- The context admits the token and has as many open brackets behind it. -/
structure Context.Passes (ctx : Context) (t : Token) : Prop where
  admits : ctx.Admits t
  after : ctx.after t = ⟨ctx.tokens.push t, ctx.depth⟩

namespace Context

theorem passes_reservedWord (h : t.isReservedWord = true) : ctx.Passes t := by
  cases t with
  | keyword | typeWord => exact ⟨trivial, rfl⟩
  | _ => exact absurd h nofun

/-- Marks are just the tokens that are read alike in every context, so for the
others there is nothing to show. -/
theorem passes_mark (h : t.isMark = true) : ctx.Passes t := by
  constructor
  · rw [Admits.eq_def]
    split <;> trivial
  · unfold Context.after
    split
    · exact absurd h nofun
    · exact absurd h nofun
    · rfl

/-- The token of a word passes. -/
theorem passes_ofWord (h : Text.isWord lexeme = true) :
    ctx.Passes (.ofWord (String.ofList lexeme)) := by
  rcases Token.ofWord_cases (String.ofList lexeme) with hReserved | ⟨hName, hFree⟩
  · exact passes_reservedWord hReserved
  · rw [hName]
    refine ⟨⟨?_, hFree⟩, rfl⟩
    rw [String.toList_ofList]
    exact h

/-- The escapes of a text produce no quote. -/
theorem quote_not_mem_unescape {body : List Char} (h : '\x22' ∉ body) :
    '\x22' ∉ unescape body := by
  fun_induction unescape body <;> simp_all

theorem passes_text {body : List Char} (h : '\x22' ∉ body) :
    ctx.Passes (.text (String.ofList (unescape body))) := by
  refine ⟨?_, rfl⟩
  show '\x22' ∉ (String.ofList (unescape body)).toList
  rw [String.toList_ofList]
  exact quote_not_mem_unescape h

/-! ## What actions do -/

/-- The part of a lexeme that an action takes: all of it, but of a `>=` the `>` alone
while an angle bracket is open. -/
def portion (ctx : Context) : Action → List Char → List Char
  | .closeAngle, lexeme => if 0 < ctx.depth then ['>'] else lexeme
  | _, lexeme => lexeme

/-- What an action does with its lexeme: it reads a token or none. -/
inductive Does (ctx : Context) : Action → List Char → Option Token → Prop
  | skip {lexeme : List Char} : Does ctx .skip lexeme none
  | word {lexeme : List Char} (hWord : Text.isWord lexeme = true) :
      Does ctx .word lexeme (some (.ofWord (String.ofList lexeme)))
  | number {lexeme : List Char} (hFits : digitsValue lexeme ≤ maxInt) :
      Does ctx .number lexeme (some (.int (digitsValue lexeme)))
  | text {body : List Char} (hBody : '\x22' ∉ body) :
      Does ctx .text ('\x22' :: (body ++ ['\x22']))
        (some (.text (String.ofList (unescape body))))
  | emit {t : Token} {literal : String} (hMark : t.isMark = true) :
      Does ctx (.emit t literal) literal.toList (some t)
  | openAngle (hAfter : ctx.AfterCollection) :
      Does ctx .openAngle ['<'] (some (.bracket .openAngle))
  | less (hOther : ¬ ctx.AfterCollection) :
      Does ctx .openAngle ['<'] (some (.infixMark (.binary (.comparison .less))))
  | closeAngle {lexeme : List Char} (hMeets : Action.Meets .closeAngle lexeme)
      (hOpen : 0 < ctx.depth) : Does ctx .closeAngle lexeme (some (.bracket .closeAngle))
  | greater (hNone : ctx.depth = 0) :
      Does ctx .closeAngle ['>'] (some (.infixMark (.binary (.comparison .greater))))
  | greaterEqual (hNone : ctx.depth = 0) :
      Does ctx .closeAngle ['>', '='] (some (.infixMark (.binary (.comparison .greaterEqual))))

/-- An action reads a token or none, unless it is to read a number that is too
large. -/
theorem does_or_large (ctx : Context) (hMeets : action.Meets lexeme) :
    (∃ token?, ctx.Does action lexeme token?) ∨
      (action = .number ∧ maxInt < digitsValue lexeme) := by
  cases hMeets with
  | skip => exact .inl ⟨_, .skip⟩
  | word hWord => exact .inl ⟨_, .word hWord⟩
  | number =>
      by_cases hFits : digitsValue lexeme ≤ maxInt
      · exact .inl ⟨_, .number hFits⟩
      · exact .inr ⟨rfl, Nat.lt_of_not_le hFits⟩
  | text hBody => exact .inl ⟨_, .text hBody⟩
  | emit hMark => exact .inl ⟨_, .emit hMark⟩
  | openAngle =>
      by_cases hAfter : ctx.AfterCollection
      · exact .inl ⟨_, .openAngle hAfter⟩
      · exact .inl ⟨_, .less hAfter⟩
  | greater =>
      rcases Nat.eq_zero_or_pos ctx.depth with hNone | hOpen
      · exact .inl ⟨_, .greater hNone⟩
      · exact .inl ⟨_, .closeAngle .greater hOpen⟩
  | greaterEqual =>
      rcases Nat.eq_zero_or_pos ctx.depth with hNone | hOpen
      · exact .inl ⟨_, .greaterEqual hNone⟩
      · exact .inl ⟨_, .closeAngle .greaterEqual hOpen⟩

theorem Does.meets (h : ctx.Does action lexeme token?) : action.Meets lexeme := by
  cases h with
  | skip => exact .skip
  | word hWord => exact .word hWord
  | number _ => exact .number
  | text hBody => exact .text hBody
  | emit hMark => exact .emit hMark
  | openAngle _ | less _ => exact .openAngle
  | closeAngle hMeets _ => exact hMeets
  | greater _ => exact .greater
  | greaterEqual _ => exact .greaterEqual

/-- The token is one that the context admits. -/
theorem Does.accepts (h : ctx.Does action lexeme token?) : ctx.Accepts token?.toList := by
  cases h with
  | skip => trivial
  | word hWord => exact ⟨(passes_ofWord hWord).admits, trivial⟩
  | number hFits => exact ⟨⟨Int.natCast_nonneg _, Int.ofNat_le.2 hFits⟩, trivial⟩
  | text hBody => exact ⟨(passes_text hBody).admits, trivial⟩
  | emit hMark => exact ⟨(passes_mark hMark).admits, trivial⟩
  | openAngle hAfter => exact ⟨hAfter, trivial⟩
  | less hOther => exact ⟨hOther, trivial⟩
  | closeAngle _ hOpen => exact ⟨hOpen, trivial⟩
  | greater hNone | greaterEqual hNone => exact ⟨hNone, trivial⟩

/-- What is taken is a front of the lexeme. -/
theorem portion_prefix (ctx : Context) (hMeets : action.Meets lexeme) :
    ctx.portion action lexeme <+: lexeme := by
  have hAngle : ∀ more, ctx.portion .closeAngle ('>' :: more) <+: '>' :: more := by
    intro more
    rw [portion]
    split
    · exact ⟨more, rfl⟩
    · exact List.prefix_rfl
  cases hMeets with
  | greater | greaterEqual => exact hAngle _
  | _ => exact List.prefix_rfl

theorem portion_ne_nil (hSome : lexeme ≠ []) : ctx.portion action lexeme ≠ [] := by
  cases action with
  | closeAngle =>
      rw [portion]
      split
      · exact List.cons_ne_nil _ _
      · exact hSome
  | _ => exact hSome

end Context

/-! ## Steps and runs -/

namespace Scanner

variable {s s' : Scanner}

def context (s : Scanner) : Context := ⟨s.tokens, s.depth⟩

/-- The scanner at its place with other things read in front of it. -/
def inContext (s : Scanner) (ctx : Context) : Scanner :=
  { s with tokens := ctx.tokens, depth := ctx.depth }

theorem opensElement_iff : s.opensElement = true ↔ s.context.AfterCollection := by
  rw [opensElement, Context.AfterCollection, context]
  split
  · next kind hLast => exact ⟨fun _ => ⟨kind, hLast⟩, fun _ => rfl⟩
  · next hLast =>
      refine ⟨fun hFalse => absurd hFalse Bool.false_ne_true, ?_⟩
      rintro ⟨kind, hKind⟩
      exact absurd hKind (hLast kind)

/-- The scanner behind a text, with the token that was read from it, if any. -/
def behind (s : Scanner) (taken : List Char) (token? : Option Token) : Scanner :=
  (s.advance (byteLength taken)).inContext (s.context.afterAll token?.toList)

/-- A token that passes is added, and the depth stays. -/
theorem behind_passes (h : s.context.Passes t) (taken : List Char) :
    s.behind taken (some t) = (s.push t).advance (byteLength taken) := by
  show (s.advance (byteLength taken)).inContext (s.context.after t) = _
  rw [h.after]
  rfl

/-- An action moves on over its portion of the lexeme and adds its token. -/
theorem act_eq (h : s.context.Does action lexeme token?) :
    act lexeme action s = .ok () (s.behind (s.context.portion action lexeme) token?) := by
  cases h with
  | skip => rfl
  | word hWord =>
      exact congrArg (EStateM.Result.ok ())
        (behind_passes (Context.passes_ofWord hWord) lexeme).symm
  | number hFits =>
      show (ite (digitsValue lexeme ≤ maxInt) _ _ : EStateM ParseError Scanner Unit) s = _
      rw [if_pos hFits]
      rfl
  | text hBody =>
      rw [act, List.drop_one, List.tail_cons, List.dropLast_concat]
      rfl
  | emit hMark =>
      exact congrArg (EStateM.Result.ok ()) (behind_passes (Context.passes_mark hMark) _).symm
  | openAngle hAfter =>
      have hOpens : s.opensElement = true := opensElement_iff.2 hAfter
      show (ite (s.opensElement = true) _ _ : EStateM ParseError Scanner Unit) s = _
      rw [if_pos hOpens]
      rfl
  | less hOther =>
      have hOpens : ¬ s.opensElement = true := fun hOpens => hOther (opensElement_iff.1 hOpens)
      show (ite (s.opensElement = true) _ _ : EStateM ParseError Scanner Unit) s = _
      rw [if_neg hOpens]
      rfl
  | closeAngle _ hOpen =>
      have hDepth : 0 < s.depth := hOpen
      show (ite (0 < s.depth) _ _ : EStateM ParseError Scanner Unit) s = _
      rw [if_pos hDepth, Context.portion, if_pos hOpen]
      rfl
  | greater hNone | greaterEqual hNone =>
      have hDepth : ¬ 0 < s.depth := Nat.not_lt.2 (Nat.le_of_eq hNone)
      show (ite (0 < s.depth) _ _ : EStateM ParseError Scanner Unit) s = _
      rw [if_neg hDepth, Context.portion, if_neg (Nat.not_lt.2 (Nat.le_of_eq hNone))]
      rfl

theorem act_of_large (h : maxInt < digitsValue lexeme) :
    act lexeme .number s = .error ⟨.number (String.ofList lexeme), s.position⟩ s := by
  show (ite (digitsValue lexeme ≤ maxInt) _ _ : EStateM ParseError Scanner Unit) s = _
  rw [if_neg (Nat.not_le.2 h)]
  rfl

theorem step_of_first (h : firstLexeme? s.rest = some (action, lexeme)) :
    step s = act lexeme action s := by
  rw [step, h]

/-- All that a step can do if it succeeds. -/
theorem step_eq_ok (h : step s = .ok () s') :
    ∃ action lexeme token?, firstLexeme? s.rest = some (action, lexeme) ∧
      s.context.Does action lexeme token? ∧
        s' = s.behind (s.context.portion action lexeme) token? := by
  cases hFirst : firstLexeme? s.rest with
  | none =>
      rw [step, hFirst] at h
      exact absurd h nofun
  | some found =>
      obtain ⟨action, lexeme⟩ := found
      rw [step_of_first hFirst] at h
      rcases s.context.does_or_large (meets_of_firstLexeme? hFirst) with
        ⟨token?, hDoes⟩ | ⟨rfl, hLarge⟩
      · rw [act_eq hDoes] at h
        cases h
        exact ⟨action, lexeme, token?, rfl, hDoes, rfl⟩
      · rw [act_of_large hLarge] at h
        exact absurd h nofun

/-- The reading of a source text, with `run` for what stands behind the next
lexeme. -/
def runStep (run : EStateM ParseError Scanner Unit) : EStateM ParseError Scanner Unit := fun s =>
  if s.atEnd then .ok () s
  else
    match step s with
    | .ok () next => run next
    | .error e next => .error e next

theorem run_succ (bound : Nat) : run (bound + 1) = runStep (run bound) := by
  funext s
  show (ite (s.atEnd = true) (pure ()) (step >>= fun _ => run bound) :
    EStateM ParseError Scanner Unit) s = _
  rw [runStep]
  split
  · rfl
  · show EStateM.bind step (fun _ => run bound) s = _
    rw [EStateM.bind]
    cases step s <;> rfl

/-- A run goes on from step to step. What holds of a scanner and of the tokens that
are read from there on is shown for each step in front of a run. -/
theorem run_induction {P : Scanner → List Token → Prop} (hDone : ∀ s, P s [])
    (hStep : ∀ (s : Scanner) (action : Action) (lexeme : List Char) (token? : Option Token)
      (ts : List Token), firstLexeme? s.rest = some (action, lexeme) →
        s.context.Does action lexeme token? →
          P (s.behind (s.context.portion action lexeme) token?) ts → P s (token?.toList ++ ts))
    {bound : Nat} (h : run bound s = .ok () s') :
    ∃ ts, s'.context = s.context.afterAll ts ∧ P s ts := by
  induction bound generalizing s with
  | zero =>
      cases h
      exact ⟨[], rfl, hDone _⟩
  | succ bound ih =>
      rw [run_succ, runStep] at h
      split at h
      · cases h
        exact ⟨[], rfl, hDone _⟩
      · split at h
        · next next hFirstStep =>
            obtain ⟨action, lexeme, token?, hFirst, hDoes, rfl⟩ := step_eq_ok hFirstStep
            obtain ⟨ts, hContext, hMore⟩ := ih h
            refine ⟨token?.toList ++ ts, ?_, hStep s action lexeme token? ts hFirst hDoes hMore⟩
            rw [hContext, Context.afterAll_append]
            rfl
        · cases h

/-- The tokens of a run are admitted one after the other. -/
theorem run_accepts {bound : Nat} (h : run bound s = .ok () s') :
    ∃ ts, s'.context = s.context.afterAll ts ∧ s.context.Accepts ts :=
  run_induction (P := fun s ts => s.context.Accepts ts) (fun _ => trivial)
    (fun _ _ _ _ _ _ hDoes hMore => Context.accepts_append.2 ⟨hDoes.accepts, hMore⟩) h

/-- The tokens read on from the start of a source are those of the scanner. -/
theorem tokens_of_context {source : String} (h : s.context = (start source).context.afterAll ts) :
    s.tokens.toList = ts := by
  show s.context.tokens.toList = ts
  rw [h, Context.tokens_afterAll]
  rfl

end Scanner

/-- What is read from a source text are the tokens of the scanner at its end. -/
theorem tokenize_eq_ok {source : String} : tokenize source = .ok ts ↔
    ∃ s, Scanner.run source.length (.start source) = .ok () s ∧ s.tokens.toList = ts := by
  rw [tokenize]
  cases Scanner.run source.length (.start source) with
  | ok _ s => simp [Scanner.tokensOf]
  | error e s => simp [Scanner.tokensOf]

theorem tokenize_accepts {source : String} (h : tokenize source = .ok ts) :
    Context.start.Accepts ts := by
  obtain ⟨s, hRun, rfl⟩ := tokenize_eq_ok.1 h
  obtain ⟨ts, hContext, hAccepts⟩ := Scanner.run_accepts hRun
  rw [Scanner.tokens_of_context hContext]
  exact hAccepts

end ScriptLang
