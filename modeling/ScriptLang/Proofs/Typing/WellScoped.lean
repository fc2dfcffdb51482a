import ScriptLang.Proofs.Typing.CheckedUses
import ScriptLang.Proofs.Typing.ControlFlow

/-!
# Accepted programs are well scoped

In a program that type checks, every use of a name that checking looks at is
resolved (`Use.Resolved`). A variable has a binder in force at its place. A call
asks for the signature that the types of its arguments make there, and it goes to
a function that a statement in front of the current top-level statement has
declared for this signature, or else to a variable in scope.

The functions of one program have distinct signatures, so the function that a call
selects is never the current one or a later one: through its declaration a function
is called by later statements only, and not by itself.
-/

namespace ScriptLang

variable {functions later : List FunctionDecl} {place : TypedScope} {env : Environment}
  {use : Use} {p : Program}

/-- A use of a name that means something where it stands: `declared` are the functions
of the statements before, `later` the ones of the current statement and of those after
it, and `place` is the scope. Its binders and their types make the environment
(`TypedScope.env`), and so they determine what the arguments of a call have as types. -/
inductive Use.Resolved (declared later : List FunctionDecl) (place : TypedScope) : Use → Prop
  | var {access : Access} {name : String} {binder : Binder} {ty : Ty}
      (hBound : place.lookup? name = some (binder, ty)) :
      Resolved declared later place (.var access name)
  /-- A function that is declared for exactly the types of the arguments, and which
  neither the current statement nor a later one declares. -/
  | function {f : FunctionDecl} {arguments : List Expr} (hDeclared : f ∈ declared)
      (hArguments : HasTypes (tableOf declared) place.env arguments (f.parameters.map Prod.snd))
      (hOther : ∀ g ∈ later, g.signature ≠ f.signature) :
      Resolved declared later place (.call f.name arguments)
  /-- A variable that holds a function, where no function is declared for the types
  of the arguments. -/
  | value {callee : String} {arguments : List Expr} {types parameters : List Ty} {result : Ty}
      {binder : Binder} (hArguments : HasTypes (tableOf declared) place.env arguments types)
      (hUndeclared : ∀ f ∈ declared, f.signature ≠ ⟨callee, types⟩)
      (hBound : place.lookup? callee = some (binder, .function parameters result)) :
      Resolved declared later place (.call callee arguments)

/-- A call of what is no variable in scope asks for no signature that the current
statement or a later one declares. -/
theorem Use.Resolved.not_later {callee : String} {arguments : List Expr} {types : List Ty}
    (h : (Use.call callee arguments).Resolved functions later place)
    (hTypes : HasTypes (tableOf functions) place.env arguments types)
    (hUnbound : place.lookup? callee = none) : ∀ g ∈ later, g.signature ≠ ⟨callee, types⟩ := by
  cases h with
  | function _ hArguments hOther =>
      rw [hTypes.unique hArguments]
      exact hOther
  | value _ _ hBound =>
      rw [hUnbound] at hBound
      cases hBound

/-! ## Declared functions -/

/-- What is found in the table has been declared, under its own signature. -/
theorem tableOf_get?_eq_some {signature : Signature} {f : FunctionDecl}
    (h : (tableOf functions).get? signature = some f) :
    f ∈ functions ∧ f.signature = signature := by
  rw [SignatureTable.get?, tableOf] at h
  obtain ⟨entry, hFound, rfl⟩ := Option.map_eq_some_iff.1 h
  obtain ⟨f, hDeclared, rfl⟩ := List.mem_map.1 (List.mem_of_find?_eq_some hFound)
  have hKey : (f.signature == signature) = true := by
    simpa using List.find?_some hFound
  exact ⟨hDeclared, beq_iff_eq.1 hKey⟩

/-- What is not found in it has not. -/
theorem tableOf_get?_eq_none {signature : Signature}
    (h : (tableOf functions).get? signature = none) : ∀ f ∈ functions, f.signature ≠ signature := by
  intro f hDeclared hKey
  rw [SignatureTable.get?, tableOf, Option.map_eq_none_iff] at h
  have hMember : (f.signature, f) ∈ functions.map fun f => (f.signature, f) :=
    List.mem_map_of_mem hDeclared
  have hOther := List.find?_eq_none.1 h _ hMember
  exact hOther (by rw [hKey]; exact beq_self_eq_true signature)

/-- The functions of an accepted program have distinct signatures. -/
theorem signatures_nodup (h : typeCheck p = .ok env) :
    ((declarations p).map FunctionDecl.signature).Nodup := by
  obtain ⟨left, hRun⟩ := checkProgram_of_typeCheck h
  have hStart : Session.empty.Sound Session.empty := ⟨.empty, rfl⟩
  have hSound := hStart.run (.program p)
  have hLeft : left = Session.empty.declaring (declarations p) := by
    obtain ⟨done, rest, env', hSplit, hDone, ⟨rfl, hAll⟩ | ⟨s, rest', e, -, -, hFails⟩⟩ :=
      checkTopLevel_cases p .empty .empty
    · rw [List.append_nil] at hSplit
      rw [checkProgram, hAll] at hRun
      cases hRun
      rw [hSplit]
    · rw [checkProgram, hFails] at hRun
      exact absurd hRun nofun
  have hAfter : Call.run (.program p) .empty = left := Checker.after_of_ok hRun
  have hTable : (tableOf (declarations p)).signatures.Nodup := by
    rw [hAfter, hLeft] at hSound
    exact hSound.built.wellKeyed.distinct
  have hKeys : (tableOf (declarations p)).signatures =
      (declarations p).map FunctionDecl.signature := by
    rw [SignatureTable.signatures, tableOf, List.map_map]
    rfl
  rwa [hKeys] at hTable

theorem declarations_append (before after : List Stmt) :
    declarations (before ++ after) = declarations before ++ declarations after :=
  List.filterMap_append

/-! ## Uses -/

/-- A use that has been checked is resolved, where all later functions have other
signatures than the ones before. -/
theorem Use.Met.resolved (h : use.Met (tableOf functions) place.env)
    (hDistinct : ∀ f ∈ functions, ∀ g ∈ later, g.signature ≠ f.signature) :
    use.Resolved functions later place := by
  cases use with
  | var access name =>
      obtain ⟨binding, hScope, -, -⟩ := h
      obtain ⟨binder, hBound, -⟩ := TypedScope.exists_of_get?_env hScope
      exact .var hBound
  | call callee arguments =>
      obtain ⟨types, ty, hArguments, hResult⟩ := h
      rcases resolveCall_eq_ok.1 hResult with ⟨f, hFound, -⟩ | ⟨hNone, _, _, hScope⟩
      · obtain ⟨hDeclared, hSignature⟩ := tableOf_get?_eq_some hFound
        obtain ⟨rfl, rfl⟩ := Signature.mk.inj hSignature
        exact .function hDeclared hArguments (hDistinct f hDeclared)
      · obtain ⟨binder, hBound, -⟩ := TypedScope.exists_of_get?_env hScope
        exact .value hArguments (tableOf_get?_eq_none hNone) hBound

/-- A statement of an accepted program is checked behind the statements before it,
with the functions that these declare. -/
theorem checkedIn_of_typeCheck {before after : List Stmt} {s : Stmt}
    (h : typeCheck (before ++ s :: after) = .ok env) :
    ∃ start, TypedScope.Behind [] [] before start ∧
      s.CheckedIn (tableOf (declarations before)) start.env none := by
  obtain ⟨left, hRun⟩ := checkProgram_of_typeCheck h
  exact checkTopLevel_member rfl hRun

/-- What is known behind some statements of an accepted program is determined, and
at every use of a name in the next statement as well. So every use has a place with
types, and it is resolved there: with the functions that are declared before the
top-level statement around it, and these are other functions than the one that this
statement declares, if it does, and than all later ones. -/
theorem accepted_well_scoped (h : typeCheck p = .ok env) {before after : List Stmt} {s : Stmt}
    (hSplit : p = before ++ s :: after) :
    (∃ start, TypedScope.Behind [] [] before start) ∧
    ∀ start, TypedScope.Behind [] [] before start →
      (∀ place use, s.Uses (Scope.behind [] before) place use →
        ∃ typed : TypedScope, typed.scope = place ∧
          s.UsesAt (declarations before) start none typed use) ∧
      (∀ typed use, s.UsesAt (declarations before) start none typed use →
        use.Resolved (declarations before) (declarations (s :: after)) typed) := by
  have hSignatures := signatures_nodup h
  rw [hSplit, declarations_append, List.map_append, List.nodup_append] at hSignatures
  have hDistinct : ∀ f ∈ declarations before, ∀ g ∈ declarations (s :: after),
      g.signature ≠ f.signature := fun f hf g hg =>
    (hSignatures.2.2 f.signature (List.mem_map_of_mem hf) g.signature
      (List.mem_map_of_mem hg)).symm
  rw [hSplit] at h
  obtain ⟨start, hStart, hChecked⟩ := checkedIn_of_typeCheck h
  refine ⟨⟨start, hStart⟩, ?_⟩
  intro other hOther
  obtain rfl := hStart.unique hOther
  refine ⟨?_, ?_⟩
  · intro place use hUses
    exact hUses.usesAt hStart.scope hChecked
  · intro typed use hUses
    exact (hUses.met hChecked).resolved hDistinct

/-- `fun twice(n: Int): Int { return n + n }`. -/
def twiceDeclaration : Stmt :=
  .function "twice" [("n", .int)] .int
    [.returns (.binary (.var "n") (.arithmetic .plus) (.var "n"))]

/-- `fun total(xs: Array<Int>): Int` with the body
`var sum = 0; for (x in xs) { sum += twice(x) }; return sum`. -/
def totalDeclaration : Stmt :=
  .function "total" [("xs", .collection .array .int)] .int
    [.assign "sum" (.int 0) none true false,
      .forIn "x" (.var "xs") [.compound "sum" .plus (.call "twice" [.var "x"])],
      .returns (.var "sum")]

/-- In the loop of `total` the binders are `x`, `sum` and `xs`, the innermost
first. The assigned `sum` is bound there, and `twice` is declared before for the
type of `x`, which is the type of the elements of `xs`. -/
theorem resolved_in_total :
    let place : TypedScope := [(⟨"x", .loopVariable⟩, .int), (⟨"sum", .declaration false⟩, .int),
      (⟨"xs", .functionParameter⟩, .collection .array .int)]
    typeCheck [twiceDeclaration, totalDeclaration] = .ok .empty ∧
      (Use.var .compound "sum").Resolved (declarations [twiceDeclaration])
        (declarations [totalDeclaration]) place ∧
      (Use.call "twice" [.var "x"]).Resolved (declarations [twiceDeclaration])
        (declarations [totalDeclaration]) place := by
  intro place
  have hAccepted : typeCheck [twiceDeclaration, totalDeclaration] = .ok .empty := rfl
  have hSplit : [twiceDeclaration, totalDeclaration] =
      [twiceDeclaration] ++ totalDeclaration :: [] := rfl
  have hStart : TypedScope.Behind [] [] [twiceDeclaration] [] := .cons (.other rfl) .nil
  have hBody : totalDeclaration.Encloses (tableOf (declarations [twiceDeclaration])) [] none
      [(⟨"xs", .functionParameter⟩, .collection .array .int)] (some .int)
      ([.assign "sum" (.int 0) none true false] ++
        .forIn "x" (.var "xs") [.compound "sum" .plus (.call "twice" [.var "x"])] ::
          [.returns (.var "sum")]) := .function
  have hLoop : (Stmt.forIn "x" (.var "xs")
      [.compound "sum" .plus (.call "twice" [.var "x"])]).Encloses
        (tableOf (declarations [twiceDeclaration])) place.tail (some .int) place (some .int)
        ([] ++ .compound "sum" .plus (.call "twice" [.var "x"]) :: []) :=
    .forIn (.var rfl) rfl
  have hSum : TypedScope.Behind (declarations [twiceDeclaration])
      [(⟨"xs", .functionParameter⟩, .collection .array .int)]
      [.assign "sum" (.int 0) none true false] place.tail := .cons (.inferred .int) .nil
  obtain ⟨-, hResolved⟩ := accepted_well_scoped hAccepted hSplit
  obtain ⟨-, hAll⟩ := hResolved [] hStart
  refine ⟨hAccepted, hAll place _ ?_, hAll place _ ?_⟩
  · exact .body hBody hSum (.body hLoop .nil (.target rfl))
  · exact .body hBody hSum (.body hLoop .nil (.value List.mem_cons_self (.itself rfl)))

/-- `fun f(s: String)` cannot call itself, not even behind `fun f(n: Int)`. -/
example :
    typeCheck [.function "f" [("n", .int)] .int [.returns (.var "n")],
      .function "f" [("s", .string)] .int [.returns (.call "f" [.var "s"])]] =
        .error (.functionUndefined ⟨"f", [.string]⟩) := rfl

end ScriptLang
