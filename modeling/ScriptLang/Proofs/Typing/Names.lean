import ScriptLang.Proofs.Typing.Parameters
import ScriptLang.Proofs.Typing.Premises

/-!
# Names in expressions and statements

Every place in an expression at which a name stands is a `Mention` of it. Two
selections of them decide the type of the expression: what its free names mean
as variables, and which functions are declared under the names that it calls
(`typeOf_congr`).
-/

namespace ScriptLang

/-! ## Mentions -/

/-- A place at which a name stands in an expression. -/
structure Mention where
  name : String
  /-- Whether the name is to be found outside of the expression. -/
  free : Bool
  /-- Whether a function of the name is called. -/
  called : Bool
  deriving DecidableEq

namespace Mention

/-- A name that is read or written as a variable. -/
def ofVariable (name : String) : Mention := ⟨name, true, false⟩

/-- A name that is called. -/
def ofCallee (name : String) : Mention := ⟨name, true, true⟩

/-- A name that is bound. -/
def ofParameter (name : String) : Mention := ⟨name, false, false⟩

/-- The mention as it is seen from outside of a body in which the parameters are bound. -/
def under (parameters : List String) (m : Mention) : Mention :=
  { m with free := m.free && !parameters.contains m.name }

/-- The mentions of parameters and of the body in which they are bound. -/
def scope (parameters : List String) (body : List Mention) : List Mention :=
  parameters.map ofParameter ++ body.map (under parameters)

end Mention

namespace Expr

mutual

/-- The mentions of names in an expression, from left to right. -/
def mentions : Expr → List Mention
  | .int _ => []
  | .boolean _ => []
  | .text _ splices => spliceMentions splices
  | .var name => [.ofVariable name]
  | .binary left _ right => left.mentions ++ right.mentions
  | .not operand => operand.mentions
  | .step name _ _ => [.ofVariable name]
  | .ifThen condition thenBranch => condition.mentions ++ thenBranch.mentions
  | .ifElse condition thenBranch elseBranch =>
    condition.mentions ++ (thenBranch.mentions ++ elseBranch.mentions)
  | .range first last => first.mentions ++ last.mentions
  | .generate _ size parameters body =>
    size.mentions ++ Mention.scope (parameters.map Prod.fst) body.mentions
  | .literal _ items => listMentions items
  | .lambda parameters body => Mention.scope (parameters.map Prod.fst) body.mentions
  | .call callee arguments => .ofCallee callee :: listMentions arguments
  | .index name position => .ofVariable name :: position.mentions

/-- The mentions of names in a list of expressions. -/
def listMentions : List Expr → List Mention
  | [] => []
  | e :: rest => e.mentions ++ listMentions rest

/-- The mentions of names in the splices of a text. -/
def spliceMentions : List (Nat × Expr) → List Mention
  | [] => []
  | (_, e) :: rest => e.mentions ++ spliceMentions rest

end

/-- The names that an expression takes from outside: its variables, also where
they are stepped or indexed, and its callees, without the parameters of lambdas
and initializers in their bodies. -/
def freeNames (e : Expr) : List String := (e.mentions.filter Mention.free).map Mention.name

/-- The names that are called anywhere in an expression, parameters too. -/
def callees (e : Expr) : List String := (e.mentions.filter Mention.called).map Mention.name

/-- All names in an expression. -/
def names (e : Expr) : List String := e.mentions.map Mention.name

/-- In `{ f: Int -> f(x) }` the callee `f` is bound, and yet it is called. -/
example : (lambda [("f", some .int)] (.call "f" [.var "x"])).freeNames = ["x"] ∧
    (lambda [("f", some .int)] (.call "f" [.var "x"])).callees = ["f"] := by
  decide

/-- Whichever mentions are selected, their names are among all names. -/
theorem selected_subset (select : Mention → Bool) (e : Expr) :
    (e.mentions.filter select).map Mention.name ⊆ e.names :=
  List.map_subset Mention.name List.filter_sublist.subset

theorem callees_subset (e : Expr) : e.callees ⊆ e.names := e.selected_subset Mention.called

end Expr

mutual

/-- All names in a statement, whether they are used in it or declared by it. -/
def Stmt.names : Stmt → List String
  | .declare name _ _ => [name]
  | .assign name value _ _ _ => name :: value.names
  | .compound name _ value => name :: value.names
  | .ifThen condition thenBlock => condition.names ++ blockNames thenBlock
  | .ifElse condition thenBlock elseBlock =>
    condition.names ++ (blockNames thenBlock ++ blockNames elseBlock)
  | .forIn name source body => name :: (source.names ++ blockNames body)
  | .whileLoop condition body => condition.names ++ blockNames body
  | .block body => blockNames body
  | .control _ => []
  | .function name parameters _ body => name :: (parameters.map Prod.fst ++ blockNames body)
  | .returns value => value.names
  | .call callee arguments => (Expr.call callee arguments).names
  | .step name _ _ => [name]
  | .output _ value => value.names

/-- All names in the statements of a block or a program. -/
def blockNames : List Stmt → List String
  | [] => []
  | s :: rest => s.names ++ blockNames rest

end

mutual

/-- The names that are called anywhere in a statement, whether it is checked
there or not. -/
def Stmt.callees : Stmt → List String
  | .declare _ _ _ => []
  | .assign _ value _ _ _ => value.callees
  | .compound _ _ value => value.callees
  | .ifThen condition thenBlock => condition.callees ++ blockCallees thenBlock
  | .ifElse condition thenBlock elseBlock =>
    condition.callees ++ (blockCallees thenBlock ++ blockCallees elseBlock)
  | .forIn _ source body => source.callees ++ blockCallees body
  | .whileLoop condition body => condition.callees ++ blockCallees body
  | .block body => blockCallees body
  | .control _ => []
  | .function _ _ _ body => blockCallees body
  | .returns value => value.callees
  | .call callee arguments => (Expr.call callee arguments).callees
  | .step _ _ _ => []
  | .output _ value => value.callees

/-- The names that are called anywhere in a block or a program. -/
def blockCallees : List Stmt → List String
  | [] => []
  | s :: rest => s.callees ++ blockCallees rest

end

theorem append_subset_append {before₁ before₂ behind₁ behind₂ : List String}
    (hBefore : before₁ ⊆ before₂) (hBehind : behind₁ ⊆ behind₂) :
    before₁ ++ behind₁ ⊆ before₂ ++ behind₂ :=
  List.append_subset.2 ⟨List.subset_append_of_subset_left _ hBefore,
    List.subset_append_of_subset_right _ hBehind⟩

mutual

theorem Stmt.callees_subset : ∀ s : Stmt, s.callees ⊆ s.names
  | .declare _ _ _ => List.nil_subset _
  | .assign name value _ _ _ => List.subset_cons_of_subset name value.callees_subset
  | .compound name _ value => List.subset_cons_of_subset name value.callees_subset
  | .ifThen condition thenBlock =>
    append_subset_append condition.callees_subset (blockCallees_subset thenBlock)
  | .ifElse condition thenBlock elseBlock =>
    append_subset_append condition.callees_subset
      (append_subset_append (blockCallees_subset thenBlock) (blockCallees_subset elseBlock))
  | .forIn name source body =>
    List.subset_cons_of_subset name
      (append_subset_append source.callees_subset (blockCallees_subset body))
  | .whileLoop condition body =>
    append_subset_append condition.callees_subset (blockCallees_subset body)
  | .block body => blockCallees_subset body
  | .control _ => List.nil_subset _
  | .function name parameters _ body =>
    List.subset_cons_of_subset name
      (List.subset_append_of_subset_right (parameters.map Prod.fst) (blockCallees_subset body))
  | .returns value => value.callees_subset
  | .call callee arguments => (Expr.call callee arguments).callees_subset
  | .step _ _ _ => List.nil_subset _
  | .output _ value => value.callees_subset

theorem blockCallees_subset : ∀ ss : List Stmt, blockCallees ss ⊆ blockNames ss
  | [] => List.nil_subset _
  | s :: ss => append_subset_append s.callees_subset (blockCallees_subset ss)

end

/-! ## Agreement -/

/-- The names mean the same in both environments. -/
def Environment.AgreeOn (names : List String) (env₁ env₂ : Environment) : Prop :=
  ∀ name ∈ names, env₁.get? name = env₂.get? name

/-- The same functions are declared under the names, for whichever parameters. -/
def SignatureTable.AgreeOn (names : List String) (table₁ table₂ : SignatureTable) : Prop :=
  ∀ name ∈ names, ∀ types, table₁.get? ⟨name, types⟩ = table₂.get? ⟨name, types⟩

/-- A mention that means the same in both environments. Where it is called, the
functions of both tables give the same: of a function only its result is looked at. -/
structure Mention.Agrees (table₁ table₂ : SignatureTable) (env₁ env₂ : Environment)
    (m : Mention) : Prop where
  as_variable : m.free = true → env₁.get? m.name = env₂.get? m.name
  as_function : m.called = true → ∀ types,
    (table₁.get? ⟨m.name, types⟩).map FunctionDecl.result =
      (table₂.get? ⟨m.name, types⟩).map FunctionDecl.result

variable {table₁ table₂ : SignatureTable} {env₁ env₂ : Environment}

theorem mentions_agree {e : Expr} (hEnv : env₁.AgreeOn e.freeNames env₂)
    (hTable : table₁.AgreeOn e.callees table₂) :
    ∀ m ∈ e.mentions, m.Agrees table₁ table₂ env₁ env₂ := by
  intro m hm
  constructor
  · intro hFree
    exact hEnv m.name (List.mem_map_of_mem (List.mem_filter.2 ⟨hm, hFree⟩))
  · intro hCalled types
    rw [hTable m.name (List.mem_map_of_mem (List.mem_filter.2 ⟨hm, hCalled⟩))]

/-- What agrees around a body agrees inside of it, where the parameters are
bound alike. -/
theorem agree_inside {parameters : List String} {body : List Mention}
    {added : List (String × Binding)}
    (h : ∀ m ∈ Mention.scope parameters body, m.Agrees table₁ table₂ env₁ env₂)
    (hNames : added.map Prod.fst = parameters) :
    ∀ m ∈ body, m.Agrees table₁ table₂ (env₁.bindAll added) (env₂.bindAll added) := by
  intro m hm
  have hOuter : (m.under parameters).Agrees table₁ table₂ env₁ env₂ :=
    h _ (List.mem_append_right _ (List.mem_map_of_mem hm))
  refine ⟨?_, hOuter.as_function⟩
  intro hFree
  apply Environment.get?_bindAll_congr
  intro hUnbound
  apply hOuter.as_variable
  rw [hNames] at hUnbound
  simp [Mention.under, hFree, hUnbound]

/-! ## Types depend on what is mentioned -/

theorem typeOfVariable_congr {name : String}
    (h : (Mention.ofVariable name).Agrees table₁ table₂ env₁ env₂) :
    typeOfVariable env₁ name = typeOfVariable env₂ name := by
  have hVariable : env₁.get? name = env₂.get? name := h.as_variable rfl
  rw [typeOfVariable, typeOfVariable, hVariable]

theorem resolveCall_congr {callee : String}
    (h : (Mention.ofCallee callee).Agrees table₁ table₂ env₁ env₂) (types : List Ty) :
    resolveCall table₁ env₁ ⟨callee, types⟩ = resolveCall table₂ env₂ ⟨callee, types⟩ := by
  have hResult : (table₁.get? ⟨callee, types⟩).map FunctionDecl.result =
      (table₂.get? ⟨callee, types⟩).map FunctionDecl.result := h.as_function rfl types
  have hVariable : env₁.get? callee = env₂.get? callee := h.as_variable rfl
  rw [resolveCall, resolveCall, hVariable]
  cases hFound : table₁.get? ⟨callee, types⟩ with
  | none =>
      rw [hFound] at hResult
      rw [Option.map_eq_none_iff.1 hResult.symm]
  | some f =>
      rw [hFound] at hResult
      obtain ⟨g, hOther, hSame⟩ := Option.map_eq_some_iff.1 hResult.symm
      rw [hOther]
      exact congrArg Except.ok hSame.symm

/-- A lambda, of which something may be expected, by what holds of its body. -/
theorem typeOfLambda_congr {parameters : List (String × Option Ty)} {body : Expr}
    (expected : List Ty)
    (h : ∀ m ∈ (Expr.lambda parameters body).mentions, m.Agrees table₁ table₂ env₁ env₂)
    (hBody : ∀ {inner₁ inner₂ : Environment},
      (∀ m ∈ body.mentions, m.Agrees table₁ table₂ inner₁ inner₂) →
        typeOf table₁ inner₁ body = typeOf table₂ inner₂ body) :
    typeOfLambda table₁ env₁ ⟨parameters, body⟩ expected =
      typeOfLambda table₂ env₂ ⟨parameters, body⟩ expected := by
  rw [typeOfLambda, typeOfLambda]
  apply Alike.eq
  apply (bindParameters_alike parameters env₁ env₂ [] expected).bind
  rintro _ _ ⟨types, added, hNames, rfl, rfl⟩
  show Alike _ (typeOf table₁ _ body >>= _) (typeOf table₂ _ body >>= _)
  rw [hBody (agree_inside h hNames)]
  exact .refl _

mutual

theorem typeOf_congr : ∀ (e : Expr) {env₁ env₂ : Environment},
    (∀ m ∈ e.mentions, m.Agrees table₁ table₂ env₁ env₂) →
      typeOf table₁ env₁ e = typeOf table₂ env₂ e
  | .int _, _, _, _ => by rw [typeOf, typeOf]
  | .boolean _, _, _, _ => by rw [typeOf, typeOf]
  | .text _ splices, _, _, h => by
    rw [typeOf, typeOf, checkSplices_congr splices h]
  | .var name, _, _, h => by
    rw [typeOf, typeOf, typeOfVariable_congr (h (.ofVariable name) List.mem_cons_self)]
  | .binary left _ right, _, _, h => by
    obtain ⟨hLeft, hRight⟩ := List.forall_mem_append.1 h
    rw [typeOf, typeOf, typeOf_congr left hLeft, typeOf_congr right hRight]
  | .not operand, _, _, h => by
    rw [typeOf, typeOf, typeOf_congr operand h]
  | .step name _ _, _, _, h => by
    rw [typeOf, typeOf, typeOfVariable_congr (h (.ofVariable name) List.mem_cons_self)]
  | .ifThen condition _, _, _, h => by
    obtain ⟨hCondition, -⟩ := List.forall_mem_append.1 h
    rw [typeOf, typeOf, typeOf_congr condition hCondition]
  | .ifElse condition thenBranch elseBranch, _, _, h => by
    obtain ⟨hCondition, hBranches⟩ := List.forall_mem_append.1 h
    obtain ⟨hThen, hElse⟩ := List.forall_mem_append.1 hBranches
    rw [typeOf, typeOf, typeOf_congr condition hCondition, typeOf_congr thenBranch hThen,
      typeOf_congr elseBranch hElse]
  | .range first last, _, _, h => by
    obtain ⟨hFirst, hLast⟩ := List.forall_mem_append.1 h
    rw [typeOf, typeOf, typeOf_congr first hFirst, typeOf_congr last hLast]
  | .generate kind size parameters body, env₁, env₂, h => by
    obtain ⟨hSize, hScope⟩ := List.forall_mem_append.1 h
    rw [typeOf, typeOf, typeOf_congr size hSize]
    refine bind_congr fun sizeType => bind_congr fun _ => ?_
    cases hParameter : initializerParameter kind.spelling parameters with
    | error _ => rfl
    | ok name =>
        -- From here on the initializer is a lambda of one parameter, bound by itself.
        obtain ⟨ty?, rfl, -⟩ := initializerParameter_eq_ok.1 hParameter
        have hInside : ∀ m ∈ body.mentions, m.Agrees table₁ table₂
            (env₁.bindAll [(name, ⟨.int, false⟩)]) (env₂.bindAll [(name, ⟨.int, false⟩)]) :=
          agree_inside hScope rfl
        have hBody : typeOf table₁ (env₁.bind name .int false) body =
            typeOf table₂ (env₂.bind name .int false) body := typeOf_congr body hInside
        rw [except_bind_of_ok rfl, except_bind_of_ok rfl, hBody]
  | .literal _ items, _, _, h => by
    rw [typeOf, typeOf, elementsOf_congr items h]
  | .lambda parameters body, _, _, h => by
    rw [typeOf_lambda, typeOf_lambda]
    exact typeOfLambda_congr [] h (typeOf_congr body)
  | .call callee arguments, _, _, h => by
    obtain ⟨hCallee, hArguments⟩ := List.forall_mem_cons.1 h
    rw [typeOf, typeOf, typesOf_congr arguments hArguments]
    exact bind_congr (resolveCall_congr hCallee)
  | .index name _, _, _, h => by
    rw [typeOf, typeOf, typeOfVariable_congr (h (.ofVariable name) List.mem_cons_self)]

theorem typesOf_congr : ∀ (es : List Expr) {env₁ env₂ : Environment},
    (∀ m ∈ Expr.listMentions es, m.Agrees table₁ table₂ env₁ env₂) →
      typesOf table₁ env₁ es = typesOf table₂ env₂ es
  | [], _, _, _ => by rw [typesOf, typesOf]
  | e :: rest, _, _, h => by
    obtain ⟨hHead, hTail⟩ := List.forall_mem_append.1 h
    rw [typesOf, typesOf, typeOf_congr e hHead, typesOf_congr rest hTail]

theorem elementsOf_congr : ∀ (es : List Expr) {env₁ env₂ : Environment},
    (∀ m ∈ Expr.listMentions es, m.Agrees table₁ table₂ env₁ env₂) →
      elementsOf table₁ env₁ es = elementsOf table₂ env₂ es
  | [], _, _, _ => by rw [elementsOf, elementsOf]
  | e :: rest, _, _, h => by
    obtain ⟨hHead, hTail⟩ := List.forall_mem_append.1 h
    rw [elementsOf, elementsOf, typeOf_congr e hHead, elementsOf_congr rest hTail]

theorem checkSplices_congr : ∀ (splices : List (Nat × Expr)) {env₁ env₂ : Environment},
    (∀ m ∈ Expr.spliceMentions splices, m.Agrees table₁ table₂ env₁ env₂) →
      checkSplices table₁ env₁ splices = checkSplices table₂ env₂ splices
  | [], _, _, _ => by rw [checkSplices, checkSplices]
  | (_, e) :: rest, _, _, h => by
    obtain ⟨hHead, hTail⟩ := List.forall_mem_append.1 h
    rw [checkSplices, checkSplices, typeOf_congr e hHead, checkSplices_congr rest hTail]

end

/-- So does the type where one is expected. -/
theorem typeOfExpected_congr {e : Expr} (expected? : Option Ty)
    (h : ∀ m ∈ e.mentions, m.Agrees table₁ table₂ env₁ env₂) :
    typeOfExpected table₁ env₁ e expected? = typeOfExpected table₂ env₂ e expected? := by
  rw [typeOfExpected.eq_def, typeOfExpected.eq_def]
  split
  · next parameters body types _ => exact typeOfLambda_congr types h (typeOf_congr body)
  · exact typeOf_congr e h

end ScriptLang
