import ScriptLang.Proofs.Typing.Parameters
import ScriptLang.Proofs.Typing.Premises

/-!
# Typing rules

The types of expressions as rules, one for each way in which an expression can
have a type: the derivable judgements are `HasType` for an expression, and
`HasTypes` for a list of them, member by member.
-/

namespace ScriptLang

mutual

/-- The expression has the type, where the functions of the table are declared
and the variables of the environment are in scope. -/
inductive HasType (table : SignatureTable) : Environment → Expr → Ty → Prop
  | int {env : Environment} {value : Int} : HasType table env (.int value) .int
  | boolean {env : Environment} {value : Bool} : HasType table env (.boolean value) .boolean
  /-- Every splice of a text has some type. -/
  | text {env : Environment} {remainder : String} {splices : List (Nat × Expr)}
      {types : List Ty} (hSplices : HasTypes table env (splices.map Prod.snd) types) :
      HasType table env (.text remainder splices) .string
  | var {env : Environment} {name : String} {binding : Binding}
      (hScope : env.get? name = some binding) : HasType table env (.var name) binding.ty
  | arithmetic {env : Environment} {left right : Expr} {op : ArithmeticOp}
      (hLeft : HasType table env left .int) (hRight : HasType table env right .int) :
      HasType table env (.binary left (.arithmetic op) right) .int
  /-- An integer or a text can be added behind a text. -/
  | concatenation {env : Environment} {left right : Expr} {ty : Ty}
      (hLeft : HasType table env left .string) (hRight : HasType table env right ty)
      (hTy : ty = .int ∨ ty = .string) :
      HasType table env (.binary left (.arithmetic .plus) right) .string
  | comparison {env : Environment} {left right : Expr} {op : ComparisonOp}
      (hLeft : HasType table env left .int) (hRight : HasType table env right .int) :
      HasType table env (.binary left (.comparison op) right) .boolean
  | logical {env : Environment} {left right : Expr} {op : LogicalOp}
      (hLeft : HasType table env left .boolean) (hRight : HasType table env right .boolean) :
      HasType table env (.binary left (.logical op) right) .boolean
  | not {env : Environment} {operand : Expr} (hOperand : HasType table env operand .boolean) :
      HasType table env (.not operand) .boolean
  | step {env : Environment} {name : String} {op : StepOp} {before readOnly : Bool}
      (hScope : env.get? name = some ⟨.int, readOnly⟩) :
      HasType table env (.step name op before) .int
  /-- There is no rule for a conditional without an alternative. -/
  | ifElse {env : Environment} {condition thenBranch elseBranch : Expr} {ty : Ty}
      (hCondition : HasType table env condition .boolean)
      (hThen : HasType table env thenBranch ty) (hElse : HasType table env elseBranch ty) :
      HasType table env (.ifElse condition thenBranch elseBranch) ty
  | range {env : Environment} {first last : Expr} (hFirst : HasType table env first .int)
      (hLast : HasType table env last .int) :
      HasType table env (.range first last) (.collection .array .int)
  | generate {env : Environment} {kind : Collection} {size body : Expr} {name : String}
      {ty? : Option Ty} {element : Basic} (hSize : HasType table env size .int)
      (hParameter : ty? = none ∨ ty? = some .int)
      (hBody : HasType table (env.bind name .int false) body (.basic element)) :
      HasType table env (.generate kind size [(name, ty?)] body) (.collection kind element)
  | uniform {env : Environment} {kind : Collection} {items : List Expr}
      {elements : List Basic} {element : Basic}
      (hItems : HasTypes table env items (elements.map .basic)) (hSome : elements ≠ [])
      (hSame : ∀ other ∈ elements, other = element) :
      HasType table env (.literal kind items) (.collection kind element)
  | mixed {env : Environment} {kind : Collection} {items : List Expr}
      {elements : List Basic} {one other : Basic}
      (hItems : HasTypes table env items (elements.map .basic)) (hOne : one ∈ elements)
      (hOther : other ∈ elements) (hDiffer : one ≠ other) :
      HasType table env (.literal kind items) (.collection kind .any)
  /-- All parameters give their types, and their names are distinct. -/
  | lambda {env : Environment} {typed : List (String × Ty)} {body : Expr} {result : Ty}
      (hDistinct : (typed.map Prod.fst).Nodup)
      (hBody : HasType table (env.bindAll (parameterBindings false typed)) body result) :
      HasType table env
        (.lambda (typed.map fun parameter => (parameter.1, some parameter.2)) body)
        (.function (typed.map Prod.snd) result)
  /-- A call of a function declared for exactly the types of the arguments. -/
  | callFunction {env : Environment} {callee : String} {arguments : List Expr}
      {types : List Ty} {f : FunctionDecl} (hArguments : HasTypes table env arguments types)
      (hDeclared : table.get? ⟨callee, types⟩ = some f) :
      HasType table env (.call callee arguments) f.result
  /-- A call of a function that a variable holds, where none is declared for the
  types of the arguments. They need not be the types of its parameters. -/
  | callVariable {env : Environment} {callee : String} {arguments : List Expr}
      {types parameters : List Ty} {result : Ty} {readOnly : Bool}
      (hArguments : HasTypes table env arguments types)
      (hUndeclared : table.get? ⟨callee, types⟩ = none)
      (hScope : env.get? callee = some ⟨.function parameters result, readOnly⟩) :
      HasType table env (.call callee arguments) result
  /-- An indexed variable has its own type, and nothing is asked of the index. -/
  | index {env : Environment} {name : String} {index : Expr} {binding : Binding}
      (hScope : env.get? name = some binding) : HasType table env (.index name index) binding.ty

/-- The expressions have the types, one each. -/
inductive HasTypes (table : SignatureTable) : Environment → List Expr → List Ty → Prop
  | nil {env : Environment} : HasTypes table env [] []
  | cons {env : Environment} {e : Expr} {es : List Expr} {ty : Ty} {types : List Ty}
      (hHead : HasType table env e ty) (hTail : HasTypes table env es types) :
      HasTypes table env (e :: es) (ty :: types)

end

variable {table : SignatureTable} {env inner : Environment} {e : Expr} {es : List Expr}
  {ty : Ty} {types : List Ty} {seen : List String}

/-! ## Every inferred type is derivable -/

theorem hasType_of_binaryType {left right : Expr} {op : BinaryOp} {leftType rightType : Ty}
    (hLeft : HasType table env left leftType) (hRight : HasType table env right rightType)
    (h : binaryType op leftType rightType = some ty) :
    HasType table env (.binary left op right) ty := by
  cases op with
  | arithmetic op =>
      rcases arithmeticType_eq_some.1 h with ⟨rfl, rfl, rfl⟩ | ⟨rfl, rfl, hTy, rfl⟩
      · exact .arithmetic hLeft hRight
      · exact .concatenation hLeft hRight hTy
  | comparison op =>
      obtain ⟨⟨rfl, rfl⟩, rfl⟩ : (leftType = .int ∧ rightType = .int) ∧ .boolean = ty := by
        simpa [binaryType] using h
      exact .comparison hLeft hRight
  | logical op =>
      obtain ⟨⟨rfl, rfl⟩, rfl⟩ : (leftType = .boolean ∧ rightType = .boolean) ∧ .boolean = ty := by
        simpa [binaryType] using h
      exact .logical hLeft hRight

theorem hasType_of_elementType {kind : Collection} {constructor : String}
    {elements : List Basic} {element : Basic}
    (hItems : HasTypes table env es (elements.map .basic))
    (h : elementType constructor elements = .ok element) :
    HasType table env (.literal kind es) (.collection kind element) := by
  rcases elementType_eq_ok.1 h with ⟨hSome, hSame⟩ | ⟨rfl, one, hOne, other, hOther, hDiffer⟩
  · exact .uniform hItems hSome hSame
  · exact .mixed hItems hOne hOther hDiffer

theorem hasType_of_resolveCall {callee : String} (hArguments : HasTypes table env es types)
    (h : resolveCall table env ⟨callee, types⟩ = .ok ty) :
    HasType table env (.call callee es) ty := by
  rcases resolveCall_eq_ok.1 h with ⟨f, hDeclared, rfl⟩ | ⟨hUndeclared, _, _, hScope⟩
  · exact .callFunction hArguments hDeclared
  · exact .callVariable hArguments hUndeclared hScope

mutual

theorem hasType_of_typeOf : ∀ (e : Expr) {env : Environment} {ty : Ty},
    typeOf table env e = .ok ty → HasType table env e ty
  | .int _, _, _, h => by
    cases h
    exact .int
  | .boolean _, _, _, h => by
    cases h
    exact .boolean
  | .text _ splices, _, _, h => by
    rw [typeOf] at h
    obtain ⟨⟨⟩, hSplices, ⟨⟩⟩ := except_bind_eq_ok.1 h
    obtain ⟨types, hTypes⟩ := hasTypes_of_checkSplices splices hSplices
    exact .text hTypes
  | .var _, _, _, h => by
    rw [typeOf] at h
    obtain ⟨binding, hScope, rfl⟩ := typeOfVariable_eq_ok.1 h
    exact .var hScope
  | .binary left op right, _, _, h => by
    rw [typeOf] at h
    obtain ⟨leftType, hLeft, h⟩ := except_bind_eq_ok.1 h
    obtain ⟨rightType, hRight, h⟩ := except_bind_eq_ok.1 h
    exact hasType_of_binaryType (hasType_of_typeOf left hLeft) (hasType_of_typeOf right hRight)
      (applyOperator_eq_ok.1 h)
  | .not operand, _, _, h => by
    rw [typeOf] at h
    obtain ⟨operandType, hOperand, h⟩ := except_bind_eq_ok.1 h
    obtain ⟨rfl, rfl⟩ := expectOperand_eq_ok.1 h
    exact .not (hasType_of_typeOf operand hOperand)
  | .step _ _ _, _, _, h => by
    rw [typeOf] at h
    obtain ⟨operandType, hName, h⟩ := except_bind_eq_ok.1 h
    obtain ⟨rfl, rfl⟩ := expectOperand_eq_ok.1 h
    obtain ⟨⟨_, readOnly⟩, hScope, rfl⟩ := typeOfVariable_eq_ok.1 hName
    exact .step hScope
  | .ifThen _ _, _, _, h => by
    -- The condition may well be a Boolean; it is what comes behind it that fails.
    rw [typeOf] at h
    obtain ⟨conditionType, -, h⟩ := except_bind_eq_ok.1 h
    obtain ⟨-, -, h⟩ := except_bind_eq_ok.1 h
    exact absurd h nofun
  | .ifElse condition thenBranch elseBranch, _, _, h => by
    rw [typeOf] at h
    obtain ⟨conditionType, hCondition, h⟩ := except_bind_eq_ok.1 h
    obtain ⟨⟨⟩, hBoolean, h⟩ := except_bind_eq_ok.1 h
    obtain ⟨thenType, hThen, h⟩ := except_bind_eq_ok.1 h
    obtain ⟨elseType, hElse, h⟩ := except_bind_eq_ok.1 h
    obtain ⟨⟨⟩, hSame, ⟨⟩⟩ := except_bind_eq_ok.1 h
    obtain rfl := expectType_eq_ok.1 hBoolean
    obtain rfl := expectType_eq_ok.1 hSame
    exact .ifElse (hasType_of_typeOf condition hCondition) (hasType_of_typeOf thenBranch hThen)
      (hasType_of_typeOf elseBranch hElse)
  | .range first last, _, _, h => by
    rw [typeOf] at h
    obtain ⟨firstType, hFirst, h⟩ := except_bind_eq_ok.1 h
    obtain ⟨lastType, hLast, h⟩ := except_bind_eq_ok.1 h
    obtain ⟨⟨rfl, rfl⟩, rfl⟩ :
        (firstType = .int ∧ lastType = .int) ∧ Ty.collection .array .int = _ := by
      simpa using applyOperator_eq_ok.1 h
    exact .range (hasType_of_typeOf first hFirst) (hasType_of_typeOf last hLast)
  | .generate _ size _ body, _, _, h => by
    -- The parameters are looked at behind the size, so their shape is known only here.
    rw [typeOf] at h
    obtain ⟨sizeType, hSize, h⟩ := except_bind_eq_ok.1 h
    obtain ⟨⟨⟩, hInt, h⟩ := except_bind_eq_ok.1 h
    obtain ⟨name, hName, h⟩ := except_bind_eq_ok.1 h
    obtain ⟨bodyType, hBody, h⟩ := except_bind_eq_ok.1 h
    obtain ⟨element, hElement, ⟨⟩⟩ := except_bind_eq_ok.1 h
    obtain rfl := expectType_eq_ok.1 hInt
    obtain ⟨ty?, rfl, hTy⟩ := initializerParameter_eq_ok.1 hName
    obtain rfl := expectBasic_eq_ok.1 hElement
    exact .generate (hasType_of_typeOf size hSize) hTy (hasType_of_typeOf body hBody)
  | .literal _ items, _, _, h => by
    rw [typeOf] at h
    obtain ⟨elements, hItems, h⟩ := except_bind_eq_ok.1 h
    obtain ⟨element, hElement, ⟨⟩⟩ := except_bind_eq_ok.1 h
    exact hasType_of_elementType (hasTypes_of_elementsOf items hItems) hElement
  | .lambda parameters body, _, _, h => by
    rw [typeOf_lambda, typeOfLambda_eq_ok] at h
    obtain ⟨hDistinct, typed, hTyped, result, hBody, rfl⟩ := h
    rw [← names_of_typedParameters? parameters hTyped] at hDistinct
    obtain rfl := (typedParameters?_nil parameters).1 hTyped
    exact .lambda hDistinct (hasType_of_typeOf body hBody)
  | .call _ arguments, _, _, h => by
    rw [typeOf] at h
    obtain ⟨types, hTypes, h⟩ := except_bind_eq_ok.1 h
    exact hasType_of_resolveCall (hasTypes_of_typesOf arguments hTypes) h
  | .index _ _, _, _, h => by
    rw [typeOf] at h
    obtain ⟨binding, hScope, rfl⟩ := typeOfVariable_eq_ok.1 h
    exact .index hScope

theorem hasTypes_of_typesOf : ∀ (es : List Expr) {env : Environment} {types : List Ty},
    typesOf table env es = .ok types → HasTypes table env es types
  | [], _, _, h => by
    cases h
    exact .nil
  | e :: es, _, _, h => by
    rw [typesOf] at h
    obtain ⟨ty, hHead, h⟩ := except_bind_eq_ok.1 h
    obtain ⟨types, hTail, ⟨⟩⟩ := except_bind_eq_ok.1 h
    exact .cons (hasType_of_typeOf e hHead) (hasTypes_of_typesOf es hTail)

theorem hasTypes_of_elementsOf : ∀ (es : List Expr) {env : Environment} {elements : List Basic},
    elementsOf table env es = .ok elements → HasTypes table env es (elements.map .basic)
  | [], _, _, h => by
    cases h
    exact .nil
  | e :: es, _, _, h => by
    rw [elementsOf] at h
    obtain ⟨ty, hHead, h⟩ := except_bind_eq_ok.1 h
    obtain ⟨element, hBasic, h⟩ := except_bind_eq_ok.1 h
    obtain ⟨elements, hTail, ⟨⟩⟩ := except_bind_eq_ok.1 h
    obtain rfl := expectBasic_eq_ok.1 hBasic
    exact .cons (hasType_of_typeOf e hHead) (hasTypes_of_elementsOf es hTail)

theorem hasTypes_of_checkSplices : ∀ (splices : List (Nat × Expr)) {env : Environment},
    checkSplices table env splices = .ok () →
      ∃ types, HasTypes table env (splices.map Prod.snd) types
  | [], _, _ => ⟨[], .nil⟩
  | (_, e) :: rest, _, h => by
    rw [checkSplices] at h
    obtain ⟨ty, hHead, h⟩ := except_bind_eq_ok.1 h
    obtain ⟨types, hTail⟩ := hasTypes_of_checkSplices rest h
    exact ⟨ty :: types, .cons (hasType_of_typeOf e hHead) hTail⟩

end

/-! ## Every derivable type is inferred -/

theorem elementsOf_of_typesOf {elements : List Basic}
    (h : typesOf table env es = .ok (elements.map .basic)) :
    elementsOf table env es = .ok elements := by
  induction es generalizing elements with
  | nil =>
      have hNone : elements.map Ty.basic = [] := (Except.ok.inj h).symm
      rw [List.map_eq_nil_iff.1 hNone]
      rfl
  | cons e es ih =>
      rw [typesOf] at h
      obtain ⟨ty, hHead, h⟩ := except_bind_eq_ok.1 h
      obtain ⟨types, hTail, h⟩ := except_bind_eq_ok.1 h
      have hMap : elements.map Ty.basic = ty :: types := (Except.ok.inj h).symm
      obtain ⟨element, rest, rfl, rfl, rfl⟩ := List.map_eq_cons_iff.1 hMap
      rw [elementsOf, hHead, ih hTail]
      rfl

theorem checkSplices_of_typesOf {splices : List (Nat × Expr)}
    (h : typesOf table env (splices.map Prod.snd) = .ok types) :
    checkSplices table env splices = .ok () := by
  induction splices generalizing types with
  | nil => rfl
  | cons splice rest ih =>
      rw [List.map_cons, typesOf] at h
      obtain ⟨ty, hHead, h⟩ := except_bind_eq_ok.1 h
      obtain ⟨types, hTail, -⟩ := except_bind_eq_ok.1 h
      rw [checkSplices, hHead]
      exact ih hTail

mutual

theorem HasType.typeOf_eq {env : Environment} {e : Expr} {ty : Ty} :
    HasType table env e ty → typeOf table env e = .ok ty
  | .int => by rw [typeOf]
  | .boolean => by rw [typeOf]
  | .text hSplices => by
    rw [typeOf, except_bind_of_ok (checkSplices_of_typesOf hSplices.typesOf_eq)]
    rfl
  | .var hScope => by
    rw [typeOf]
    exact typeOfVariable_eq_ok.2 ⟨_, hScope, rfl⟩
  | .arithmetic hLeft hRight => by
    rw [typeOf, except_bind_of_ok hLeft.typeOf_eq, except_bind_of_ok hRight.typeOf_eq]
    rw [applyOperator_eq_ok, binaryType, arithmeticType_eq_some]
    exact (.inl ⟨rfl, rfl, rfl⟩)
  | .concatenation hLeft hRight hTy => by
    rw [typeOf, except_bind_of_ok hLeft.typeOf_eq, except_bind_of_ok hRight.typeOf_eq]
    rw [applyOperator_eq_ok, binaryType, arithmeticType_eq_some]
    exact (.inr ⟨rfl, rfl, hTy, rfl⟩)
  | .comparison hLeft hRight => by
    rw [typeOf, except_bind_of_ok hLeft.typeOf_eq, except_bind_of_ok hRight.typeOf_eq]
    rfl
  | .logical hLeft hRight => by
    rw [typeOf, except_bind_of_ok hLeft.typeOf_eq, except_bind_of_ok hRight.typeOf_eq]
    rfl
  | .not hOperand => by
    rw [typeOf, except_bind_of_ok hOperand.typeOf_eq]
    rfl
  | .step hScope => by
    rw [typeOf, except_bind_of_ok (typeOfVariable_eq_ok.2 ⟨_, hScope, rfl⟩)]
    rfl
  | .ifElse hCondition hThen hElse => by
    rw [typeOf, except_bind_of_ok hCondition.typeOf_eq,
      except_bind_of_ok (expectType_eq_ok.2 rfl), except_bind_of_ok hThen.typeOf_eq,
      except_bind_of_ok hElse.typeOf_eq, except_bind_of_ok (expectType_eq_ok.2 rfl)]
    rfl
  | .range hFirst hLast => by
    rw [typeOf, except_bind_of_ok hFirst.typeOf_eq, except_bind_of_ok hLast.typeOf_eq]
    rfl
  | .generate hSize hParameter hBody => by
    rw [typeOf, except_bind_of_ok hSize.typeOf_eq, except_bind_of_ok (expectType_eq_ok.2 rfl),
      except_bind_of_ok (initializerParameter_eq_ok.2 ⟨_, rfl, hParameter⟩),
      except_bind_of_ok hBody.typeOf_eq]
    rfl
  | .uniform hItems hSome hSame => by
    rw [typeOf, except_bind_of_ok (elementsOf_of_typesOf hItems.typesOf_eq),
      except_bind_of_ok (elementType_eq_ok.2 (.inl ⟨hSome, hSame⟩))]
    rfl
  | .mixed hItems hOne hOther hDiffer => by
    rw [typeOf, except_bind_of_ok (elementsOf_of_typesOf hItems.typesOf_eq),
      except_bind_of_ok (elementType_eq_ok.2 (.inr ⟨rfl, _, hOne, _, hOther, hDiffer⟩))]
    rfl
  | @HasType.lambda _ _ typed _ _ hDistinct hBody => by
    have hTyped : typedParameters? []
        (typed.map fun parameter => (parameter.1, some parameter.2)) = some typed :=
      (typedParameters?_nil _).2 rfl
    rw [names_of_typedParameters? _ hTyped] at hDistinct
    rw [typeOf_lambda]
    exact typeOfLambda_eq_ok.2 ⟨hDistinct, _, hTyped, _, hBody.typeOf_eq, rfl⟩
  | .callFunction hArguments hDeclared => by
    rw [typeOf, except_bind_of_ok hArguments.typesOf_eq]
    exact resolveCall_eq_ok.2 (.inl ⟨_, hDeclared, rfl⟩)
  | .callVariable hArguments hUndeclared hScope => by
    rw [typeOf, except_bind_of_ok hArguments.typesOf_eq]
    exact resolveCall_eq_ok.2 (.inr ⟨hUndeclared, _, _, hScope⟩)
  | .index hScope => by
    rw [typeOf]
    exact typeOfVariable_eq_ok.2 ⟨_, hScope, rfl⟩

theorem HasTypes.typesOf_eq {env : Environment} {es : List Expr} {types : List Ty} :
    HasTypes table env es types → typesOf table env es = .ok types
  | .nil => by rw [typesOf]
  | .cons hHead hTail => by
    rw [typesOf, except_bind_of_ok hHead.typeOf_eq, except_bind_of_ok hTail.typesOf_eq]
    rfl

end

/-- The rules give an expression no more than one type. -/
theorem HasType.unique {other : Ty} (h : HasType table env e ty)
    (hOther : HasType table env e other) : ty = other := by
  have hSame : Except.ok ty = Except.ok other := h.typeOf_eq.symm.trans hOther.typeOf_eq
  exact Except.ok.inj hSame

theorem HasTypes.unique {es : List Expr} {types others : List Ty}
    (h : HasTypes table env es types) (hOthers : HasTypes table env es others) :
    types = others := by
  have hSame : Except.ok types = Except.ok others := h.typesOf_eq.symm.trans hOthers.typesOf_eq
  exact Except.ok.inj hSame

/-- Whether the rules give a type is decided by inference. -/
instance : Decidable (HasType table env e ty) :=
  match hInferred : typeOf table env e with
  | .ok inferred =>
    if hSame : inferred = ty then isTrue (hasType_of_typeOf e (hSame ▸ hInferred))
    else isFalse fun h => hSame (Except.ok.inj (hInferred.symm.trans h.typeOf_eq))
  | .error _ => isFalse fun h => nomatch hInferred.symm.trans h.typeOf_eq

/-- Inference gives a type exactly when the rules do. -/
theorem typeOf_eq_ok_iff_hasType (table : SignatureTable) (env : Environment) (e : Expr) (ty : Ty) :
    typeOf table env e = .ok ty ↔ HasType table env e ty :=
  ⟨hasType_of_typeOf e, HasType.typeOf_eq⟩

/-- In `{ n: Int -> arrayOf(n, "a") }` the elements differ, and a conditional
without an alternative has no type. -/
example :
    HasType .empty .empty
        (.lambda [("n", some .int)] (.literal .array [.var "n", .text "a" []]))
        (.function [.int] (.collection .array .any)) ∧
      ¬ HasType .empty .empty (.ifThen (.boolean true) (.int 1)) .int := by
  decide

end ScriptLang
