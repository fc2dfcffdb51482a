/-!
# Types

The types that an annotation can name and that inference can produce: basic
types, the two collections over a basic element, and function types, nested to
any depth. Types are compared by structural equality, which is decidable
(`Ty.decEq`, written out because the parameters are a nested list).
-/

namespace ScriptLang

/-- The types of single values. -/
inductive Basic
  | int | boolean | string | any
  deriving DecidableEq

/-- The two kinds of collection. -/
inductive Collection
  | array | mutableList
  deriving DecidableEq

/-- A type. The parameters of a function type are kept in declaration order. -/
inductive Ty
  | basic (kind : Basic)
  | collection (kind : Collection) (element : Basic)
  | function (parameters : List Ty) (result : Ty)

namespace Ty

abbrev int : Ty := .basic .int
abbrev boolean : Ty := .basic .boolean
abbrev string : Ty := .basic .string
abbrev any : Ty := .basic .any

mutual

/-- Structural equality of types is decidable. -/
def decEq : (a b : Ty) → Decidable (a = b)
  | .basic a, .basic b =>
    if h : a = b then isTrue (by rw [h]) else isFalse (by simp [h])
  | .basic _, .collection _ _ => isFalse nofun
  | .basic _, .function _ _ => isFalse nofun
  | .collection k a, .collection l b =>
    if h : k = l ∧ a = b then isTrue (by rw [h.1, h.2]) else isFalse (by simpa using h)
  | .collection _ _, .basic _ => isFalse nofun
  | .collection _ _, .function _ _ => isFalse nofun
  | .function ps r, .function qs s =>
    match decEqList ps qs with
    | isFalse h => isFalse (by simp [h])
    | isTrue h =>
      match decEq r s with
      | isFalse h' => isFalse (by simp [h'])
      | isTrue h' => isTrue (by rw [h, h'])
  | .function _ _, .basic _ => isFalse nofun
  | .function _ _, .collection _ _ => isFalse nofun

/-- Structural equality of parameter lists is decidable. -/
def decEqList : (as bs : List Ty) → Decidable (as = bs)
  | [], [] => isTrue rfl
  | [], _ :: _ => isFalse nofun
  | _ :: _, [] => isFalse nofun
  | a :: as, b :: bs =>
    match decEq a b with
    | isFalse h => isFalse (by simp [h])
    | isTrue h =>
      match decEqList as bs with
      | isFalse h' => isFalse (by simp [h'])
      | isTrue h' => isTrue (by rw [h, h'])

end

instance : DecidableEq Ty := decEq

/-- Whether values of the type can be printed and held in collections. -/
def isBasic : Ty → Bool
  | .basic _ => true
  | _ => false

/-- The type of the elements of a collection; nothing else can be iterated. -/
def element? : Ty → Option Ty
  | .collection _ element => some (.basic element)
  | _ => none

end Ty

/-! ## Spelling -/

def Basic.spelling : Basic → String
  | .int => "Int"
  | .boolean => "Boolean"
  | .string => "String"
  | .any => "Any"

def Collection.spelling : Collection → String
  | .array => "Array"
  | .mutableList => "MutableList"

/-- The keyword of a collection written out element by element. -/
def Collection.literalSpelling : Collection → String
  | .array => "arrayOf"
  | .mutableList => "mutableListOf"

mutual

/-- A type as source text: `Int`, `Array<Int>`, `(Int, String) -> Any`. -/
def Ty.spelling : Ty → String
  | .basic b => b.spelling
  | .collection k e => k.spelling ++ "<" ++ e.spelling ++ ">"
  | .function ps r => "(" ++ Ty.spellings ps ++ ") -> " ++ r.spelling

/-- Types separated by commas. -/
def Ty.spellings : List Ty → String
  | [] => ""
  | [t] => t.spelling
  | t :: ts => t.spelling ++ ", " ++ Ty.spellings ts

end

end ScriptLang
