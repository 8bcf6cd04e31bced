import Facade.Definition.Identifier

/-!
# Types of facades

A Scala type is a path applied to types. The types of the JavaScript side live in the package `js`.
The type of a parameter that stands for any number of arguments is an application of a name that no
program can spell, to the type of each; it is written with a star.
-/

set_option autoImplicit false

namespace Facade

open Facade.Text

/-- A Scala type: a path and its type arguments. -/
structure ScalaType where
  name : DottedName
  arguments : List ScalaType

namespace ScalaType

mutual

/-- Two types are equal if their paths are and their arguments are, one by one. -/
def decideEq : (a b : ScalaType) → Decidable (a = b)
  | ⟨name, arguments⟩, ⟨name', arguments'⟩ =>
    match decEq name name', decideEqList arguments arguments' with
    | .isTrue hn, .isTrue ha => .isTrue (by rw [hn, ha])
    | .isFalse hn, _ => .isFalse fun h => hn (by injection h)
    | _, .isFalse ha => .isFalse fun h => ha (by injection h)

/-- Lists of types are equal if they are one by one. -/
def decideEqList : (a b : List ScalaType) → Decidable (a = b)
  | [], [] => .isTrue rfl
  | [], _ :: _ => .isFalse nofun
  | _ :: _, [] => .isFalse nofun
  | type :: rest, type' :: rest' =>
    match decideEq type type', decideEqList rest rest' with
    | .isTrue ht, .isTrue hr => .isTrue (by rw [ht, hr])
    | .isFalse ht, _ => .isFalse fun h => ht (by injection h)
    | _, .isFalse hr => .isFalse fun h => hr (by injection h)

end

/-- Types are compared all the way down. -/
instance : DecidableEq ScalaType := decideEq

/-- A type of Scala itself. -/
def plain (name : String) : ScalaType := ⟨.single ⟨name⟩, []⟩

/-- A type of the package `js`. -/
def js (name : String) (arguments : List ScalaType) : ScalaType :=
  ⟨⟨[⟨"js"⟩, ⟨name⟩]⟩, arguments⟩

/-- The type of anything. -/
def any : ScalaType := js "Any" []

/-- The type of a result that nothing is said of. -/
def dynamic : ScalaType := js "Dynamic" []

/-- The parent of a class that has no other. -/
def object : ScalaType := js "Object" []

/-- The result of constructors, and of what has none. -/
def unit : ScalaType := plain "Unit"

/-- The type of numbers. -/
def number : ScalaType := plain "Double"

/-- The type of truth values. -/
def boolean : ScalaType := plain "Boolean"

/-- The type of strings. -/
def string : ScalaType := plain "String"

/-- The type of arrays of a type. -/
def array (element : ScalaType) : ScalaType := js "Array" [element]

/-- The type of functions of which nothing else is known. -/
def anyFunction : ScalaType := js "Function" []

/-- The type of functions from all of the types but the last to the last. -/
def function (types : List ScalaType) : ScalaType :=
  js ("Function" ++ toString (types.length - 1)) types

/-- The name of the types of parameters that stand for any number of arguments. -/
def repeatedName : DottedName := .single ⟨"<repeated>"⟩

/-- The type of a parameter that stands for any number of arguments of a type. -/
def repeated (element : ScalaType) : ScalaType := ⟨repeatedName, [element]⟩

/-- The type of each argument, if the parameter stands for any number of them. -/
def element? : ScalaType → Option ScalaType
  | ⟨name, [element]⟩ => if name = repeatedName then some element else none
  | _ => none

/-- Whether a parameter of the type stands for any number of arguments. -/
def isRepeated (type : ScalaType) : Bool :=
  type.element?.isSome

/-- A path applied to types that are written already. -/
def displayApplied (name : DottedName) : List String → String
  | [] => name.display
  | [element] =>
    if name = repeatedName then element ++ "*" else name.display ++ "[" ++ element ++ "]"
  | arguments => name.display ++ "[" ++ joined ", " arguments ++ "]"

mutual

/-- The type as Scala reads it. -/
def display : ScalaType → String
  | ⟨name, arguments⟩ => displayApplied name (displayAll arguments)

/-- Types as Scala reads them. -/
def displayAll : List ScalaType → List String
  | [] => []
  | type :: rest => type.display :: displayAll rest

end

/-- Each argument of a repeated type has the type that is repeated. -/
@[simp] theorem element?_repeated (element : ScalaType) :
    (repeated element).element? = some element := by
  simp [element?, repeated]

/-- A type with a type for each argument is the repeated type of that. -/
theorem eq_repeated_of_element? {type element : ScalaType} (h : type.element? = some element) :
    type = repeated element := by
  unfold element? at h
  split at h
  · split at h
    · rename_i hn
      cases h
      rw [hn, repeated]
    · cases h
  · cases h

/-- Types are written one by one. -/
theorem displayAll_eq_map (types : List ScalaType) : displayAll types = types.map display := by
  induction types with
  | nil => rfl
  | cons type rest ih => simp [displayAll, ih]

end ScalaType

end Facade
