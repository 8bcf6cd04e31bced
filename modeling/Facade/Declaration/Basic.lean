/-!
# Declarations

What an ambient declaration file declares: variables, functions, interfaces, type aliases, classes
and namespaces, and the type expressions that they are made of. The types of one mutual block refer
to each other through lists and options, so every recursion over them has one function per type and
one per list.

A rest parameter `...xs: T[]` is kept as a parameter of type `repeated T`; `array` and
`arrayElement?` are the two directions between `T` and `T[]`, which is short for `Array<T>`.
-/

set_option autoImplicit false

namespace Facade

/-- The types that the language has a word for. -/
inductive Primitive where
  | any | void | number | bool | boolean | string
deriving DecidableEq

/-- How a primitive type is written. -/
def Primitive.spelling : Primitive → String
  | .any => "any"
  | .void => "void"
  | .number => "number"
  | .bool => "bool"
  | .boolean => "boolean"
  | .string => "string"

mutual

/-- A type expression. -/
inductive TypeExpr where
  | primitive (type : Primitive)
  /-- A name, qualified or not, applied to type arguments or not: `ns.Thing`, `Promise<T>`. -/
  | named (path : List String) (arguments : List TypeExpr)
  /-- The members in braces: `{ x: number }`. -/
  | object (members : List Member)
  /-- A function type `<T>(a: T) => R`, which always has a result. -/
  | function (signature : Signature)
  /-- A constructor type `new (a: T) => R`. -/
  | constructor (signature : Signature)
  /-- The type of a rest parameter, by its element. -/
  | repeated (element : TypeExpr)
  | union (types : List TypeExpr)
  | intersection (types : List TypeExpr)
  | tuple (types : List TypeExpr)
  /-- A literal, one of the constants, or `this`, as it is written. -/
  | literal (text : String)
  /-- The type of a value, `typeof a.b`. -/
  | query (path : List String)
  | parenthesized (inner : TypeExpr)
deriving BEq

/-- Type parameters, parameters, and the result if one is written. -/
structure Signature where
  typeParameters : List TypeParameter
  parameters : List Parameter
  result : Option TypeExpr
deriving BEq

/-- A type parameter with its bound and its default. -/
structure TypeParameter where
  name : String
  bound : Option TypeExpr
  default : Option TypeExpr
deriving BEq

/-- A parameter of a function, a method or an index. -/
structure Parameter where
  name : String
  optional : Bool
  type : Option TypeExpr
deriving BEq

/-- A member of an interface, of a class body or of an object type. -/
inductive Member where
  /-- The value itself can be called: `(a: T): R`. -/
  | call (signature : Signature)
  /-- The value can be called with `new`. -/
  | construct (signature : Signature)
  /-- Any key leads to a value: `[key: K]: V`. -/
  | index (parameter : Parameter) (type : TypeExpr)
  | property (name : String) (optional : Bool) (type : Option TypeExpr)
  | method (name : String) (optional : Bool) (signature : Signature)
  /-- A member that belongs to the class and not to its instances. -/
  | static (member : Member)
deriving BEq

end

/-- A declaration of a file or of a namespace. -/
inductive Declaration where
  | variable (name : String) (type : Option TypeExpr)
  | function (name : String) (signature : Signature)
  | interface (name : String) (typeParameters : List TypeParameter) (parents : List TypeExpr)
      (members : List Member)
  | alias (name : String) (typeParameters : List TypeParameter) (type : TypeExpr)
  | class (name : String) (typeParameters : List TypeParameter) (parent : Option TypeExpr)
      (interfaces : List TypeExpr) (members : List Member)
  | namespace (path : List String) (declarations : List Declaration)
  /-- A statement that is recognised but has no form of its own here, as it is written. -/
  | unsupported (text : String)
deriving BEq

namespace TypeExpr

/-- The array type of an element type. -/
def array (element : TypeExpr) : TypeExpr :=
  .named ["Array"] [element]

/-- The element type of an array type, however that is written. -/
def arrayElement? : TypeExpr → Option TypeExpr
  | .named ["Array"] [element] => some element
  | _ => none

/-- The elements of an array are those it was made of. -/
@[simp] theorem arrayElement?_array (element : TypeExpr) :
    (array element).arrayElement? = some element := rfl

/-- Only array types have an element type. -/
theorem eq_array_of_arrayElement? {type element : TypeExpr}
    (h : type.arrayElement? = some element) : type = array element := by
  unfold arrayElement? at h
  split at h
  · cases h; rfl
  · cases h

end TypeExpr

end Facade
