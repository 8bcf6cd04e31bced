import Facade.Definition.ScalaType

/-!
# Definitions of facades

A facade is a tree of definitions: packages, classes and objects hold other definitions in their
bodies, and fields, methods and comments are its leaves. A class and an object of one name in one
body are companions; each then has the index of the other in that body.
-/

set_option autoImplicit false

namespace Facade

/-- A parameter of a method. -/
structure MethodParameter where
  name : Identifier
  type : ScalaType
  optional : Bool
deriving DecidableEq

/-- A method, or a constructor if it has the name of constructors. -/
structure Method where
  name : Identifier
  typeParameters : List Identifier
  parameters : List MethodParameter
  result : ScalaType
deriving DecidableEq

/-- A field. -/
structure Field where
  name : Identifier
  type : ScalaType
deriving DecidableEq

mutual

/-- A definition. -/
inductive Definition where
  /-- The text of something that has no counterpart in a facade. -/
  | comment (text : String)
  | package (definition : Package)
  | class (definition : ClassDefinition)
  | object (definition : ObjectDefinition)
  | field (definition : Field)
  | method (definition : Method)

/-- A package. The one without a name is the root of a facade. -/
structure Package where
  name : Identifier
  /-- Whether the package is also a namespace of the JavaScript side. -/
  isNamespace : Bool
  body : Body

/-- A class, or a trait as long as it has no constructor. -/
structure ClassDefinition where
  name : Identifier
  typeParameters : List Identifier
  parents : List ScalaType
  isTrait : Bool
  companion : Option Nat
  body : Body

/-- An object. -/
structure ObjectDefinition where
  name : Identifier
  companion : Option Nat
  body : Body

/-- Definitions in order, and how many names were made up for those that came without one. The count
has no bound. A count in 32 bits is the same as long as no container has `2 ^ 32` members without a
name. -/
structure Body where
  items : List Definition
  madeUp : Nat

end

/-- A body with nothing in it. -/
def Body.empty : Body := ⟨[], 0⟩

namespace Package

/-- A package of the Scala side alone, with nothing in it. -/
def named (name : Identifier) : Package := ⟨name, false, .empty⟩

/-- The root of a facade, with nothing in it. -/
def root : Package := named ⟨""⟩

/-- Whether the package has no name. -/
def isRoot (package : Package) : Bool :=
  package.name.isEmpty

end Package

/-- A trait with nothing in it. -/
def ClassDefinition.named (name : Identifier) (companion : Option Nat) : ClassDefinition :=
  ⟨name, [], [], true, companion, .empty⟩

/-- The class applied to its own type parameters. -/
def ClassDefinition.selfType (definition : ClassDefinition) : ScalaType :=
  ⟨.single definition.name, definition.typeParameters.map fun name => ⟨.single name, []⟩⟩

/-- An object with nothing in it. -/
def ObjectDefinition.named (name : Identifier) (companion : Option Nat) : ObjectDefinition :=
  ⟨name, companion, .empty⟩

namespace Definition

/-- The name of a definition. A comment has none. -/
def name? : Definition → Option Identifier
  | .comment _ => none
  | .package definition => some definition.name
  | .class definition => some definition.name
  | .object definition => some definition.name
  | .field definition => some definition.name
  | .method definition => some definition.name

/-- The body of a definition that holds others. -/
def body? : Definition → Option Body
  | .package definition => some definition.body
  | .class definition => some definition.body
  | .object definition => some definition.body
  | _ => none

/-- Whether the definition is the package of a name. -/
def isPackageNamed (name : Identifier) : Definition → Bool
  | .package definition => definition.name == name
  | _ => false

/-- Whether the definition is the class of a name. -/
def isClassNamed (name : Identifier) : Definition → Bool
  | .class definition => definition.name == name
  | _ => false

/-- Whether the definition is the object of a name. -/
def isObjectNamed (name : Identifier) : Definition → Bool
  | .object definition => definition.name == name
  | _ => false

/-- Changes the body of a definition that holds others. -/
def mapBody (f : Body → Body) : Definition → Definition
  | .package definition => .package { definition with body := f definition.body }
  | .class definition => .class { definition with body := f definition.body }
  | .object definition => .object { definition with body := f definition.body }
  | definition => definition

/-- Changes a package. -/
def mapPackage (f : Package → Package) : Definition → Definition
  | .package definition => .package (f definition)
  | definition => definition

/-- Changes a class. -/
def mapClass (f : ClassDefinition → ClassDefinition) : Definition → Definition
  | .class definition => .class (f definition)
  | definition => definition

/-- Changes an object. -/
def mapObject (f : ObjectDefinition → ObjectDefinition) : Definition → Definition
  | .object definition => .object (f definition)
  | definition => definition

end Definition

end Facade
