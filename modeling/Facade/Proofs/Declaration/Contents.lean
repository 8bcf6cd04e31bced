import Facade.Declaration.Basic

/-!
# What a document declares

The words in which statements about whole documents are made: the declarations at any depth of
namespaces, the members of a declaration, and the sorts of declarations and members that a
translation treats differently. A member is always meant inside any `static`, which says who holds
it and not what it is.
-/

set_option autoImplicit false

namespace Facade

mutual

/-- The declarations in a declaration other than namespaces, at any depth of namespaces. -/
def Declaration.atAnyDepth : Declaration → List Declaration
  | .namespace _ declarations => allAtAnyDepth declarations
  | declaration => [declaration]

/-- The declarations in a list, and those in its namespaces, at any depth. -/
def allAtAnyDepth : List Declaration → List Declaration
  | [] => []
  | declaration :: rest => declaration.atAnyDepth ++ allAtAnyDepth rest

end

/-- The member inside any `static`. -/
def Member.bare : Member → Member
  | .static member => member.bare
  | member => member

namespace Declaration

/-- The members of an object-typed variable, an interface, an alias of an object type, or a class,
inside any `static`. -/
def members : Declaration → List Member
  | .variable _ (some (.object members)) => members.map Member.bare
  | .interface _ _ _ members => members.map Member.bare
  | .alias _ _ (.object members) => members.map Member.bare
  | .class _ _ _ _ members => members.map Member.bare
  | _ => []

/-- Whether the declaration is a variable whose type is no object type. -/
def isPlainVariable : Declaration → Bool
  | .variable _ (some (.object _)) => false
  | .variable _ _ => true
  | _ => false

/-- Whether the declaration is an alias whose type is no object type. -/
def isPlainAlias : Declaration → Bool
  | .alias _ _ (.object _) => false
  | .alias _ _ _ => true
  | _ => false

/-- Whether a declaration is a statement that is kept as it is written. -/
def isUnsupported : Declaration → Bool
  | .unsupported _ => true
  | _ => false

/-- Whether a declaration is a namespace. -/
def isNamespace : Declaration → Bool
  | .namespace _ _ => true
  | _ => false

/-- The name of an interface, of a class, or of an alias of an object type. -/
def className? : Declaration → Option String
  | .interface name _ _ _ => some name
  | .alias name _ (.object _) => some name
  | .class name _ _ _ _ => some name
  | _ => none

/-- The name of a variable of an object type. -/
def objectName? : Declaration → Option String
  | .variable name (some (.object _)) => some name
  | _ => none

/-- The first name on the path of a namespace. -/
def firstSegment? : Declaration → Option String
  | .namespace (segment :: _) _ => some segment
  | _ => none

/-- The type parameters of an interface, of a class, or of an alias. -/
def typeParameters : Declaration → List TypeParameter
  | .interface _ typeParameters _ _ => typeParameters
  | .alias _ typeParameters _ => typeParameters
  | .class _ typeParameters _ _ _ => typeParameters
  | _ => []

/-- The signature of a function. -/
def function? : Declaration → Option Signature
  | .function _ signature => some signature
  | _ => none

end Declaration

namespace Member

/-- The name of a property or of a method. -/
def name? : Member → Option String
  | .property name _ _ => some name
  | .method name _ _ => some name
  | _ => none

/-- Whether the member is a property that becomes a field. -/
def isField : Member → Bool
  | .property name _ _ => name != "prototype"
  | _ => false

/-- Whether the member is the property that is skipped. -/
def isPrototype : Member → Bool
  | .property name _ _ => name == "prototype"
  | _ => false

/-- Whether a member is an index signature. -/
def isIndex : Member → Bool
  | .index _ _ => true
  | _ => false

/-- The signature of a method or of a call. -/
def callable? : Member → Option Signature
  | .call signature => some signature
  | .method _ _ signature => some signature
  | _ => none

/-- The signature of a construct signature. -/
def construct? : Member → Option Signature
  | .construct signature => some signature
  | _ => none

end Member

/-- The number of ways to pass arguments: one, and one more for each of the last parameters that may
be left out. -/
def Signature.arities (signature : Signature) : Nat :=
  1 + (signature.parameters.reverse.takeWhile (·.optional)).length

end Facade
