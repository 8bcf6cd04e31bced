import Facade.Declaration.Document

/-!
# The types and the parameters of a document

All types and parameters of a declaration, at any depth, as one list in the order of the text: a
type in front of what is inside of it, a parameter behind its type. The functions follow the types
of declarations, with one twin for each list.
-/

set_option autoImplicit false

namespace Facade

/-- A type or a parameter. -/
inductive Node where
  | type (type : TypeExpr)
  | parameter (parameter : Parameter)

/-- Whether the node is a rest type. -/
def Node.isRepeated : Node → Bool
  | .type (.repeated _) => true
  | _ => false

/-- The parameter, if the node is one. -/
def Node.parameter? : Node → Option Parameter
  | .type _ => none
  | .parameter found => some found

mutual

/-- The type, and all types and parameters inside of it. -/
def TypeExpr.nodes : TypeExpr → List Node
  | .primitive type => [.type (.primitive type)]
  | .named path arguments => .type (.named path arguments) :: typeNodes arguments
  | .object members => .type (.object members) :: memberNodes members
  | .function signature => .type (.function signature) :: signature.nodes
  | .constructor signature => .type (.constructor signature) :: signature.nodes
  | .repeated element => .type (.repeated element) :: element.nodes
  | .union types => .type (.union types) :: typeNodes types
  | .intersection types => .type (.intersection types) :: typeNodes types
  | .tuple types => .type (.tuple types) :: typeNodes types
  | .literal text => [.type (.literal text)]
  | .query path => [.type (.query path)]
  | .parenthesized inner => .type (.parenthesized inner) :: inner.nodes

/-- All types and parameters of types, in order. -/
def typeNodes : List TypeExpr → List Node
  | [] => []
  | type :: rest => type.nodes ++ typeNodes rest

/-- All types and parameters of a type that may be left out. -/
def optionNodes : Option TypeExpr → List Node
  | none => []
  | some type => type.nodes

/-- All types and parameters of a signature. -/
def Signature.nodes : Signature → List Node
  | ⟨typeParameters, parameters, result⟩ =>
    typeParameterNodes typeParameters ++ (parameterNodes parameters ++ optionNodes result)

/-- All types and parameters of a type parameter, its bound first. -/
def TypeParameter.nodes : TypeParameter → List Node
  | ⟨_, bound, default⟩ => optionNodes bound ++ optionNodes default

/-- All types and parameters of type parameters, in order. -/
def typeParameterNodes : List TypeParameter → List Node
  | [] => []
  | parameter :: rest => parameter.nodes ++ typeParameterNodes rest

/-- All types and parameters in the type of a parameter, and the parameter. -/
def Parameter.nodes : Parameter → List Node
  | ⟨name, optional, type⟩ => optionNodes type ++ [.parameter ⟨name, optional, type⟩]

/-- All types and parameters of parameters, in order. -/
def parameterNodes : List Parameter → List Node
  | [] => []
  | parameter :: rest => parameter.nodes ++ parameterNodes rest

/-- All types and parameters of a member. -/
def Member.nodes : Member → List Node
  | .call signature => signature.nodes
  | .construct signature => signature.nodes
  | .index parameter type => parameter.nodes ++ type.nodes
  | .property _ _ type => optionNodes type
  | .method _ _ signature => signature.nodes
  | .static member => member.nodes

/-- All types and parameters of members, in order. -/
def memberNodes : List Member → List Node
  | [] => []
  | member :: rest => member.nodes ++ memberNodes rest

end

mutual

/-- All types and parameters of a declaration. -/
def Declaration.nodes : Declaration → List Node
  | .variable _ type => optionNodes type
  | .function _ signature => signature.nodes
  | .interface _ typeParameters parents members =>
    typeParameterNodes typeParameters ++ (typeNodes parents ++ memberNodes members)
  | .alias _ typeParameters type => typeParameterNodes typeParameters ++ type.nodes
  | .class _ typeParameters parent interfaces members =>
    typeParameterNodes typeParameters ++ (optionNodes parent ++ (typeNodes interfaces
      ++ memberNodes members))
  | .namespace _ declarations => declarationNodes declarations
  | .unsupported _ => []

/-- All types and parameters of declarations, in order. -/
def declarationNodes : List Declaration → List Node
  | [] => []
  | declaration :: rest => declaration.nodes ++ declarationNodes rest

end

/-- All types and parameters of a document. -/
def Document.nodes (document : Document) : List Node :=
  declarationNodes document.declarations

/-- The types of an array are the array and those of its elements. -/
theorem TypeExpr.nodes_array (element : TypeExpr) :
    (array element).nodes = .type (array element) :: element.nodes :=
  congrArg (Node.type (array element) :: ·) (List.append_nil element.nodes)

end Facade
