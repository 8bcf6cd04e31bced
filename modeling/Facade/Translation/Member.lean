import Facade.Definition.Body
import Facade.Translation.Overload
import Facade.Translation.TypeMapping

/-!
# From members to definitions

A member of an interface, a class or an object-typed variable becomes definitions in the body of the
class or object that stands for it. What a member becomes depends on who holds it (`Holder`), and
two members reach beyond their holder's body, which is why `Member.addTo` works on the body around
it:

* a static member of a class belongs to the object that is the class's companion;
* a construct signature of a variable makes a constructor of the class of that name, if what it
  constructs is exactly that class applied to its own type parameters. The class may be declared
  later in the same list, and then its type parameters are looked up there.
-/

set_option autoImplicit false

namespace Facade

/-- Who holds a member: a variable of an object type, or the static side of a class; an interface,
or an alias of an object type; or a class. -/
inductive Holder where
  | ofObject
  | ofInterface
  | ofClass
deriving DecidableEq

/-! ### Methods and constructors -/

/-- The counterparts of parameters, in order. -/
def Parameter.toMethods : List Parameter → Noted (List MethodParameter)
  | [] => return []
  | parameter :: rest => do
    let type ← toScalaOrAny parameter.type
    return ⟨⟨parameter.name⟩, type, parameter.optional⟩ :: (← toMethods rest)

namespace Body

/-- Adds the methods of a signature, one for every number of arguments. -/
def addMethods (body : Body) (name : Identifier) (signature : Signature) : Noted Body := do
  let typeParameters := signature.typeParameters.map fun parameter => Identifier.mk parameter.name
  let parameters ← Parameter.toMethods signature.parameters
  let result ← toScalaOrDynamic signature.result
  return (MethodParameter.alternatives parameters).foldl
    (fun body parameters => body.push (.method ⟨name, typeParameters, parameters, result⟩)) body

/-- Keeps a text as a comment. -/
def keep (body : Body) (text : String) : Noted Body := do
  Noted.warn (.keptAsComment text)
  return body.push (.comment text)

/-- The name of a member, which is made up if it has none. -/
def nameMember (body : Body) (name : String) : Identifier × Body :=
  if name == "" then body.makeUpName else (⟨name⟩, body)

/-- Changes the body of the definition at an index. -/
def inBody (body : Body) (index : Nat) (f : Body → Noted Body) : Noted Body :=
  match (body.get? index).bind Definition.body? with
  | none => return body
  | some inner => do
    let inner ← f inner
    return body.modify index (Definition.mapBody fun _ => inner)

/-- Changes the class at an index. -/
def inClass (body : Body) (index : Nat) (f : ClassDefinition → Noted ClassDefinition) :
    Noted Body :=
  match body.class? index with
  | none => return body
  | some definition => do
    let definition ← f definition
    return body.modify index (Definition.mapClass fun _ => definition)

end Body

namespace ClassDefinition

/-- Makes a class out of what may have been a trait, with the constructors of a signature. -/
def addConstructors (definition : ClassDefinition) (signature : Signature) :
    Noted ClassDefinition := do
  unless signature.typeParameters.isEmpty do
    Noted.warn (.genericConstructor definition.name)
  let parameters ← Parameter.toMethods signature.parameters
  let body := (MethodParameter.alternatives parameters).foldl
    (fun body parameters => body.push (.method ⟨.constructor, [], parameters, .unit⟩))
    definition.body
  return { definition with isTrait := false, body }

/-- Adds what is not there yet, in order. -/
def addMissing {α : Type} [DecidableEq α] (present new : List α) : List α :=
  new.foldl (fun present item => if item ∈ present then present else present ++ [item]) present

/-- Adds the type parameters and parents of a declaration of the class. Without a declared parent a
class extends `js.Object`, which gives way to the first that is declared. -/
def addHeader (definition : ClassDefinition) (typeParameters : List Identifier)
    (parents : List ScalaType) : ClassDefinition :=
  { definition with
    typeParameters := addMissing definition.typeParameters typeParameters
    parents :=
      if parents.isEmpty then
        if definition.parents.isEmpty then [.object] else definition.parents
      else addMissing (definition.parents.filter (· ≠ .object)) parents }

end ClassDefinition

/-! ### Constructors of companions -/

/-- The type inside any parentheses around it. -/
def TypeExpr.unwrap : TypeExpr → TypeExpr
  | .parenthesized inner => inner.unwrap
  | type => type

/-- Whether the type is a name without arguments. -/
def TypeExpr.isBare (name : Identifier) : TypeExpr → Bool
  | .named [single] [] => single == name.raw
  | _ => false

/-- Whether types are the names of type parameters, one by one and in order. -/
def TypeExpr.areBare : List TypeExpr → List Identifier → Bool
  | [], [] => true
  | type :: rest, name :: names => type.isBare name && areBare rest names
  | _, _ => false

/-- Whether the type is a name applied to exactly the type parameters, parentheses aside. -/
def TypeExpr.isSelfType (name : Identifier) (typeParameters : List Identifier)
    (type : TypeExpr) : Bool :=
  match type.unwrap with
  | .named [single] arguments => single == name.raw && areBare arguments typeParameters
  | _ => false

/-- The names of type parameters. -/
def TypeParameter.identifiers (parameters : List TypeParameter) : List Identifier :=
  parameters.map fun parameter => ⟨parameter.name⟩

/-- The type parameters of a declaration that makes a class or trait of a name. -/
def Declaration.headerOf? (name : Identifier) : Declaration → Option (List Identifier)
  | .interface declared typeParameters _ _ =>
    if declared = name.raw then some (TypeParameter.identifiers typeParameters) else none
  | .class declared typeParameters _ _ _ =>
    if declared = name.raw then some (TypeParameter.identifiers typeParameters) else none
  | .alias declared typeParameters (.object _) =>
    if declared = name.raw then some (TypeParameter.identifiers typeParameters) else none
  | _ => none

/-- The type parameters of the class of a name: those it has, or those that the first of the later
declarations gives it, or none. -/
def Body.headerOf (body : Body) (name : Identifier) (later : List Declaration) :
    List Identifier :=
  match (body.classIndex? name).bind body.class? with
  | some definition => definition.typeParameters
  | none => (later.findSome? (Declaration.headerOf? name)).getD []

/-- Adds a construct signature of the object of a name to the class of that name, as constructors.
There is no answer if the signature does not construct that class. -/
def Body.addCompanionConstructors? (body : Body) (name : Identifier) (signature : Signature)
    (later : List Declaration) : Option (Noted Body) :=
  let header := body.headerOf name later
  if signature.result.any (TypeExpr.isSelfType name header) then
    let (index, body) := body.openClass name
    some (body.inClass index fun definition =>
      -- A class that was not there yet takes the type parameters of a later declaration.
      let typeParameters :=
        if definition.typeParameters.isEmpty then header else definition.typeParameters
      ({ definition with typeParameters }.addHeader [] []).addConstructors signature)
  else none

/-! ### Members -/

/-- Adds the definitions of a member to the definition at an index of a body. -/
def Member.addTo (holder : Holder) (owner : Nat) (later : List Declaration) :
    Member → Body → Noted Body
  | .call signature, body => body.inBody owner fun inner => inner.addMethods .apply signature
  | .construct signature, body =>
    let comment := body.inBody owner fun inner => inner.keep (Member.construct signature).display
    match holder with
    | .ofObject =>
      match body.object? owner with
      | some definition =>
        (body.addCompanionConstructors? definition.name signature later).getD comment
      | none => comment
    | .ofClass => body.inClass owner fun definition => definition.addConstructors signature
    | .ofInterface => comment
  | .index parameter type, body =>
    body.inBody owner fun inner => inner.keep (Member.index parameter type).display
  | .property name optional type, body =>
    if name == "prototype" then do
      Noted.warn (.skippedProperty (.property name optional type))
      return body
    else do
      let type ← toScalaOrAny type
      body.inBody owner fun inner =>
        let (name, inner) := inner.nameMember name
        return inner.push (.field ⟨name, type⟩)
  | .method name _ signature, body =>
    if holder = .ofClass && name == "constructor" then
      body.inClass owner fun definition => definition.addConstructors signature
    else
      body.inBody owner fun inner =>
        let (name, inner) := inner.nameMember name
        inner.addMethods name signature
  | .static member, body =>
    if holder = .ofClass then
      match (body.get? owner).bind Definition.name? with
      | none => return body
      | some name =>
        -- The object is opened even if the member then adds nothing to it.
        let (companion, body) := body.openObject name
        member.addTo .ofObject companion later body
    else member.addTo holder owner later body

/-- Adds the definitions of members, in order. -/
def Member.addAllTo (holder : Holder) (owner : Nat) (later : List Declaration)
    (members : List Member) (body : Body) : Noted Body :=
  members.foldlM (fun body member => member.addTo holder owner later body) body

end Facade
