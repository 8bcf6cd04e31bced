import Facade.Declaration.Document
import Facade.Translation.Member

/-!
# From declarations to packages

Declarations become definitions in a body, one after the other. A variable of an object type becomes
an object and any other a field, a function becomes methods, and interfaces, classes and aliases of
object types become classes or traits. Declarations of one name meet in one class or object. A
namespace opens packages, which may be there already, and everything else becomes a comment.

`Document.toPackage` starts from an empty root, opens the packages of an output path in it, and adds
the declarations of a document to the innermost.
-/

set_option autoImplicit false

namespace Facade

namespace Body

/-- Opens the packages of a path one inside the other, and changes the body of the innermost.
Packages of namespaces are marked on the way. -/
def inPackages (isNamespace : Bool) (f : Body → Noted Body) :
    List Identifier → Body → Noted Body
  | [], body => f body
  | name :: rest, body =>
    let (index, body) := body.openPackage name
    match body.get? index with
    | some (.package definition) => do
      let inner ← inPackages isNamespace f rest definition.body
      return body.modify index (Definition.mapPackage fun definition =>
        { definition with isNamespace := definition.isNamespace || isNamespace, body := inner })
    -- A package was opened, so nothing else stands at the index.
    | _ => return body

/-- Opens a class with the header of a declaration, and adds members to it. -/
def addClass (body : Body) (holder : Holder) (name : String)
    (typeParameters : List TypeParameter) (parents : List TypeExpr) (members : List Member)
    (later : List Declaration) : Noted Body := do
  let (index, body) := body.openClass ⟨name⟩
  let parents ← toScalaAll parents
  let body := body.modify index (Definition.mapClass fun definition =>
    definition.addHeader (TypeParameter.identifiers typeParameters) parents)
  Member.addAllTo holder index later members body

end Body

mutual

/-- Adds the definitions of a declaration to a body. The declarations that follow it in its list may
tell the type parameters of a class that it refers to. -/
def Declaration.addTo (later : List Declaration) : Declaration → Body → Noted Body
  | .variable name type, body =>
    match type with
    | some (.object members) =>
      let (index, body) := body.openObject ⟨name⟩
      Member.addAllTo .ofObject index later members body
    | type => return body.push (.field ⟨⟨name⟩, ← toScalaOrAny type⟩)
  | .function name signature, body => body.addMethods ⟨name⟩ signature
  | .interface name typeParameters parents members, body =>
    body.addClass .ofInterface name typeParameters parents members later
  | .alias name typeParameters type, body =>
    match type with
    | .object members => body.addClass .ofInterface name typeParameters [] members later
    | type => body.keep (Declaration.alias name typeParameters type).display
  | .class name typeParameters parent interfaces members, body =>
    body.addClass .ofClass name typeParameters (parent.toList ++ interfaces) members later
  | .namespace path declarations, body =>
    body.inPackages true (addDeclarations declarations) (path.map Identifier.mk)
  | .unsupported text, body => body.keep text

/-- Adds the definitions of declarations, in order. -/
def addDeclarations : List Declaration → Body → Noted Body
  | [], body => return body
  | declaration :: rest, body => do
    let body ← declaration.addTo rest body
    addDeclarations rest body

end

/-- The facade of a document, under an output path. -/
def Document.toPackage (document : Document) (path : DottedName) : Noted Package := do
  let body ← Body.empty.inPackages false (addDeclarations document.declarations) path.segments
  return { Package.root with body }

end Facade
