import Facade.Proofs.Translation.Everywhere
import Facade.Proofs.Translation.Spelling

/-!
# Where the types of a facade come from

A facade has types at four places: those of fields, of parameters and of results, and the parents of
a class. Each is the counterpart of a type that is written at the same place in the document
(`TypePlace.toScala`), apart from two that are always the same, the result of constructors and the
parent of whatever has none. `Document.types_toPackage` says so; what a type looks like can then be
read off the mapping of types alone.
-/

set_option autoImplicit false

namespace Facade

/-- Where a type stands in a definition. -/
inductive TypePlace where
  | parent
  | field
  | parameter
  | result
deriving DecidableEq

/-- The counterpart of a type at a place, or of none. -/
def TypePlace.toScala (place : TypePlace) (type : Option TypeExpr) : Noted ScalaType :=
  if place = .result then toScalaOrDynamic type else toScalaOrAny type

/-! ### Types of definitions -/

namespace Definition

/-- The types of a definition, without what is in it. -/
def types : Definition → List (TypePlace × ScalaType)
  | .class definition => definition.parents.map fun type => (.parent, type)
  | .field definition => [(.field, definition.type)]
  | .method definition =>
    definition.parameters.map (fun parameter => (.parameter, parameter.type))
      ++ [(.result, definition.result)]
  | _ => []

/-- The types of a definition are those of its front. -/
@[simp] theorem types_front (definition : Definition) :
    definition.front.types = definition.types := by
  cases definition <;> rfl

/-- Every type of the definition is admitted at its place. -/
def Typed (admitted : TypePlace → ScalaType → Prop) (definition : Definition) : Prop :=
  ∀ found ∈ definition.types, admitted found.1 found.2

/-- So it is a matter of the front whether they are admitted. -/
theorem typed_front {admitted : TypePlace → ScalaType → Prop} {definition : Definition} :
    definition.front.Typed admitted ↔ definition.Typed admitted := by
  rw [Typed, Typed, types_front]

end Definition

/-! ### Types of declarations -/

/-- The types that are written in a signature. -/
def Signature.types (signature : Signature) : List (TypePlace × Option TypeExpr) :=
  signature.parameters.map (fun parameter => (.parameter, parameter.type))
    ++ [(.result, signature.result)]

/-- The types that are written in a member, or those that could be. -/
def Member.types : Member → List (TypePlace × Option TypeExpr)
  | .call signature => signature.types
  | .construct signature => signature.types
  | .index _ _ => []
  | .property _ _ type => [(.field, type)]
  | .method _ _ signature => signature.types
  | .static member => member.types

/-- The types that are written in a declaration outside of its members. -/
def Declaration.ownTypes : Declaration → List (TypePlace × Option TypeExpr)
  | .variable _ type => [(.field, type)]
  | .function _ signature => signature.types
  | .interface _ _ parents _ => parents.map fun type => (.parent, some type)
  | .class _ _ parent interfaces _ =>
    (parent.toList ++ interfaces).map fun type => (.parent, some type)
  | _ => []

/-- The types that are written in a declaration and in its members. -/
def Declaration.types (declaration : Declaration) : List (TypePlace × Option TypeExpr) :=
  declaration.ownTypes ++ declaration.members.flatMap Member.types

/-! ### Types of entries -/

variable {admitted : TypePlace → ScalaType → Prop}

/-- The counterparts of the types at their places are admitted. -/
def Admit (admitted : TypePlace → ScalaType → Prop) (types : List (TypePlace × Option TypeExpr)) :
    Prop :=
  ∀ written ∈ types, admitted written.1 (written.1.toScala written.2).value

/-- A comment has no types. -/
theorem Entry.typed_comment (text : String) :
    (Entry.comment text).Fits (Definition.Typed admitted) :=
  fun _ _ => List.forall_mem_singleton.mpr fun _ hin => absurd hin List.not_mem_nil

/-- A field has an admitted type if its counterpart is admitted. -/
theorem Entry.typed_field {type : Option TypeExpr} (h : Admit admitted [(.field, type)])
    (given : Option Identifier) :
    (Entry.field given (toScalaOrAny type).value).Fits (Definition.Typed admitted) := by
  have htype : admitted .field (toScalaOrAny type).value :=
    h (.field, type) (List.mem_singleton.mpr rfl)
  refine fun _ _ => List.forall_mem_singleton.mpr fun found hin => ?_
  cases List.mem_singleton.mp hin
  exact htype

/-- Parameters keep their types, whichever of them are left out. -/
theorem Signature.typed_parameterLists {signature : Signature}
    (h : Admit admitted signature.types) :
    ∀ parameters ∈ signature.parameterLists, ∀ parameter ∈ parameters,
      admitted .parameter parameter.type := by
  have hall : ∀ parameter ∈ (Parameter.toMethods signature.parameters).value,
      admitted .parameter parameter.type := by
    rw [Parameter.value_toMethods]
    exact List.forall_mem_map.mpr fun parameter hin =>
      h _ (List.mem_append_left _ (List.mem_map_of_mem hin))
  intro parameters hparameters
  rcases List.mem_append.mp hparameters with hshort | hfull
  · obtain ⟨more, -, rfl⟩ := List.mem_map.mp hshort
    exact List.forall_mem_map.mpr fun parameter hin => hall parameter (List.mem_of_mem_take hin)
  · rw [List.mem_singleton.mp hfull]
    exact hall

/-- Methods have admitted types if those of their parameters and their result are admitted. -/
theorem Entry.typed_methods {given : Option Identifier} {typeParameters : List Identifier}
    {alternatives : List (List MethodParameter)} {result : ScalaType}
    (h : ∀ parameters ∈ alternatives, ∀ parameter ∈ parameters,
      admitted .parameter parameter.type) (hresult : admitted .result result) :
    (Entry.methods given typeParameters alternatives result).Fits (Definition.Typed admitted) :=
  fun _ _ => List.forall_mem_map.mpr fun parameters hin => List.forall_mem_append.mpr
    ⟨List.forall_mem_map.mpr (h parameters hin), List.forall_mem_singleton.mpr hresult⟩

/-- So have the methods of a signature. -/
theorem Entry.typed_ofSignature {signature : Signature} (h : Admit admitted signature.types)
    (given : Option Identifier) :
    (Entry.ofSignature given signature).value.Fits (Definition.Typed admitted) :=
  typed_methods (Signature.typed_parameterLists h)
    (h (.result, signature.result) (List.mem_append_right _ (List.mem_singleton.mpr rfl)))

/-! ### Types of edits -/

/-- The result of constructors, and the parent of what has none. -/
structure AdmitFixed (admitted : TypePlace → ScalaType → Prop) : Prop where
  unit : admitted .result .unit
  object : admitted .parent .object

/-- A change that fits still fits where it opens a class, which has no types yet. -/
theorem Edit.typed_onClass (name : Identifier) {change : ClassChange}
    (h : change.Fits (Definition.Typed admitted)) :
    (Edit.onClass name change).Fits (Definition.Typed admitted) :=
  ⟨fun _ hin => absurd hin List.not_mem_nil, h⟩

/-- An entry that fits still fits in the body of a holder. -/
theorem Holder.typed_edit {entry : Entry} (h : entry.Fits (Definition.Typed admitted))
    (holder : Holder) (name : Identifier) :
    (holder.edit name entry).Fits (Definition.Typed admitted) := by
  have henter : (ClassChange.enter entry).Fits (Definition.Typed admitted) :=
    ⟨fun _ hfront => hfront, fun found hfound => by cases hfound; exact h⟩
  cases holder with
  | ofObject => exact ⟨fun _ hin => absurd hin List.not_mem_nil, h⟩
  | ofInterface | ofClass => exact Edit.typed_onClass name henter

/-- A header brings its own parents, and `js.Object` where there are none. -/
theorem typed_addHeader (hfixed : AdmitFixed admitted) {parents : List ScalaType}
    (hparents : ∀ type ∈ parents, admitted .parent type) {definition : ClassDefinition}
    (h : (Definition.class definition).Typed admitted) (new : List Identifier) :
    (Definition.class (definition.addHeader new parents)).Typed admitted := by
  have hpresent : ∀ type ∈ definition.parents, admitted .parent type :=
    fun type hin => h (.parent, type) (List.mem_map_of_mem hin)
  refine List.forall_mem_map.mpr fun type hin => ?_
  simp only [ClassDefinition.addHeader] at hin
  -- Without parents of its own a header leaves those that are there, and adds the fixed one to
  -- none.
  split at hin
  · split at hin
    · rw [List.mem_singleton.mp hin]
      exact hfixed.object
    · exact hpresent type hin
  · rcases mem_addMissing hin with hin | hin
    · exact hpresent type (List.mem_of_mem_filter hin)
    · exact hparents type hin

/-- A header fits if its parents are admitted. -/
theorem ClassChange.typed_header (hfixed : AdmitFixed admitted) {parents : List ScalaType}
    (hparents : ∀ type ∈ parents, admitted .parent type) (new : List Identifier) :
    (ClassChange.header new parents).Fits (Definition.Typed admitted) where
  front _ hfront := Definition.typed_front.mpr
    (typed_addHeader hfixed hparents (Definition.typed_front.mp hfront) new)
  entry _ hentry := by cases hentry

/-- Constructors fit if the types of their signature are admitted. -/
theorem ClassChange.typed_constructors (hfixed : AdmitFixed admitted) {signature : Signature}
    (h : Admit admitted signature.types) (name : Identifier) :
    (ClassChange.constructors (constructorAlternatives name signature).value).Fits
      (Definition.Typed admitted) where
  front _ hfront := hfront
  entry _ hentry := by
    cases hentry
    rw [constructorAlternatives_eq]
    exact Entry.typed_methods (Signature.typed_parameterLists h) hfixed.unit

/-- So do constructors that a class adopts. -/
theorem ClassChange.typed_adopt (hfixed : AdmitFixed admitted) {signature : Signature}
    (h : Admit admitted signature.types) (name : Identifier) (own : List Identifier) :
    (ClassChange.adopt own (constructorAlternatives name signature).value).Fits
      (Definition.Typed admitted) where
  front _ hfront := Definition.typed_front.mpr
    (typed_addHeader hfixed (fun _ hin => absurd hin List.not_mem_nil)
      (Definition.typed_front.mp hfront) [])
  entry := (ClassChange.typed_constructors hfixed h name).entry

/-! ### Types of scripts -/

/-- What a member makes brings the types that are written in it. -/
theorem Member.Makes.typed (hfixed : AdmitFixed admitted) {holder : Holder} {name : Identifier}
    {own : List Identifier} {member : Member} {edit : Edit}
    (h : member.Makes holder name own edit) (htypes : Admit admitted member.bare.types) :
    edit.Fits (Definition.Typed admitted) := by
  cases h with
  | companion => exact fun _ hin => absurd hin List.not_mem_nil
  | comment text _ => exact Holder.typed_edit (Entry.typed_comment text) _ name
  | call _ hbare | method _ hbare =>
    rw [hbare] at htypes
    exact Holder.typed_edit (Entry.typed_ofSignature htypes _) _ name
  | property _ hbare =>
    rw [hbare] at htypes
    exact Holder.typed_edit (Entry.typed_field htypes _) _ name
  | adopt hbare _ =>
    rw [hbare] at htypes
    exact Edit.typed_onClass name (ClassChange.typed_adopt hfixed htypes name own)
  | construct _ heq | constructor _ heq =>
    subst heq
    exact Edit.typed_onClass name (ClassChange.typed_constructors hfixed htypes name)

/-- The edits of members fit if their types are admitted. -/
theorem Member.typed_scripts (hfixed : AdmitFixed admitted) (holder : Holder) (name : Identifier)
    (own : List Identifier) {members : List Member}
    (h : Admit admitted ((members.map Member.bare).flatMap Member.types)) :
    ∀ edit ∈ (Member.scripts holder name own members).value,
      edit.Fits (Definition.Typed admitted) := by
  refine forall_mem_scripts fun member hmember edit hmakes => hmakes.typed hfixed ?_
  exact fun found hfound =>
    h found (List.mem_flatMap.mpr ⟨member.bare, List.mem_map_of_mem hmember, hfound⟩)

/-- Types are mapped to their counterparts as parents. -/
theorem value_toScalaAll (types : List TypeExpr) :
    (toScalaAll types).value
      = types.map fun type => (TypePlace.parent.toScala (some type)).value := by
  induction types with
  | nil => rw [toScalaAll]; rfl
  | cons type rest ih =>
    rw [toScalaAll, Noted.value_bind, Noted.value_bind, ih, List.map_cons]
    rfl

/-- A class opens with its parents, and its members follow. -/
theorem typed_classScript (hfixed : AdmitFixed admitted) (holder : Holder) (name : String)
    (typeParameters : List TypeParameter) (parents : List TypeExpr) (members : List Member)
    (own : List Identifier)
    (h : Admit admitted (parents.map (fun type => (TypePlace.parent, some type))
      ++ (members.map Member.bare).flatMap Member.types)) :
    ∀ edit ∈ (classScript holder name typeParameters parents members own).value,
      edit.Fits (Definition.Typed admitted) := by
  rw [Admit, List.forall_mem_append] at h
  have hparents : ∀ type ∈ (toScalaAll parents).value, admitted .parent type := by
    rw [value_toScalaAll]
    exact List.forall_mem_map.mpr fun type hin => h.1 (.parent, some type) (List.mem_map_of_mem hin)
  exact List.forall_mem_cons.mpr
    ⟨Edit.typed_onClass ⟨name⟩ (ClassChange.typed_header hfixed hparents _),
      Member.typed_scripts hfixed holder ⟨name⟩ own h.2⟩

/-- The edits of a declaration bring the types that are written in it. -/
theorem Declaration.typed_script (hfixed : AdmitFixed admitted) (own : List Identifier)
    (declaration : Declaration) (h : Admit admitted declaration.types) :
    ∀ edit ∈ (declaration.script own).value, edit.Fits (Definition.Typed admitted) := by
  have hscripts := declaration.scripts_script own
  generalize declaration.script own = script at hscripts ⊢
  have hboth := List.forall_mem_append.mp h
  cases hscripts with
  | @field name type _ =>
    exact List.forall_mem_singleton.mpr (Entry.typed_field hboth.1 (some ⟨name⟩))
  | object name members =>
    exact List.forall_mem_cons.mpr ⟨fun _ hin => absurd hin List.not_mem_nil,
      Member.typed_scripts hfixed .ofObject ⟨name⟩ own hboth.2⟩
  | function name signature =>
    exact List.forall_mem_singleton.mpr (Entry.typed_ofSignature hboth.1 _)
  | «class» hclass =>
    refine typed_classScript hfixed _ _ _ _ _ own ?_
    cases hclass <;> exact h
  | comment text _ => exact List.forall_mem_singleton.mpr (Entry.typed_comment text)
  | «namespace» => exact List.forall_mem_nil _

/-! ### Facades -/

/-- The type stands where it does because it is always there, or because its counterpart is written
at that place of a declaration. -/
inductive TypeOf (declarations : List Declaration) : TypePlace → ScalaType → Prop where
  | unit : TypeOf declarations .result .unit
  | object : TypeOf declarations .parent .object
  | written {declaration : Declaration} {place : TypePlace} {type : Option TypeExpr} :
      declaration ∈ allAtAnyDepth declarations → (place, type) ∈ declaration.types →
      TypeOf declarations place (place.toScala type).value

/-- Wherever a type stands in a facade, it is always there, or it is written at such a place in the
document. -/
theorem Document.types_toPackage {document : Document} {path : DottedName} {container : Body}
    (hcontainer : (document.toPackage path).value.body.Contains container)
    {definition : Definition} (hdefinition : definition ∈ container.items) :
    ∀ found ∈ definition.types, TypeOf document.declarations found.1 found.2 := by
  have heverywhere : (document.toPackage path).value.body.Everywhere
      (Definition.Typed (TypeOf document.declarations)) := by
    have hnone : ∀ name, Body.Admits (Definition.Typed (TypeOf document.declarations)) name :=
      fun _ _ _ hin => absurd hin List.not_mem_nil
    refine document.everywhere_toPackage (fun declaration hdeclaration own => ?_)
      (fun segment _ => hnone _) fun name _ => hnone name
    exact declaration.typed_script ⟨.unit, .object⟩ own
      fun written hwritten => .written hdeclaration hwritten
  exact Definition.typed_front.mp
    (Body.everywhere_iff.mp (hcontainer.everywhere heverywhere) _ hdefinition).1

end Facade
