import Facade.Proofs.Definition.View
import Facade.Translation.Member

/-!
# Edits of a body

What the translation does to a body comes down to a few kinds of edits: something without a body
of its own is entered, the class of a name is opened and changed, the object of a name is opened,
and something is entered into it. `Edit` names them, and `Edit.apply` says what each does.

An edit finds its class or object by name and opens it if need be, so an edit never gets lost.
`openClass_class?` and `openObject_object?` say what it finds: the class or object that is there,
or a new one (`Body.classOrNew`, `Body.objectOrNew`). `view_apply` says what becomes of it: the
view under the label of the edit changes, and no other view of a container.
-/

set_option autoImplicit false

namespace Facade

/-! ### Entries -/

/-- Something without a body that goes into a body: a comment, a field, or the methods of a
signature. Without a name, a field or a method gets one that is made up. -/
inductive Entry where
  | comment (text : String)
  | field (name : Option Identifier) (type : ScalaType)
  | methods (name : Option Identifier) (typeParameters : List Identifier)
      (alternatives : List (List MethodParameter)) (result : ScalaType)

namespace Entry

/-- The definitions of an entry, given the name to use if it has none. -/
def definitions (fresh : Identifier) : Entry → List Definition
  | .comment text => [.comment text]
  | .field name type => [.field ⟨name.getD fresh, type⟩]
  | .methods name typeParameters alternatives result =>
    alternatives.map fun parameters =>
      .method ⟨name.getD fresh, typeParameters, parameters, result⟩

/-- Whether a name has to be made up. -/
def isNameless : Entry → Bool
  | .comment _ => false
  | .field name _ => name.isNone
  | .methods name _ _ _ => name.isNone

/-- The methods of a signature. -/
def ofSignature (name : Option Identifier) (signature : Signature) : Noted Entry := do
  let parameters ← Parameter.toMethods signature.parameters
  let result ← toScalaOrDynamic signature.result
  return .methods name (TypeParameter.identifiers signature.typeParameters)
    (MethodParameter.alternatives parameters) result

/-- No entry has a definition with a body of its own. -/
theorem isContainer_of_mem_definitions {fresh : Identifier} {entry : Entry}
    {definition : Definition} (h : definition ∈ entry.definitions fresh) :
    definition.isContainer = false := by
  cases entry with
  | comment text => cases List.mem_singleton.mp h; rfl
  | field name type => cases List.mem_singleton.mp h; rfl
  | methods name typeParameters alternatives result =>
    obtain ⟨parameters, -, rfl⟩ := List.mem_map.mp h
    rfl

end Entry

/-- The name that a member is given, if it has one. -/
def memberName? (name : String) : Option Identifier :=
  if name == "" then none else some ⟨name⟩

namespace Body

/-- Adds the definitions of an entry at the end. -/
def enter (body : Body) (entry : Entry) : Body where
  items := body.items ++ entry.definitions body.makeUpName.1
  madeUp := if entry.isNameless then body.madeUp + 1 else body.madeUp

/-- To put definitions at the end one by one is to put all of them there. -/
theorem foldl_push {α : Type} (f : α → Definition) (list : List α) (body : Body) :
    list.foldl (fun body a => body.push (f a)) body
      = { body with items := body.items ++ list.map f } := by
  induction list generalizing body with
  | nil => cases body; simp
  | cons a rest ih => rw [List.foldl_cons, ih]; simp [push]

/-- An entry adds the labels of its definitions at the end. -/
@[simp] theorem labels_enter (body : Body) (entry : Entry) :
    (body.enter entry).labels
      = body.labels ++ (entry.definitions body.makeUpName.1).map Definition.label := by
  simp [labels, enter]

/-- An entry moves nothing. -/
theorem grows_enter (body : Body) (entry : Entry) : body.Grows (body.enter entry) := by
  rw [Grows, labels_enter]
  exact List.prefix_append _ _

end Body

/-! ### Changes of a class -/

/-- What the translation does to a class. -/
inductive ClassChange where
  | enter (entry : Entry)
  | header (typeParameters : List Identifier) (parents : List ScalaType)
  /-- Constructors, one for each list of parameters. -/
  | constructors (alternatives : List (List MethodParameter))
  /-- Constructors of a class that may be declared later only, with its own type parameters. -/
  | adopt (own : List Identifier) (alternatives : List (List MethodParameter))

/-- The lists of parameters of the constructors of a signature. -/
def constructorAlternatives (name : Identifier) (signature : Signature) :
    Noted (List (List MethodParameter)) := do
  unless signature.typeParameters.isEmpty do
    Noted.warn (.genericConstructor name)
  let parameters ← Parameter.toMethods signature.parameters
  return MethodParameter.alternatives parameters

namespace ClassDefinition

/-- The class with constructors, which is no trait any more. -/
def withConstructors (definition : ClassDefinition)
    (alternatives : List (List MethodParameter)) : ClassDefinition :=
  { definition with
    isTrait := false
    body := definition.body.enter (.methods (some .constructor) [] alternatives .unit) }

/-- The class with type parameters, if it has none yet. -/
def withHeader (definition : ClassDefinition) (own : List Identifier) : ClassDefinition :=
  { definition with
    typeParameters :=
      if definition.typeParameters.isEmpty then own else definition.typeParameters }

/-- Constructors are added with what is noted of their signature. -/
theorem addConstructors_eq (definition : ClassDefinition) (signature : Signature) :
    definition.addConstructors signature
      = ⟨definition.withConstructors (constructorAlternatives definition.name signature).value,
          (constructorAlternatives definition.name signature).warnings⟩ := by
  unfold addConstructors constructorAlternatives withConstructors Body.enter
  simp only [Body.foldl_push]
  cases signature.typeParameters.isEmpty <;> rfl

end ClassDefinition

namespace ClassChange

/-- The class behind a change. -/
def apply (definition : ClassDefinition) : ClassChange → ClassDefinition
  | .enter entry => { definition with body := definition.body.enter entry }
  | .header typeParameters parents => definition.addHeader typeParameters parents
  | .constructors alternatives => definition.withConstructors alternatives
  | .adopt own alternatives =>
    ((definition.withHeader own).addHeader [] []).withConstructors alternatives

/-- A change leaves the name of the class. -/
@[simp] theorem name_apply (change : ClassChange) (definition : ClassDefinition) :
    (change.apply definition).name = definition.name := by
  cases change <;> rfl

/-- It leaves the link of the class as well. -/
@[simp] theorem companion_apply (change : ClassChange) (definition : ClassDefinition) :
    (change.apply definition).companion = definition.companion := by
  cases change <;> rfl

/-- What a change makes of the type parameters of a class. -/
def typeParameters (present : List Identifier) : ClassChange → List Identifier
  | .enter _ => present
  | .header new _ => ClassDefinition.addMissing present new
  | .constructors _ => present
  | .adopt own _ => if present.isEmpty then own else present

/-- A change makes of the type parameters of a class what it makes of type parameters. -/
theorem typeParameters_apply (change : ClassChange) (definition : ClassDefinition) :
    (change.apply definition).typeParameters
      = change.typeParameters definition.typeParameters := by
  cases change <;> rfl

/-- A change adds to the body of the class, or leaves it as it is. -/
theorem body_apply (change : ClassChange) (definition : ClassDefinition) :
    (change.apply definition).body = definition.body
      ∨ ∃ entry, (change.apply definition).body = definition.body.enter entry := by
  cases change with
  | enter entry => exact .inr ⟨entry, rfl⟩
  | header typeParameters parents => exact .inl rfl
  | constructors alternatives => exact .inr ⟨_, rfl⟩
  | adopt header alternatives => exact .inr ⟨_, rfl⟩

end ClassChange

/-! ### Edits of a body -/

/-- What the translation does to a body. -/
inductive Edit where
  | here (entry : Entry)
  | onClass (name : Identifier) (change : ClassChange)
  | object (name : Identifier)
  | inObject (name : Identifier) (entry : Entry)

namespace Edit

/-- The body behind an edit. -/
def apply (body : Body) : Edit → Body
  | .here entry => body.enter entry
  | .onClass name change =>
    (body.openClass name).2.modify (body.openClass name).1 (Definition.mapClass change.apply)
  | .object name => (body.openObject name).2
  | .inObject name entry =>
    (body.openObject name).2.modify (body.openObject name).1
      (Definition.mapBody fun inner => inner.enter entry)

/-- Edits, one after the other. -/
def applyAll (edits : List Edit) (body : Body) : Body :=
  edits.foldl apply body

/-- No edits leave the body. -/
@[simp] theorem applyAll_nil (body : Body) : applyAll [] body = body := rfl

/-- The first of several edits is made first. -/
@[simp] theorem applyAll_cons (edit : Edit) (rest : List Edit) (body : Body) :
    applyAll (edit :: rest) body = applyAll rest (edit.apply body) := rfl

/-- Edits in two parts are made one part after the other. -/
@[simp] theorem applyAll_append (first second : List Edit) (body : Body) :
    applyAll (first ++ second) body = applyAll second (applyAll first body) :=
  List.foldl_append

/-- A change leaves the label of a class. -/
theorem label_mapClass (change : ClassChange) (definition : Definition) :
    (definition.mapClass change.apply).label = definition.label := by
  cases definition <;>
    simp [Definition.mapClass, Definition.label, Definition.kind, Definition.name?]

/-- A definition with another body has the same label. -/
theorem label_mapBody (f : Body → Body) (definition : Definition) :
    (definition.mapBody f).label = definition.label := by
  cases definition <;> rfl

/-- No edit moves what is there. -/
theorem grows_apply (body : Body) (edit : Edit) : body.Grows (edit.apply body) := by
  cases edit with
  | here entry => exact body.grows_enter entry
  | onClass name change =>
    exact (body.opens_openClass name).grows.trans
      (Body.grows_modify fun definition _ => label_mapClass change definition)
  | object name => exact (body.opens_openObject name).grows
  | inObject name entry =>
    exact (body.opens_openObject name).grows.trans
      (Body.grows_modify fun definition _ => label_mapBody _ definition)

end Edit

/-! ### What an edit finds -/

namespace Body

/-- The class of a name. -/
def classNamed? (body : Body) (name : Identifier) : Option ClassDefinition :=
  (body.indexOf? ⟨.class, some name⟩).bind body.class?

/-- The object of a name. -/
def objectNamed? (body : Body) (name : Identifier) : Option ObjectDefinition :=
  (body.indexOf? ⟨.object, some name⟩).bind body.object?

/-- The class of a name, or the one that opening it would add. -/
def classOrNew (body : Body) (name : Identifier) : ClassDefinition :=
  (body.classNamed? name).getD (.named name (body.indexOf? ⟨.object, some name⟩))

/-- The object of a name, or the one that opening it would add. -/
def objectOrNew (body : Body) (name : Identifier) : ObjectDefinition :=
  (body.objectNamed? name).getD (.named name (body.indexOf? ⟨.class, some name⟩))

/-- A class that is there is opened where it stands. -/
theorem openClass_of_indexOf? {body : Body} {name : Identifier} {index : Nat}
    (h : body.indexOf? ⟨.class, some name⟩ = some index) :
    body.openClass name = (index, body) := by
  rw [openClass_eq, h]

/-- So is an object. -/
theorem openObject_of_indexOf? {body : Body} {name : Identifier} {index : Nat}
    (h : body.indexOf? ⟨.object, some name⟩ = some index) :
    body.openObject name = (index, body) := by
  rw [openObject_eq, h]

/-- The definition that is admitted stands at the end. -/
theorem get?_enrol_size (body : Body) (definition : Definition) :
    (body.enrol definition).get? body.size = some definition := by
  unfold enrol
  split
  · exact get?_push_size body definition
  · rename_i partner hpartner
    obtain ⟨label, -, hlabel⟩ := Option.bind_eq_some_iff.mp hpartner
    obtain ⟨old, hold, -⟩ := get?_of_indexOf? hlabel
    rw [get?_modify_of_ne (Nat.ne_of_lt (lt_size_of_get? hold)), get?_push_size]

/-- An opened class is the one of the name, or a new one. -/
theorem openClass_class? (body : Body) (name : Identifier) :
    (body.openClass name).2.class? (body.openClass name).1 = some (body.classOrNew name) := by
  rw [openClass_eq, classOrNew, classNamed?]
  cases hfound : body.indexOf? ⟨.class, some name⟩ with
  | some index =>
    obtain ⟨definition, hd, -⟩ := class?_of_indexOf? hfound
    simp [hd]
  | none => simp [class?, get?_enrol_size]

/-- It has the name it was asked for. -/
theorem name_classOrNew (body : Body) (name : Identifier) :
    (body.classOrNew name).name = name := by
  obtain ⟨definition, hd, hname⟩ := body.openClass_index name
  cases hd.symm.trans (get?_of_class? (body.openClass_class? name))
  exact hname

/-- An opened object is the one of the name, or a new one. -/
theorem openObject_object? (body : Body) (name : Identifier) :
    (body.openObject name).2.object? (body.openObject name).1
      = some (body.objectOrNew name) := by
  rw [openObject_eq, objectOrNew, objectNamed?]
  cases hfound : body.indexOf? ⟨.object, some name⟩ with
  | some index =>
    obtain ⟨definition, hd, -⟩ := object?_of_indexOf? hfound
    simp [hd]
  | none => simp [object?, get?_enrol_size]

/-- Changing the class at an index to one that is known beforehand. -/
theorem inClass_eq {body : Body} {index : Nat} {definition : ClassDefinition}
    (hd : body.class? index = some definition) {f : ClassDefinition → Noted ClassDefinition}
    (change : ClassChange) {warnings : List Warning}
    (hf : f definition = ⟨change.apply definition, warnings⟩) :
    body.inClass index f
      = ⟨body.modify index (Definition.mapClass change.apply), warnings⟩ := by
  have hmodify : body.modify index (Definition.mapClass fun _ => change.apply definition)
      = body.modify index (Definition.mapClass change.apply) :=
    modify_congr fun found hfound => by
      cases hfound.symm.trans (get?_of_class? hd)
      rfl
  simp only [inClass, hd, hf, ← hmodify]
  simp [bind, pure]

/-- Changing the body at an index to one that is known beforehand. -/
theorem inBody_eq {body : Body} {index : Nat} {found : Definition} {inner : Body}
    (hd : body.get? index = some found) (hinner : found.body? = some inner)
    {f : Body → Noted Body} {g : Body → Body} {warnings : List Warning}
    (hf : f inner = ⟨g inner, warnings⟩) :
    body.inBody index f = ⟨body.modify index (Definition.mapBody g), warnings⟩ := by
  have hmodify : body.modify index (Definition.mapBody fun _ => g inner)
      = body.modify index (Definition.mapBody g) :=
    modify_congr fun other hother => by
      cases hother.symm.trans hd
      cases found <;> simp [Definition.body?] at hinner <;> subst hinner <;> rfl
  simp only [inBody, hd, hinner, Option.bind_some, hf, ← hmodify]
  simp [bind, pure]

end Body

/-! ### What an edit changes -/

/-- What an edit does to a class or an object: it opens it, and changes it. -/
structure Revision where
  /-- What is opened if there is nothing. -/
  fresh : Definition
  change : Definition → Definition

namespace Edit

/-- The revision that an edit makes, unless it enters something into the body itself. -/
def revision? : Edit → Option Revision
  | .here _ => none
  | .onClass name change => some ⟨.class (.named name none), Definition.mapClass change.apply⟩
  | .object name => some ⟨.object (.named name none), id⟩
  | .inObject name entry =>
    some ⟨.object (.named name none), Definition.mapBody fun inner => inner.enter entry⟩

end Edit

namespace Body

/-- To enter something changes no view under a label of containers. -/
theorem view_enter (body : Body) (entry : Entry) {label : Label}
    (hlabel : label.kind.isLeaf = false) : (body.enter entry).view label = body.view label := by
  have hpush : ∀ (definitions : List Definition) (before : Body),
      (∀ definition ∈ definitions, definition.isContainer = false) →
      (definitions.foldl push before).view label = before.view label := by
    intro definitions
    induction definitions with
    | nil => exact fun _ _ => rfl
    | cons definition rest ih =>
      intro before hleaves
      have hne : definition.label ≠ label := by
        rintro rfl
        have hleaf := hleaves definition (by simp)
        cases definition <;> simp [Definition.isContainer, Definition.body?] at hleaf <;>
          cases hlabel
      rw [List.foldl_cons, ih _ fun other hother => hleaves other (by simp [hother]), view_push,
        if_neg hne, Option.or_none]
  have hall := hpush (entry.definitions body.makeUpName.1) body
    fun definition hd => Entry.isContainer_of_mem_definitions hd
  rw [show (entry.definitions body.makeUpName.1).foldl push body = _ from
    foldl_push id _ body, List.map_id] at hall
  exact hall

/-- What an edit does to the views under labels of containers: it changes the one under its own
label, and no other. -/
theorem view_apply (body : Body) (edit : Edit) {label : Label}
    (hlabel : label.kind.isLeaf = false) :
    (edit.apply body).view label = match edit.revision? with
      | none => body.view label
      | some revision =>
        if label = revision.fresh.label
        then some (revision.change ((body.view label).getD revision.fresh))
        else body.view label := by
  cases edit with
  | here entry => exact body.view_enter entry hlabel
  | onClass name change =>
    refine (body.opens_openClass name).view_modify (Edit.label_mapClass change)
      (fun definition => ?_) label
    cases definition <;> simp [Definition.mapClass, Definition.unlinked]
    cases change <;> rfl
  | object name => exact (body.opens_openObject name).view label
  | inObject name entry =>
    refine (body.opens_openObject name).view_modify (Edit.label_mapBody _)
      (fun definition => ?_) label
    cases definition <;> rfl

/-- An edit leaves every view but the one under its own label. -/
theorem view_of_ne {edit : Edit} {label : Label} (hlabel : label.kind.isLeaf = false)
    (h : ∀ revision, edit.revision? = some revision → revision.fresh.label ≠ label) (body : Body) :
    (edit.apply body).view label = body.view label := by
  rw [body.view_apply edit hlabel]
  cases hrevision : edit.revision? with
  | none => rfl
  | some revision => exact if_neg (h revision hrevision).symm

/-- Only an edit of the class of a name shows in its view. -/
theorem view_class_of_ne {edit : Edit} {name : Identifier}
    (h : ∀ change, edit ≠ .onClass name change) (body : Body) :
    (edit.apply body).view ⟨.class, some name⟩ = body.view ⟨.class, some name⟩ := by
  refine view_of_ne rfl (fun revision hrevision heq => ?_) body
  cases edit with
  | here entry => cases hrevision
  | onClass other change =>
    cases hrevision
    cases congrArg Label.name heq
    exact h change rfl
  | object other | inObject other entry =>
    cases hrevision
    cases congrArg Label.kind heq

/-- Under the label of the class that it changes, an edit shows what the change makes of the class
that was there, or of a new one. -/
theorem view_onClass (body : Body) (name : Identifier) (change : ClassChange) :
    ∃ found : ClassDefinition,
      ((Edit.onClass name change).apply body).view ⟨.class, some name⟩
          = some (.class (change.apply found))
        ∧ (body.view ⟨.class, some name⟩ = some (.class found)
          ∨ body.view ⟨.class, some name⟩ = none ∧ found = .named name none) := by
  have hview : ((Edit.onClass name change).apply body).view ⟨.class, some name⟩
      = some (((body.view ⟨.class, some name⟩).getD (.class (.named name none))).mapClass
        change.apply) := by
    rw [view_apply _ _ rfl]
    exact if_pos rfl
  cases hbefore : body.view ⟨.class, some name⟩ with
  | none =>
    rw [hbefore] at hview
    exact ⟨.named name none, hview, .inr ⟨rfl, rfl⟩⟩
  | some definition =>
    obtain ⟨found, rfl⟩ := class_of_view hbefore
    rw [hbefore] at hview
    exact ⟨found, hview, .inl rfl⟩

end Body

end Facade
