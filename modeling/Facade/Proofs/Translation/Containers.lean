import Facade.Proofs.Translation.Reach

/-!
# The containers of a facade

A facade is a tree, and each container in it, the root and every package, class and object below it,
has a body of its own. `Body.Contains` runs through all of them. In each of these bodies the
companions are linked as `Body.WellLinked` says, and a class or an object holds comments, fields and
methods only, so that classes and objects are the last containers of their branches.

The invariant is `Body.Sound`. It is about the body and the bodies of its packages, as deep as they
go; a class or an object needs no more than `Definition.isShallow`, because what has no containers
has no links. Each of the steps of `Body.Reaches` keeps it (`sound_edit`, `sound_fillPackage`), and
an empty body has it, so every facade has it.
-/

set_option autoImplicit false

namespace Facade

/-! ### Leaves -/

namespace Definition

/-- Whether the definition is no class or object that holds others which hold others again. -/
def isShallow : Definition → Bool
  | .class definition => definition.body.items.all fun inner => !inner.isContainer
  | .object definition => definition.body.items.all fun inner => !inner.isContainer
  | _ => true

/-- What holds no others is a comment, a field or a method. -/
theorem kind_of_not_container {definition : Definition} (h : definition.isContainer = false) :
    definition.kind = .comment ∨ definition.kind = .field ∨ definition.kind = .method := by
  cases definition <;> simp [isContainer, body?] at h <;> simp [kind]

/-- Its link says nothing of what a definition holds. -/
theorem isShallow_linkedTo (index : Nat) (definition : Definition) :
    (definition.linkedTo index).isShallow = definition.isShallow := by
  cases definition <;> rfl

end Definition

namespace Body

/-- What stands in a body without containers is none. -/
theorem not_container_of_get? {body : Body}
    (h : body.items.all (fun definition => !definition.isContainer) = true) {i : Nat}
    {definition : Definition} (hd : body.get? i = some definition) :
    definition.isContainer = false := by
  simpa using List.all_eq_true.mp h definition (List.mem_of_getElem? hd)

/-- Where nothing holds others, nothing has to be linked. -/
theorem linked_of_leaves {body : Body}
    (h : body.items.all (fun definition => !definition.isContainer) = true) : body.Linked := by
  refine ⟨fun i j first second hi _ hc _ => ?_, fun i definition hi => ?_⟩
  · rw [not_container_of_get? h hi] at hc
    cases hc
  · have hnot := not_container_of_get? h hi
    rw [partner?_of_not_container hnot]
    cases definition <;> simp [Definition.isContainer, Definition.body?] at hnot <;> rfl

/-- Behind an entry there are no more containers than before. -/
theorem isShallow_enter (body : Body) (entry : Entry)
    (h : body.items.all (fun definition => !definition.isContainer) = true) :
    (body.enter entry).items.all (fun definition => !definition.isContainer) = true := by
  rw [enter, List.all_append, h, Bool.true_and, List.all_eq_true]
  intro definition hd
  rw [Entry.isContainer_of_mem_definitions hd]
  rfl

/-! ### Sound bodies -/

/-- The body is linked, its classes and objects hold leaves only, and the bodies of its packages are
sound in turn. -/
inductive Sound : Body → Prop where
  | intro {body : Body} (linked : body.Linked)
      (shallow : ∀ i definition, body.get? i = some definition → definition.isShallow = true)
      (packages : ∀ i definition, body.get? i = some (.package definition) →
        Sound definition.body) : Sound body

/-- A sound body is linked. -/
theorem Sound.linked {body : Body} (h : body.Sound) : body.Linked := by
  cases h
  assumption

/-- What stands in a sound body is shallow. -/
theorem Sound.shallow {body : Body} (h : body.Sound) {i : Nat} {definition : Definition}
    (hd : body.get? i = some definition) : definition.isShallow = true := by
  cases h with
  | intro _ shallow _ => exact shallow i definition hd

/-- The packages of a sound body are sound. -/
theorem Sound.package {body : Body} (h : body.Sound) {i : Nat} {definition : Package}
    (hd : body.get? i = some (.package definition)) : definition.body.Sound := by
  cases h with
  | intro _ _ packages => exact packages i definition hd

/-- An empty body is sound. -/
theorem sound_empty : Body.empty.Sound :=
  .intro linked_empty (fun i definition hi => by simp [get?, Body.empty] at hi)
    (fun i definition hi => by simp [get?, Body.empty] at hi)

/-! ### What keeps a body sound -/

/-- A body stays sound when a leaf is put at its end. -/
theorem sound_push {body : Body} {definition : Definition} (h : body.Sound)
    (hleaf : definition.isContainer = false) : (body.push definition).Sound := by
  have hshallow : definition.isShallow = true := by
    cases definition <;> first | rfl | simp [Definition.isContainer, Definition.body?] at hleaf
  refine .intro (linked_push h.linked hleaf) (fun i found hi => ?_) (fun i found hi => ?_)
  · rw [get?_push] at hi
    split at hi
    · cases hi
      exact hshallow
    · exact h.shallow hi
  · rw [get?_push] at hi
    split at hi
    · cases hi
      simp [Definition.isContainer, Definition.body?] at hleaf
    · exact h.package hi

/-- To enter something is to push the definitions of the entry, and to count a made-up name. -/
theorem sound_enter {body : Body} (h : body.Sound) (entry : Entry) :
    (body.enter entry).Sound := by
  have hpush : ∀ (definitions : List Definition) (before : Body), before.Sound →
      (∀ definition ∈ definitions, definition.isContainer = false) →
      (definitions.foldl push before).Sound := by
    intro definitions
    induction definitions with
    | nil => exact fun _ hbefore _ => hbefore
    | cons definition rest ih =>
      intro before hbefore hleaves
      exact ih _ (sound_push hbefore (hleaves definition (by simp)))
        fun other hother => hleaves other (by simp [hother])
  have hall := hpush (entry.definitions body.makeUpName.1) body h
    fun definition hd => Entry.isContainer_of_mem_definitions hd
  rw [show (entry.definitions body.makeUpName.1).foldl push body = _ from
    foldl_push id _ body, List.map_id] at hall
  exact .intro (hall.linked.of_items_eq rfl) (fun _ _ hi => hall.shallow hi)
    (fun _ _ hi => hall.package hi)

/-- A new container with nothing in it may be admitted. -/
theorem sound_enrol {body : Body} {definition : Definition} (h : body.Sound)
    (hnew : body.indexOf? definition.label = none)
    (hlink : definition.link? = definition.label.partner?.bind body.indexOf?)
    (hempty : definition.body? = some .empty) : (body.enrol definition).Sound := by
  refine .intro (linked_enrol h.linked hnew hlink) (fun i found hi => ?_) (fun i found hi => ?_)
  · rcases get?_enrol hi with ⟨-, rfl⟩ | ⟨old, ho, -, rfl⟩ | ⟨ho, -⟩
    · cases found <;> simp [Definition.body?] at hempty <;>
        simp [Definition.isShallow, hempty, Body.empty]
    · rw [Definition.isShallow_linkedTo]
      exact h.shallow ho
    · exact h.shallow ho
  · rcases get?_enrol hi with ⟨-, rfl⟩ | ⟨old, ho, -, hfound⟩ | ⟨ho, -⟩
    · rw [show found.body = .empty from Option.some.inj hempty]
      exact sound_empty
    · cases old <;> simp [Definition.linkedTo] at hfound
      subst hfound
      exact h.package ho
    · exact h.package ho

/-- A body stays sound when a container is opened. -/
theorem Opens.sound {body : Body} {fresh : Definition} {opened : Nat × Body}
    (h : body.Opens fresh opened) (hb : body.Sound) : opened.2.Sound := by
  cases h with
  | found _ => exact hb
  | added _ hempty hnew hlink => exact sound_enrol hb hnew hlink hempty

/-- A definition may be changed in place if its label and its link stay, if it is as shallow as
before, and if it is no package with another body that is not sound. -/
theorem sound_modify {body : Body} {index : Nat} {f : Definition → Definition} (h : body.Sound)
    (hlabel : ∀ definition, body.get? index = some definition →
      (f definition).label = definition.label ∧ (f definition).link? = definition.link?)
    (hshallow : ∀ definition, definition.isShallow = true → (f definition).isShallow = true)
    (hpackage : ∀ definition package, body.get? index = some definition →
      f definition = .package package → package.body.Sound) :
    (body.modify index f).Sound := by
  refine .intro (linked_modify h.linked hlabel) (fun i found hi => ?_) (fun i found hi => ?_)
  · rw [get?_modify] at hi
    split at hi
    · obtain ⟨old, hold, rfl⟩ := Option.map_eq_some_iff.mp hi
      exact hshallow old (h.shallow hold)
    · exact h.shallow hi
  · rw [get?_modify] at hi
    split at hi
    · rename_i heq
      subst heq
      obtain ⟨old, hold, hf⟩ := Option.map_eq_some_iff.mp hi
      exact hpackage old found hold hf
    · exact h.package hi

/-- A body stays sound when a class is changed. -/
theorem sound_onClass {body : Body} (h : body.Sound) (name : Identifier) (change : ClassChange) :
    ((Edit.onClass name change).apply body).Sound := by
  refine sound_modify ((body.opens_openClass name).sound h) (fun definition _ => ?_)
    (fun definition hs => ?_)
    (fun definition package hd hf => ?_)
  · refine ⟨Edit.label_mapClass change definition, ?_⟩
    cases definition <;> simp [Definition.mapClass, Definition.link?]
  · cases definition with
    | «class» definition =>
      rcases change.body_apply definition with hbody | ⟨entry, hbody⟩
      · simpa [Definition.mapClass, Definition.isShallow, hbody] using hs
      · simpa [Definition.mapClass, Definition.isShallow, hbody] using
          isShallow_enter definition.body entry hs
    | _ => exact hs
  · cases hd.symm.trans (get?_of_class? (body.openClass_class? name))
    cases hf

/-- A body stays sound when something is entered into an object. -/
theorem sound_inObject {body : Body} (h : body.Sound) (name : Identifier) (entry : Entry) :
    ((Edit.inObject name entry).apply body).Sound := by
  refine sound_modify ((body.opens_openObject name).sound h) (fun definition _ => ?_)
    (fun definition hs => ?_)
    (fun definition package hd hf => ?_)
  · refine ⟨Edit.label_mapBody _ definition, ?_⟩
    cases definition <;> rfl
  · cases definition with
    | «class» definition => exact isShallow_enter definition.body entry hs
    | object definition => exact isShallow_enter definition.body entry hs
    | _ => exact hs
  · cases hd.symm.trans (get?_of_object? (body.openObject_object? name))
    cases hf

/-- A body stays sound under every edit. -/
theorem sound_edit {body : Body} (h : body.Sound) (edit : Edit) : (edit.apply body).Sound := by
  cases edit with
  | here entry => exact sound_enter h entry
  | onClass name change => exact sound_onClass h name change
  | object name => exact (body.opens_openObject name).sound h
  | inObject name entry => exact sound_inObject h name entry

/-- A package that is there or that is new is sound. -/
theorem sound_packageOrNew {body : Body} (h : body.Sound) (name : Identifier) :
    (body.packageOrNew name).body.Sound :=
  ((body.opens_openPackage name).sound h).package
    (get?_of_package? (body.openPackage_package? name))

/-- A body stays sound when a package is filled with a sound body. -/
theorem sound_fillPackage {body inner : Body} (h : body.Sound) (hinner : inner.Sound)
    (name : Identifier) (isNamespace : Bool) : (body.fillPackage name isNamespace inner).Sound := by
  refine sound_modify ((body.opens_openPackage name).sound h) (fun definition _ => ?_)
    (fun definition hs => ?_) (fun definition package hd hf => ?_)
  · refine ⟨label_mapPackage (by simp) definition, ?_⟩
    cases definition <;> rfl
  · cases definition with
    | package definition => rfl
    | _ => exact hs
  · cases hd.symm.trans (get?_of_package? (body.openPackage_package? name))
    cases hf
    exact hinner

/-- No step of the translation breaks a sound body. -/
theorem Reaches.sound {allowed : Edit → Prop} {before after : Body}
    (h : before.Reaches allowed after) (hb : before.Sound) : after.Sound := by
  induction h with
  | refl => exact hb
  | edit _ _ ih => exact sound_edit (ih hb) _
  | package name isNamespace _ _ ih ihinner =>
    exact sound_fillPackage (ih hb) (ihinner (sound_packageOrNew (ih hb) name)) name isNamespace

/-! ### All containers of a facade -/

/-- The second body is the first, or that of a container inside it, however deep. -/
inductive Contains : Body → Body → Prop where
  | self (body : Body) : Contains body body
  | inside {outer inner container : Body} {definition : Definition} :
      definition ∈ outer.items → definition.body? = some inner → Contains inner container →
      Contains outer container

/-- Classes and objects hold comments, fields and methods, and nothing else. -/
def HoldsLeaves (body : Body) : Prop :=
  ∀ definition ∈ body.items, definition.kind = .class ∨ definition.kind = .object →
    ∀ inner, definition.body? = some inner → ∀ leaf ∈ inner.items,
      leaf.kind = .comment ∨ leaf.kind = .field ∨ leaf.kind = .method

/-- In a sound body, classes and objects hold leaves. -/
theorem Sound.holdsLeaves {body : Body} (h : body.Sound) : body.HoldsLeaves := by
  intro definition hd hkind inner hinner leaf hleaf
  obtain ⟨i, hi⟩ := List.getElem?_of_mem hd
  -- Only leaves stand in classes and objects.
  have hshallow := h.shallow hi
  refine Definition.kind_of_not_container ?_
  cases definition <;> simp [Definition.kind] at hkind <;> simp [Definition.body?] at hinner <;>
    subst hinner <;> simp [Definition.isShallow] at hshallow <;> exact hshallow leaf hleaf

/-- A body of leaves is sound: there is nothing in it that could be wrong. -/
theorem sound_of_leaves {body : Body}
    (h : body.items.all (fun definition => !definition.isContainer) = true) : body.Sound := by
  refine .intro (linked_of_leaves h) (fun i definition hi => ?_) (fun i definition hi => ?_)
  · have hnot := not_container_of_get? h hi
    cases definition <;> first | rfl | simp [Definition.isContainer, Definition.body?] at hnot
  · have hnot := not_container_of_get? h hi
    simp [Definition.isContainer, Definition.body?] at hnot

/-- Every container inside a sound body is sound. -/
theorem Contains.sound {outer container : Body} (hc : outer.Contains container)
    (h : outer.Sound) : container.Sound := by
  induction hc with
  | self => exact h
  | @inside outer inner container definition hd hinner _ ih =>
    refine ih ?_
    obtain ⟨i, hi⟩ := List.getElem?_of_mem hd
    cases definition <;> simp [Definition.body?] at hinner <;> subst hinner
    · exact h.package hi
    · exact sound_of_leaves (h.shallow hi)
    · exact sound_of_leaves (h.shallow hi)

end Body

/-- An empty body is sound, so every facade is. -/
theorem Document.sound_toPackage (document : Document) (path : DottedName) :
    (document.toPackage path).value.body.Sound :=
  (document.reaches_toPackage path).sound Body.sound_empty

/-! ### Indices during a translation -/

/-- Constructors leave the name of a class. -/
theorem ClassDefinition.name_addConstructors (definition : ClassDefinition)
    (signature : Signature) :
    (definition.addConstructors signature).value.name = definition.name := by
  rw [addConstructors_eq]
  rfl

namespace Body

/-- A change inside a definition moves nothing around it. -/
theorem grows_inBody (body : Body) (index : Nat) (f : Body → Noted Body) :
    body.Grows (body.inBody index f).value := by
  unfold inBody
  split
  · exact .refl body
  · exact grows_modify fun definition _ => Edit.label_mapBody _ definition

/-- Nor does a change of a class that leaves its name. -/
theorem grows_inClass {body : Body} {index : Nat}
    {f : ClassDefinition → Noted ClassDefinition}
    (hf : ∀ definition, (f definition).value.name = definition.name) :
    body.Grows (body.inClass index f).value := by
  unfold inClass
  split
  · exact .refl body
  · rename_i definition hd
    refine grows_modify fun found hfound => ?_
    cases hfound.symm.trans (get?_of_class? hd)
    simp [Definition.mapClass, Definition.label, Definition.kind, Definition.name?, hf]

/-- Nor do constructors of the class that an object is the companion of. -/
theorem grows_addCompanionConstructors? {body after : Body} {warnings : List Warning}
    {name : Identifier} {signature : Signature} {later : List Declaration}
    (h : body.addCompanionConstructors? name signature later = some ⟨after, warnings⟩) :
    body.Grows after := by
  unfold addCompanionConstructors? at h
  simp only at h
  split at h
  · have hname : ∀ definition : ClassDefinition, ((({ definition with
        typeParameters := if definition.typeParameters.isEmpty then body.headerOf name later
          else definition.typeParameters } : ClassDefinition).addHeader [] []).addConstructors
          signature).value.name = definition.name :=
      fun _ => ClassDefinition.name_addConstructors _ signature
    rw [show after = _ from (congrArg Noted.value (Option.some.inj h)).symm]
    exact (body.opens_openClass name).grows.trans (grows_inClass hname)
  · cases h

end Body

/-- A member moves nothing, whatever body it is added to and whatever stands at the index of its
holder. -/
theorem Member.grows_addTo (holder : Holder) (owner : Nat) (later : List Declaration)
    (member : Member) (body : Body) :
    body.Grows (member.addTo holder owner later body).value := by
  cases member with
  | call signature => exact body.grows_inBody owner _
  | construct signature =>
    cases holder with
    -- The constructors go to the companion if they construct it, and else the signature stays here.
    | ofObject =>
      rw [addTo]
      split
      · rename_i definition hd
        cases hadded : body.addCompanionConstructors? definition.name signature later with
        | none => exact body.grows_inBody owner _
        | some added => exact Body.grows_addCompanionConstructors? hadded
      · exact body.grows_inBody owner _
    | ofInterface => exact body.grows_inBody owner _
    | ofClass =>
      exact Body.grows_inClass (ClassDefinition.name_addConstructors · signature)
  | index parameter type => exact body.grows_inBody owner _
  | property word optional type =>
    rw [addTo]
    split
    · exact .refl body
    · exact body.grows_inBody owner _
  | method word optional signature =>
    rw [addTo]
    split
    · exact Body.grows_inClass (ClassDefinition.name_addConstructors · signature)
    · exact body.grows_inBody owner _
  | static inner =>
    rw [addTo]
    split
    · split
      · exact .refl body
      -- A static member may open the companion, which is added behind everything else.
      · rename_i name _
        exact (body.opens_openObject name).grows.trans (inner.grows_addTo .ofObject _ later _)
    · exact inner.grows_addTo holder owner later body

/-! ### The invariant of facades -/

/-- In every container of every facade, and in every body that operations make of an empty one, the
names of packages, classes and objects are unique and companions are linked. Classes and objects of
a facade hold comments, fields and methods only. An index that an operation has answered with leads
to what was asked for ever after, and what stands in a body keeps its index, its kind and its name
while members and declarations are added. -/
theorem containers_wellLinked :
    (∀ (document : Document) (path : DottedName) (container : Body),
      (document.toPackage path).value.body.Contains container →
        container.WellLinked ∧ container.HoldsLeaves)
    ∧ (∀ operations : List Operation, (Operation.run operations .empty).WellLinked)
    ∧ (∀ (before : List Operation) (operation : Operation) (label : Label),
      operation.label? = some label → ∀ later : List Operation,
        ∃ index definition,
          (Operation.apply (Operation.run before .empty) operation).1 = some index
          ∧ (Operation.run later
              (Operation.apply (Operation.run before .empty) operation).2).get? index
            = some definition
          ∧ definition.label = label)
    ∧ (∀ (body : Body) (index : Nat) (definition : Definition),
      body.get? index = some definition →
        (∀ declarations : List Declaration,
          ∃ now, (addDeclarations declarations body).value.get? index = some now
            ∧ now.label = definition.label)
        ∧ ∀ (holder : Holder) (owner : Nat) (later : List Declaration) (member : Member),
          ∃ now, (member.addTo holder owner later body).value.get? index = some now
            ∧ now.label = definition.label) := by
  refine ⟨fun document path container hc => ?_, fun operations => ?_,
    fun before operation label h later => ?_, fun body index definition hd => ⟨?_, ?_⟩⟩
  · have hsound := hc.sound (document.sound_toPackage path)
    exact ⟨hsound.linked.wellLinked, hsound.holdsLeaves⟩
  · exact (Operation.linked_run Body.linked_empty operations).wellLinked
  · exact Operation.get?_run_apply (Operation.run before .empty) h later
  · exact fun declarations => (reaches_addDeclarations declarations body).grows.get? hd
  · exact fun holder owner later member => (member.grows_addTo holder owner later body).get? hd

/-- A variable and an interface of one name in a package of the output path: the body of that
package is a container, and its object and its class know each other. -/
theorem containers_wellLinked_pair :
    ∃ container : Body,
      (Document.toPackage ⟨[.variable "A" (some (.object [])), .interface "A" [] [] []], []⟩
        ⟨[⟨"p"⟩]⟩).value.body.Contains container
      ∧ container.labels = [⟨.object, some ⟨"A"⟩⟩, ⟨.class, some ⟨"A"⟩⟩]
      ∧ container.WellLinked ∧ container.HoldsLeaves
      ∧ (∃ index definition,
          (Operation.apply (Operation.run [.openClass ⟨"A"⟩] .empty) (.openObject ⟨"A"⟩)).1
              = some index
            ∧ (Operation.run [.makeUpName]
                (Operation.apply (Operation.run [.openClass ⟨"A"⟩] .empty)
                  (.openObject ⟨"A"⟩)).2).get? index = some definition
            ∧ definition.label = ⟨.object, some ⟨"A"⟩⟩)
      ∧ (∃ now, (addDeclarations [.interface "A" [] [] []] container).value.get? 0 = some now
          ∧ now.label = ⟨.object, some ⟨"A"⟩⟩) := by
  have hcontains : (Document.toPackage
      ⟨[.variable "A" (some (.object [])), .interface "A" [] [] []], []⟩
      ⟨[⟨"p"⟩]⟩).value.body.Contains _ :=
    .inside (List.mem_singleton.mpr rfl) rfl (.self _)
  refine ⟨_, hcontains, rfl, (containers_wellLinked.1 _ _ _ hcontains).1,
    (containers_wellLinked.1 _ _ _ hcontains).2, ?_, ?_⟩
  · exact containers_wellLinked.2.2.1 [.openClass ⟨"A"⟩] (.openObject ⟨"A"⟩) _ rfl [.makeUpName]
  · exact (containers_wellLinked.2.2.2 _ 0 (.object ⟨⟨"A"⟩, some 1, .empty⟩) rfl).1 _

end Facade
