import Facade.Proofs.Definition.Labels

/-!
# Companions find each other

Within one body, a name stands for one package, one class and one object at most, and the class
and the object of a name link to each other. `Body.WellLinked` says this in the words of the
links; `Body.Linked` says the same in a form that an induction carries: no two containers share
a label, and every link is what a search for the partner's label answers.

The operations that a body offers are `Operation`. None of them breaks `Linked`
(`linked_apply`), because all that opens a class or an object is `enrol`, whose step is
`linked_enrol`: the search for the new label changes from nothing to the new index, and the one
definition that asked for it is the one that `enrol` sets. Changing a definition in place keeps
`Linked` as long as label and link stay (`linked_modify`); this is what the translation does with
the contents of classes and objects.

That an index stays good for ever is a statement about labels alone: the labels before an
operation are a leading part of the labels after it (`Body.Grows`).
-/

set_option autoImplicit false

namespace Facade

namespace Body

/-- No label of a container stands twice, and each link is where the partner is found. -/
structure Linked (body : Body) : Prop where
  unique : ∀ i j first second, body.get? i = some first → body.get? j = some second →
    first.isContainer = true → first.label = second.label → i = j
  link : ∀ i definition, body.get? i = some definition →
    definition.link? = definition.label.partner?.bind body.indexOf?

/-- The names and links of one body, as its users see them. -/
structure WellLinked (body : Body) : Prop where
  package_unique : ∀ i j first second, body.get? i = some (.package first) →
    body.get? j = some (.package second) → first.name = second.name → i = j
  class_unique : ∀ i j first second, body.class? i = some first → body.class? j = some second →
    first.name = second.name → i = j
  object_unique : ∀ i j first second, body.object? i = some first →
    body.object? j = some second → first.name = second.name → i = j
  paired : ∀ i j classAt objectAt, body.class? i = some classAt →
    body.object? j = some objectAt → classAt.name = objectAt.name →
    classAt.companion = some j ∧ objectAt.companion = some i
  class_link : ∀ i j classAt, body.class? i = some classAt → classAt.companion = some j →
    ∃ objectAt, body.object? j = some objectAt ∧ objectAt.name = classAt.name
      ∧ objectAt.companion = some i
  object_link : ∀ j i objectAt, body.object? j = some objectAt → objectAt.companion = some i →
    ∃ classAt, body.class? i = some classAt ∧ classAt.name = objectAt.name
      ∧ classAt.companion = some j
  class_alone : ∀ i classAt, body.class? i = some classAt →
    (∀ j objectAt, body.object? j = some objectAt → objectAt.name ≠ classAt.name) →
    classAt.companion = none
  object_alone : ∀ j objectAt, body.object? j = some objectAt →
    (∀ i classAt, body.class? i = some classAt → classAt.name ≠ objectAt.name) →
    objectAt.companion = none

/-- The labels of a body are still there, at their indices. -/
def Grows (before after : Body) : Prop :=
  before.labels <+: after.labels

/-! ### From searches to links -/

/-- Where a class is found, it stands. -/
theorem get?_of_class? {body : Body} {index : Nat} {definition : ClassDefinition}
    (h : body.class? index = some definition) : body.get? index = some (.class definition) := by
  unfold class? at h
  split at h
  · rename_i hd
    cases h
    exact hd
  · cases h

/-- Where an object is found, it stands. -/
theorem get?_of_object? {body : Body} {index : Nat} {definition : ObjectDefinition}
    (h : body.object? index = some definition) : body.get? index = some (.object definition) := by
  unfold object? at h
  split at h
  · rename_i hd
    cases h
    exact hd
  · cases h

/-- The search for the label of a class finds a class of that name. -/
theorem class?_of_indexOf? {body : Body} {name : Identifier} {index : Nat}
    (h : body.indexOf? ⟨.class, some name⟩ = some index) :
    ∃ definition, body.class? index = some definition ∧ definition.name = name := by
  obtain ⟨definition, hd, hl⟩ := get?_of_indexOf? h
  cases definition with
  | «class» definition =>
    refine ⟨definition, by simp [class?, hd], ?_⟩
    simpa [Definition.label, Definition.kind, Definition.name?] using hl
  | _ => simp [Definition.label, Definition.kind] at hl

/-- Where the search for the label of an object leads, the object of that name is found. -/
theorem object?_of_indexOf? {body : Body} {name : Identifier} {index : Nat}
    (h : body.indexOf? ⟨.object, some name⟩ = some index) :
    ∃ definition, body.object? index = some definition ∧ definition.name = name := by
  obtain ⟨definition, hd, hl⟩ := get?_of_indexOf? h
  cases definition with
  | object definition =>
    refine ⟨definition, by simp [object?, hd], ?_⟩
    simpa [Definition.label, Definition.kind, Definition.name?] using hl
  | _ => simp [Definition.label, Definition.kind] at hl

namespace Linked

variable {body : Body}

/-- Where labels of containers do not repeat, the search for one answers with its index. -/
theorem indexOf?_label (h : body.Linked) {index : Nat} {definition : Definition}
    (hd : body.get? index = some definition) (hc : definition.isContainer = true) :
    body.indexOf? definition.label = some index :=
  indexOf?_eq_some hd fun other _ ht hl => (h.unique index other _ _ hd ht hc hl.symm).symm

/-- The link of a class leads to where the search for the object of its name leads. -/
theorem class_companion (h : body.Linked) {index : Nat} {definition : ClassDefinition}
    (hd : body.class? index = some definition) :
    definition.companion = body.indexOf? ⟨.object, some definition.name⟩ :=
  h.link index _ (get?_of_class? hd)

/-- The link of an object leads to where the search for the class of its name leads. -/
theorem object_companion (h : body.Linked) {index : Nat} {definition : ObjectDefinition}
    (hd : body.object? index = some definition) :
    definition.companion = body.indexOf? ⟨.class, some definition.name⟩ :=
  h.link index _ (get?_of_object? hd)

/-- The search for a class leads to where it stands. -/
theorem indexOf?_class (h : body.Linked) {index : Nat} {definition : ClassDefinition}
    (hd : body.class? index = some definition) :
    body.indexOf? ⟨.class, some definition.name⟩ = some index :=
  h.indexOf?_label (get?_of_class? hd) rfl

/-- The search for an object leads to where it stands. -/
theorem indexOf?_object (h : body.Linked) {index : Nat} {definition : ObjectDefinition}
    (hd : body.object? index = some definition) :
    body.indexOf? ⟨.object, some definition.name⟩ = some index :=
  h.indexOf?_label (get?_of_object? hd) rfl

/-- A class and an object of one name link to each other. -/
theorem paired (h : body.Linked) {i j : Nat} {classAt : ClassDefinition}
    {objectAt : ObjectDefinition} (hc : body.class? i = some classAt)
    (ho : body.object? j = some objectAt) (hname : classAt.name = objectAt.name) :
    classAt.companion = some j ∧ objectAt.companion = some i := by
  rw [h.class_companion hc, h.object_companion ho, hname, h.indexOf?_object ho, ← hname,
    h.indexOf?_class hc]
  exact ⟨rfl, rfl⟩

/-- What the searches say is what users of the links rely on. -/
theorem wellLinked (h : body.Linked) : body.WellLinked where
  package_unique i j first second hi hj hname :=
    h.unique i j _ _ hi hj rfl
      (by simp [Definition.label, Definition.name?, Definition.kind, hname])
  class_unique i j first second hi hj hname := by
    have hfirst := h.indexOf?_class hi
    rw [hname, h.indexOf?_class hj] at hfirst
    exact (Option.some.inj hfirst).symm
  object_unique i j first second hi hj hname := by
    have hfirst := h.indexOf?_object hi
    rw [hname, h.indexOf?_object hj] at hfirst
    exact (Option.some.inj hfirst).symm
  paired i j classAt objectAt hc ho hname := h.paired hc ho hname
  -- A link is what the search for the other one of the name finds, and the pair links back.
  class_link i j classAt hc hlink := by
    rw [h.class_companion hc] at hlink
    obtain ⟨objectAt, ho, hname⟩ := object?_of_indexOf? hlink
    exact ⟨objectAt, ho, hname, (h.paired hc ho hname.symm).2⟩
  object_link j i objectAt ho hlink := by
    rw [h.object_companion ho] at hlink
    obtain ⟨classAt, hc, hname⟩ := class?_of_indexOf? hlink
    exact ⟨classAt, hc, hname, (h.paired hc ho hname).1⟩
  -- Without an object of the name, that search finds nothing.
  class_alone i classAt hc halone := by
    rw [h.class_companion hc]
    cases hfound : body.indexOf? ⟨.object, some classAt.name⟩ with
    | none => rfl
    | some j =>
      obtain ⟨objectAt, ho, hname⟩ := object?_of_indexOf? hfound
      exact absurd hname (halone j objectAt ho)
  object_alone j objectAt ho halone := by
    rw [h.object_companion ho]
    cases hfound : body.indexOf? ⟨.class, some objectAt.name⟩ with
    | none => rfl
    | some i =>
      obtain ⟨classAt, hc, hname⟩ := class?_of_indexOf? hfound
      exact absurd hname (halone i classAt hc)

end Linked

/-! ### What keeps a body linked -/

/-- An empty body is linked. -/
theorem linked_empty : Body.empty.Linked where
  unique i j first second hi := by simp [get?, Body.empty] at hi
  link i definition hi := by simp [get?, Body.empty] at hi

/-- Whether a body is linked is a matter of what it holds alone. -/
theorem Linked.of_items_eq {first second : Body} (h : first.Linked)
    (hitems : second.items = first.items) : second.Linked := by
  have hget : ∀ i, second.get? i = first.get? i := fun i => by rw [get?, get?, hitems]
  have hlabels : second.labels = first.labels := by rw [labels, labels, hitems]
  refine ⟨fun i j => ?_, fun i definition hd => ?_⟩
  · rw [hget, hget]
    exact h.unique i j
  · rw [funext fun label => indexOf?_of_labels_eq hlabels label]
    exact h.link i definition (hget i ▸ hd)

/-- A definition that holds no others has no partner. -/
theorem partner?_of_not_container {definition : Definition}
    (h : definition.isContainer = false) : definition.label.partner? = none := by
  cases definition <;> first | rfl | simp [Definition.isContainer, Definition.body?] at h

/-- A body stays linked when a leaf is put at its end. -/
theorem linked_push {body : Body} {definition : Definition} (h : body.Linked)
    (hleaf : definition.isContainer = false) : (body.push definition).Linked := by
  have hpartner := partner?_of_not_container hleaf
  -- The links are searches for classes and objects, and the new leaf is neither.
  have hindex : ∀ label : Label, label.kind = .class ∨ label.kind = .object →
      (body.push definition).indexOf? label = body.indexOf? label := by
    intro label hkind
    rw [indexOf?_push, if_neg, Option.or_none]
    rintro rfl
    cases definition <;> simp [Definition.label, Definition.kind] at hkind <;>
      simp [Definition.isContainer, Definition.body?] at hleaf
  refine ⟨fun i j first second hi hj hc hl => ?_, fun i other hi => ?_⟩
  · rw [get?_push] at hi hj
    split at hi
    · cases hi
      simp [hleaf] at hc
    · split at hj
      · cases hj
        simp [Definition.isContainer_of_label_eq hl, hleaf] at hc
      · exact h.unique i j first second hi hj hc hl
  · rw [get?_push] at hi
    split at hi
    · cases hi
      rw [hpartner]
      cases definition <;> first | rfl | simp [Definition.isContainer, Definition.body?] at hleaf
    · rw [h.link i other hi]
      cases hp : other.label.partner? with
      | none => rfl
      | some partner =>
        refine (hindex partner ?_).symm
        cases other <;> simp [Definition.label, Definition.kind, Label.partner?] at hp <;>
          subst hp <;> simp

/-- Changing a definition in place keeps a body linked if its label and its link stay. -/
theorem linked_modify {body : Body} {index : Nat} {f : Definition → Definition}
    (h : body.Linked) (hf : ∀ definition, body.get? index = some definition →
      (f definition).label = definition.label ∧ (f definition).link? = definition.link?) :
    (body.modify index f).Linked := by
  have hlabels := labels_modify fun definition hd => (hf definition hd).1
  -- Whatever stands in the changed body stands for an old one of the same label and link.
  have hback : ∀ i definition, (body.modify index f).get? i = some definition →
      ∃ old, body.get? i = some old ∧ definition.label = old.label
        ∧ definition.link? = old.link? := by
    intro i definition hi
    rw [get?_modify] at hi
    split at hi
    · rename_i heq
      subst heq
      obtain ⟨old, hold, rfl⟩ := Option.map_eq_some_iff.mp hi
      exact ⟨old, hold, hf old hold⟩
    · exact ⟨definition, hi, rfl, rfl⟩
  refine ⟨fun i j first second hi hj hc hl => ?_, fun i definition hi => ?_⟩
  · obtain ⟨old, hold, hlabel, -⟩ := hback i first hi
    obtain ⟨old', hold', hlabel', -⟩ := hback j second hj
    exact h.unique i j old old' hold hold'
      (Definition.isContainer_of_label_eq hlabel ▸ hc) (hlabel ▸ hlabel' ▸ hl)
  · obtain ⟨old, hold, hlabel, hlink⟩ := hback i definition hi
    rw [hlink, hlabel, funext fun label => indexOf?_of_labels_eq hlabels label]
    exact h.link i old hold

/-- Behind `enrol`, only the search for the new label has another answer. -/
theorem indexOf?_enrol {body : Body} {definition : Definition}
    (hnew : body.indexOf? definition.label = none) (label : Label) :
    (body.enrol definition).indexOf? label
      = if label = definition.label then some body.size else body.indexOf? label := by
  have hlabels : (body.enrol definition).labels = (body.push definition).labels := by simp
  rw [indexOf?_of_labels_eq hlabels, indexOf?_push]
  split
  · rename_i heq
    rw [if_pos heq.symm, ← heq, hnew, Option.none_or]
  · rename_i hne
    rw [if_neg (Ne.symm hne), Option.or_none]

/-- What stands where behind `enrol`: the new definition at the end, its partner with the new
link, and the others as they were. -/
theorem get?_enrol {body : Body} {definition : Definition} {i : Nat} {found : Definition}
    (h : (body.enrol definition).get? i = some found) :
    (i = body.size ∧ found = definition)
      ∨ (∃ old, body.get? i = some old ∧ definition.label.partner?.bind body.indexOf? = some i
          ∧ found = old.linkedTo body.size)
      ∨ (body.get? i = some found ∧ definition.label.partner?.bind body.indexOf? ≠ some i) := by
  unfold enrol at h
  cases hp : definition.label.partner?.bind body.indexOf? with
  | none =>
    -- Without a partner, the definition is only pushed.
    rw [hp, get?_push] at h
    split at h
    · exact .inl ⟨‹_›, (Option.some.inj h).symm⟩
    · exact .inr (.inr ⟨h, by simp⟩)
  | some partner =>
    simp only [hp, get?_modify, get?_push] at h
    obtain ⟨label, -, hlabel⟩ := Option.bind_eq_some_iff.mp hp
    obtain ⟨old, hold, -⟩ := get?_of_indexOf? hlabel
    have hlt := lt_size_of_get? hold
    split at h
    · rename_i heq
      subst heq
      rw [if_neg (Nat.ne_of_lt hlt)] at h
      obtain ⟨old, hold, rfl⟩ := Option.map_eq_some_iff.mp h
      exact .inr (.inl ⟨old, hold, rfl, rfl⟩)
    · rename_i hne
      split at h
      · exact .inl ⟨‹_›, (Option.some.inj h).symm⟩
      · exact .inr (.inr ⟨h, by simpa using hne⟩)

/-- A definition whose label is new, and whose link is where its partner is, may be added. -/
theorem linked_enrol {body : Body} {definition : Definition} (h : body.Linked)
    (hnew : body.indexOf? definition.label = none)
    (hlink : definition.link? = definition.label.partner?.bind body.indexOf?) :
    (body.enrol definition).Linked := by
  -- No definition of the body has the new label, so two equal labels are both old or both new.
  have hold : ∀ i found, (body.enrol definition).get? i = some found →
      (i = body.size ∧ found.label = definition.label)
        ∨ (∃ old, body.get? i = some old ∧ found.label = old.label
            ∧ old.label ≠ definition.label) := by
    intro i found hi
    rcases get?_enrol hi with ⟨heq, rfl⟩ | ⟨old, ho, -, rfl⟩ | ⟨ho, -⟩
    · exact .inl ⟨heq, rfl⟩
    · exact .inr ⟨old, ho, by simp, indexOf?_eq_none.mp hnew i old ho⟩
    · exact .inr ⟨found, ho, rfl, indexOf?_eq_none.mp hnew i found ho⟩
  refine ⟨fun i j first second hi hj hc hl => ?_, fun i found hi => ?_⟩
  · rcases hold i first hi with ⟨rfl, hfirst⟩ | ⟨old, ho, hfirst, hne⟩
    · rcases hold j second hj with ⟨rfl, -⟩ | ⟨old', -, hsecond, hne'⟩
      · rfl
      · exact absurd (hsecond.symm.trans (hl.symm.trans hfirst)) hne'
    · rcases hold j second hj with ⟨-, hsecond⟩ | ⟨old', ho', hsecond, -⟩
      · exact absurd (hfirst.symm.trans (hl.trans hsecond)) hne
      · exact h.unique i j old old' ho ho' (Definition.isContainer_of_label_eq hfirst ▸ hc)
          (hfirst ▸ hsecond ▸ hl)
  · rcases get?_enrol hi with ⟨-, rfl⟩ | ⟨old, ho, hpartner, rfl⟩ | ⟨ho, hpartner⟩
    -- The new definition: its partner's label is another one, so the search for it is unchanged.
    · rw [hlink]
      cases hp : found.label.partner? with
      | none => rfl
      | some partner =>
        rw [Option.bind_some, Option.bind_some, indexOf?_enrol hnew,
          if_neg (Label.ne_of_partner? hp)]
    -- The partner: the search for the new label now finds the new definition.
    · obtain ⟨label, hp, hlabel⟩ := Option.bind_eq_some_iff.mp hpartner
      obtain ⟨old', ho', hl⟩ := get?_of_indexOf? hlabel
      cases ho.symm.trans ho'
      have hback : old.label.partner? = some definition.label :=
        hl ▸ Label.partner?_eq_some hp
      rw [Definition.link?_linkedTo hback, Definition.label_linkedTo, hback, Option.bind_some,
        indexOf?_enrol hnew, if_pos rfl]
    -- Any other definition does not ask for the new label, or it would be the partner.
    · rw [h.link i found ho]
      cases hp : found.label.partner? with
      | none => rfl
      | some partner =>
        rw [Option.bind_some, Option.bind_some, indexOf?_enrol hnew, if_neg]
        rintro rfl
        have hback := Label.partner?_eq_some hp
        have hcontainer : found.isContainer = true := by
          cases found <;> first
            | rfl
            | simp [Definition.label, Definition.kind, Label.partner?] at hp
        exact hpartner (by rw [hback, Option.bind_some, h.indexOf?_label ho hcontainer])

/-- A body stays linked when a container is opened. -/
theorem Opens.linked {body : Body} {fresh : Definition} {opened : Nat × Body}
    (h : body.Opens fresh opened) (hb : body.Linked) : opened.2.Linked := by
  cases h with
  | found _ => exact hb
  | added _ _ hnew hlink => exact linked_enrol hb hnew hlink

/-! ### Indices stay good -/

/-- A body has grown from itself. -/
theorem Grows.refl (body : Body) : body.Grows body :=
  List.prefix_refl _

/-- A body that has grown twice has grown. -/
theorem Grows.trans {first second third : Body} (h : first.Grows second)
    (h' : second.Grows third) : first.Grows third :=
  List.IsPrefix.trans h h'

/-- What stood at an index still does, by its label. -/
theorem Grows.get? {before after : Body} (h : before.Grows after) {index : Nat}
    {definition : Definition} (hd : before.get? index = some definition) :
    ∃ now, after.get? index = some now ∧ now.label = definition.label := by
  obtain ⟨more, hmore⟩ := h
  have hlabel : after.labels[index]? = some definition.label := by
    have hlt : index < before.labels.length := by
      rw [length_labels]
      exact lt_size_of_get? hd
    rw [← hmore, List.getElem?_append_left hlt, getElem?_labels, hd, Option.map_some]
  rw [getElem?_labels] at hlabel
  exact Option.map_eq_some_iff.mp hlabel

/-- What is put at the end moves nothing. -/
theorem grows_push (body : Body) (definition : Definition) :
    body.Grows (body.push definition) := by
  simp [Grows]

/-- A change that leaves the label of a definition moves nothing. -/
theorem grows_modify {body : Body} {index : Nat} {f : Definition → Definition}
    (hf : ∀ definition, body.get? index = some definition →
      (f definition).label = definition.label) : body.Grows (body.modify index f) :=
  ⟨[], by rw [List.append_nil, labels_modify hf]⟩

/-- To enrol a definition moves nothing. -/
theorem grows_enrol (body : Body) (definition : Definition) :
    body.Grows (body.enrol definition) := by
  simp [Grows]

/-- To open a container moves nothing. -/
theorem Opens.grows {body : Body} {fresh : Definition} {opened : Nat × Body}
    (h : body.Opens fresh opened) : body.Grows opened.2 := by
  cases h with
  | found _ => exact .refl body
  | added _ _ _ _ => exact body.grows_enrol _

/-- What is opened is found at the index that opening it answers with. -/
theorem Opens.indexOf? {body : Body} {fresh : Definition} {opened : Nat × Body}
    (h : body.Opens fresh opened) : opened.2.indexOf? fresh.label = some opened.1 := by
  cases h with
  | found hfound => exact hfound
  | added hfresh _ hnew _ =>
    rw [← hfresh, Definition.label_unlinked, indexOf?_enrol hnew, if_pos rfl]

end Body

/-! ### Runs of operations -/

/-- The operations that a body offers to those who fill it. -/
inductive Operation where
  | openPackage (name : Identifier)
  | openClass (name : Identifier)
  | openObject (name : Identifier)
  | makeUpName
  | addField (field : Field)
  | addMethod (method : Method)
  | addComment (text : String)

namespace Operation

/-- The label that was asked for. To make up a name asks for none. -/
def label? : Operation → Option Label
  | .openPackage name => some ⟨.package, some name⟩
  | .openClass name => some ⟨.class, some name⟩
  | .openObject name => some ⟨.object, some name⟩
  | .makeUpName => none
  | .addField field => some ⟨.field, some field.name⟩
  | .addMethod method => some ⟨.method, some method.name⟩
  | .addComment _ => some ⟨.comment, none⟩

/-- The index that the operation answers with, if any, and the body behind it. -/
def apply (body : Body) : Operation → Option Nat × Body
  | .openPackage name => ((body.openPackage name).1, (body.openPackage name).2)
  | .openClass name => ((body.openClass name).1, (body.openClass name).2)
  | .openObject name => ((body.openObject name).1, (body.openObject name).2)
  | .makeUpName => (none, body.makeUpName.2)
  | .addField field => (some body.size, body.push (.field field))
  | .addMethod method => (some body.size, body.push (.method method))
  | .addComment text => (some body.size, body.push (.comment text))

/-- The body behind operations, one after the other. -/
def run (operations : List Operation) (body : Body) : Body :=
  operations.foldl (fun body operation => (apply body operation).2) body

/-- Every operation leaves a linked body linked. -/
theorem linked_apply {body : Body} (h : body.Linked) (operation : Operation) :
    (apply body operation).2.Linked := by
  cases operation with
  | openPackage name => exact (body.opens_openPackage name).linked h
  | openClass name => exact (body.opens_openClass name).linked h
  | openObject name => exact (body.opens_openObject name).linked h
  | makeUpName => exact h.of_items_eq rfl
  | addField field => exact Body.linked_push h rfl
  | addMethod method => exact Body.linked_push h rfl
  | addComment text => exact Body.linked_push h rfl

/-- So does a run of operations. -/
theorem linked_run {body : Body} (h : body.Linked) (operations : List Operation) :
    (run operations body).Linked := by
  induction operations generalizing body with
  | nil => exact h
  | cons operation rest ih => exact ih (linked_apply h operation)

/-- No operation moves what stands in a body. -/
theorem grows_apply (body : Body) (operation : Operation) :
    body.Grows (apply body operation).2 := by
  cases operation with
  | openPackage name => exact (body.opens_openPackage name).grows
  | openClass name => exact (body.opens_openClass name).grows
  | openObject name => exact (body.opens_openObject name).grows
  | makeUpName => exact .refl body
  | addField field => exact body.grows_push _
  | addMethod method => exact body.grows_push _
  | addComment text => exact body.grows_push _

/-- Nor does a run of operations. -/
theorem grows_run (operations : List Operation) (body : Body) :
    body.Grows (run operations body) := by
  induction operations generalizing body with
  | nil => exact .refl body
  | cons operation rest ih => exact (grows_apply body operation).trans (ih _)

/-- An operation that asks for a definition answers with an index that leads to it. -/
theorem get?_apply (body : Body) {operation : Operation} {label : Label}
    (h : operation.label? = some label) :
    ∃ index definition, (apply body operation).1 = some index
      ∧ (apply body operation).2.get? index = some definition ∧ definition.label = label := by
  have hopened : ∀ {opened : Nat × Body} {label : Label},
      opened.2.indexOf? label = some opened.1 →
      ∃ index definition, some opened.1 = some index ∧ opened.2.get? index = some definition
        ∧ definition.label = label := by
    intro opened label hfound
    obtain ⟨definition, hd, hl⟩ := Body.get?_of_indexOf? hfound
    exact ⟨_, definition, rfl, hd, hl⟩
  cases operation with
  | openPackage name => cases h; exact hopened (body.opens_openPackage name).indexOf?
  | openClass name => cases h; exact hopened (body.opens_openClass name).indexOf?
  | openObject name => cases h; exact hopened (body.opens_openObject name).indexOf?
  | makeUpName => cases h
  | addField field => cases h; exact ⟨_, _, rfl, Body.get?_push_size _ _, rfl⟩
  | addMethod method => cases h; exact ⟨_, _, rfl, Body.get?_push_size _ _, rfl⟩
  | addComment text => cases h; exact ⟨_, _, rfl, Body.get?_push_size _ _, rfl⟩

/-- The index still does after any further operations. -/
theorem get?_run_apply (body : Body) {operation : Operation} {label : Label}
    (h : operation.label? = some label) (later : List Operation) :
    ∃ index definition, (apply body operation).1 = some index
      ∧ (run later (apply body operation).2).get? index = some definition
      ∧ definition.label = label := by
  obtain ⟨index, definition, hindex, hd, hl⟩ := get?_apply body h
  obtain ⟨now, hnow, hsame⟩ := (grows_run later _).get? hd
  exact ⟨index, now, hindex, hnow, hsame.trans hl⟩

end Operation

end Facade
