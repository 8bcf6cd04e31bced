import Facade.Definition.Body

/-!
# What a body is looked up by

A body is searched by the kind and the name of a definition, and by nothing else. `Label` is
that pair, and `Body.labels` lists the labels of a body in order. The three searches
(`packageIndex?`, `classIndex?`, `objectIndex?`) are one search for a label, `Body.indexOf?`,
so what adding and changing definitions does to them is said once, on the list of labels:

* adding a definition appends its label (`labels_push`);
* changing a definition without changing its label changes no label (`labels_modify`).

`Body.enrol` is what the three opening operations do when there is nothing to open: the new
definition is added, and the partner that its label calls for learns its index. `Body.Opens` is
what they have in common, so a property of opening is proved once and used for all three.
-/

set_option autoImplicit false

namespace Facade

/-- The kinds of definitions. -/
inductive Kind where
  | comment
  | package
  | «class»
  | object
  | field
  | method
deriving DecidableEq

/-- Whether definitions of the kind hold no others. -/
def Kind.isLeaf : Kind → Bool
  | .comment | .field | .method => true
  | .package | .class | .object => false

/-- A kind, and the name if there is one. -/
structure Label where
  kind : Kind
  name : Option Identifier
deriving DecidableEq

/-- The label of the companion that a label calls for: classes and objects have one each. -/
def Label.partner? : Label → Option Label
  | ⟨.class, name⟩ => some ⟨.object, name⟩
  | ⟨.object, name⟩ => some ⟨.class, name⟩
  | _ => none

/-- To be a partner is mutual. -/
theorem Label.partner?_eq_some {label other : Label} (h : label.partner? = some other) :
    other.partner? = some label := by
  obtain ⟨kind, name⟩ := label
  cases kind <;> simp [Label.partner?] at h <;> subst h <;> rfl

/-- A label is not its own partner: the kinds differ. -/
theorem Label.ne_of_partner? {label other : Label} (h : label.partner? = some other) :
    other ≠ label := by
  obtain ⟨kind, name⟩ := label
  cases kind <;> simp [Label.partner?] at h <;> subst h <;> simp

namespace Definition

/-- The kind of a definition. -/
def kind : Definition → Kind
  | .comment _ => .comment
  | .package _ => .package
  | .class _ => .class
  | .object _ => .object
  | .field _ => .field
  | .method _ => .method

/-- What the definition is looked up by. -/
def label (definition : Definition) : Label :=
  ⟨definition.kind, definition.name?⟩

/-- Whether the definition holds others. -/
def isContainer (definition : Definition) : Bool :=
  definition.body?.isSome

/-- The link to a companion. -/
def link? : Definition → Option Nat
  | .class definition => definition.companion
  | .object definition => definition.companion
  | _ => none

/-- Sets the link of a class or an object. -/
def linkedTo (index : Nat) : Definition → Definition
  | .class definition => .class { definition with companion := some index }
  | .object definition => .object { definition with companion := some index }
  | definition => definition

/-- A link changes nothing that a definition is looked up by. -/
@[simp] theorem label_linkedTo (index : Nat) (definition : Definition) :
    (definition.linkedTo index).label = definition.label := by
  cases definition <;> rfl

/-- A definition whose label calls for a partner is a class or an object, so it takes a link. -/
theorem link?_linkedTo {definition : Definition} {partner : Label}
    (h : definition.label.partner? = some partner) (index : Nat) :
    (definition.linkedTo index).link? = some index := by
  cases definition <;> first | rfl | simp [label, kind, Label.partner?] at h

/-- The definition without its link. -/
def unlinked : Definition → Definition
  | .class definition => .class { definition with companion := none }
  | .object definition => .object { definition with companion := none }
  | definition => definition

/-- Without its link, a definition is the same, whatever it was linked to. -/
@[simp] theorem unlinked_linkedTo (index : Nat) (definition : Definition) :
    (definition.linkedTo index).unlinked = definition.unlinked := by
  cases definition <;> rfl

/-- To take the link away changes nothing that a definition is looked up by. -/
@[simp] theorem label_unlinked (definition : Definition) :
    definition.unlinked.label = definition.label := by
  cases definition <;> rfl

/-- What a definition holds does not depend on its link. -/
@[simp] theorem body?_unlinked (definition : Definition) :
    definition.unlinked.body? = definition.body? := by
  cases definition <;> rfl

/-- Whether a definition holds others shows in its label, since it is a matter of its kind. -/
theorem isContainer_of_label_eq {first second : Definition} (h : first.label = second.label) :
    first.isContainer = second.isContainer := by
  cases first <;> cases second <;> first | rfl | simp [label, kind] at h

end Definition

namespace Body

/-- The labels of the definitions, in order. -/
def labels (body : Body) : List Label :=
  body.items.map Definition.label

/-- The index of the first definition with a label. -/
def indexOf? (body : Body) (label : Label) : Option Nat :=
  body.labels.idxOf? label

/-! ### The three searches are one -/

/-- A search by a test that only the label passes is the search for the label. -/
theorem findIdx?_eq_indexOf? (body : Body) (label : Label) (p : Definition → Bool)
    (hp : ∀ definition, p definition = true ↔ definition.label = label) :
    body.items.findIdx? p = body.indexOf? label := by
  rw [indexOf?, labels, List.idxOf?, List.findIdx?_map]
  congr 1
  funext definition
  rw [Bool.eq_iff_iff, hp, Function.comp_apply, beq_iff_eq]

/-- The search for a package is that for its label. -/
theorem packageIndex?_eq (body : Body) (name : Identifier) :
    body.packageIndex? name = body.indexOf? ⟨.package, some name⟩ :=
  body.findIdx?_eq_indexOf? _ _ fun definition => by
    cases definition <;>
      simp [Definition.isPackageNamed, Definition.label, Definition.kind, Definition.name?]

/-- The search for a class is that for its label. -/
theorem classIndex?_eq (body : Body) (name : Identifier) :
    body.classIndex? name = body.indexOf? ⟨.class, some name⟩ :=
  body.findIdx?_eq_indexOf? _ _ fun definition => by
    cases definition <;>
      simp [Definition.isClassNamed, Definition.label, Definition.kind, Definition.name?]

/-- The search for an object is that for its label. -/
theorem objectIndex?_eq (body : Body) (name : Identifier) :
    body.objectIndex? name = body.indexOf? ⟨.object, some name⟩ :=
  body.findIdx?_eq_indexOf? _ _ fun definition => by
    cases definition <;>
      simp [Definition.isObjectNamed, Definition.label, Definition.kind, Definition.name?]

/-! ### Labels, and what changes them -/

/-- The label at an index is that of the definition there. -/
theorem getElem?_labels (body : Body) (index : Nat) :
    body.labels[index]? = (body.get? index).map Definition.label := by
  simp [labels, get?]

/-- There are as many labels as definitions. -/
@[simp] theorem length_labels (body : Body) : body.labels.length = body.size := by
  simp [labels, size]

/-- The empty body has no labels. -/
@[simp] theorem labels_empty : Body.empty.labels = [] := rfl

/-- A definition that is added comes with its label, at the end. -/
@[simp] theorem labels_push (body : Body) (definition : Definition) :
    (body.push definition).labels = body.labels ++ [definition.label] := by
  simp [labels, push]

/-- Changes that keep the label of the definition they change keep all labels. -/
theorem labels_modify {body : Body} {index : Nat} {f : Definition → Definition}
    (hf : ∀ definition, body.get? index = some definition →
      (f definition).label = definition.label) :
    (body.modify index f).labels = body.labels := by
  refine List.ext_getElem? fun position => ?_
  simp only [labels, modify, List.getElem?_map, List.getElem?_modify]
  cases hd : body.items[position]? with
  | none => simp
  | some definition =>
    by_cases hi : index = position
    · subst hi
      simp [hf definition hd]
    · simp [hi]

/-- A change at an index changes what stands at that index. -/
theorem get?_modify (body : Body) (index position : Nat) (f : Definition → Definition) :
    (body.modify index f).get? position
      = if index = position then (body.get? position).map f else body.get? position := by
  simp only [get?, modify, List.getElem?_modify]
  split <;> simp

/-- What is added stands at the next index, and nothing else moves. -/
theorem get?_push (body : Body) (definition : Definition) (position : Nat) :
    (body.push definition).get? position
      = if position = body.size then some definition else body.get? position := by
  by_cases hlt : position < body.size
  · rw [get?_push_of_lt hlt, if_neg (Nat.ne_of_lt hlt)]
  · by_cases heq : position = body.size
    · rw [heq, get?_push_size, if_pos rfl]
    · have hpast : body.items.length + 1 ≤ position := by
        have : body.size = body.items.length := rfl
        omega
      rw [if_neg heq, get?, get?, push, List.getElem?_eq_none (Nat.le_of_succ_le hpast),
        List.getElem?_eq_none (by simpa using hpast)]

/-- Where a definition stands, the body reaches to. -/
theorem lt_size_of_get? {body : Body} {index : Nat} {definition : Definition}
    (h : body.get? index = some definition) : index < body.size :=
  (List.getElem?_eq_some_iff.mp h).1

/-- To change the definition that was added last is to add it changed. -/
theorem modify_push_size (body : Body) (definition : Definition) (f : Definition → Definition) :
    (body.push definition).modify body.size f = body.push (f definition) := by
  simp [modify, push, size, List.modify_eq_take_drop]

/-! ### The search for a label -/

/-- The search finds a definition with the label. -/
theorem get?_of_indexOf? {body : Body} {label : Label} {index : Nat}
    (h : body.indexOf? label = some index) :
    ∃ definition, body.get? index = some definition ∧ definition.label = label := by
  obtain ⟨hlt, hlabel, -⟩ := List.findIdx?_eq_some_iff_getElem.mp h
  have hget := body.getElem?_labels index
  rw [List.getElem?_eq_getElem hlt, beq_iff_eq.mp hlabel] at hget
  obtain ⟨definition, hd, hl⟩ := Option.map_eq_some_iff.mp hget.symm
  exact ⟨definition, hd, hl⟩

/-- The search finds nothing exactly if no definition has the label. -/
theorem indexOf?_eq_none {body : Body} {label : Label} :
    body.indexOf? label = none
      ↔ ∀ index definition, body.get? index = some definition → definition.label ≠ label := by
  rw [indexOf?, List.idxOf?_eq_none_iff, labels, List.mem_map]
  constructor
  · intro h index definition hd hl
    exact h ⟨definition, List.mem_of_getElem? hd, hl⟩
  · rintro h ⟨definition, hmem, hl⟩
    obtain ⟨index, hi⟩ := List.getElem?_of_mem hmem
    exact h index definition hi hl

/-- Where a label stands at one index only, the search finds that index. -/
theorem indexOf?_eq_some {body : Body} {index : Nat} {definition : Definition}
    (hd : body.get? index = some definition)
    (hunique : ∀ other twin, body.get? other = some twin → twin.label = definition.label →
      other = index) :
    body.indexOf? definition.label = some index := by
  cases hfound : body.indexOf? definition.label with
  | none => exact absurd rfl (indexOf?_eq_none.mp hfound index definition hd)
  | some other =>
    obtain ⟨twin, htwin, hl⟩ := get?_of_indexOf? hfound
    rw [hunique other twin htwin hl]

/-- A definition that is added is found if there was none before with its label. -/
theorem indexOf?_push (body : Body) (definition : Definition) (label : Label) :
    (body.push definition).indexOf? label
      = (body.indexOf? label).or (if definition.label = label then some body.size else none) := by
  rw [indexOf?, labels_push, List.idxOf?, List.findIdx?_append, List.findIdx?_singleton]
  simp only [beq_iff_eq, length_labels, indexOf?, List.idxOf?]
  split <;> simp

/-- The search depends on nothing but the labels. -/
theorem indexOf?_of_labels_eq {first second : Body} (h : first.labels = second.labels)
    (label : Label) : first.indexOf? label = second.indexOf? label := by
  rw [indexOf?, h, indexOf?]

/-- A label that is found at the front stays found there. -/
theorem indexOf?_of_prefix {before after : Body} (h : before.labels <+: after.labels)
    {label : Label} {index : Nat} (hi : before.indexOf? label = some index) :
    after.indexOf? label = some index := by
  obtain ⟨more, hmore⟩ := h
  rw [indexOf?, List.idxOf?] at hi
  rw [indexOf?, ← hmore, List.idxOf?, List.findIdx?_append, hi]
  rfl

/-! ### Opening a label -/

/-- Adds a definition, and tells its index to the partner that its label calls for. -/
def enrol (body : Body) (definition : Definition) : Body :=
  match definition.label.partner?.bind body.indexOf? with
  | none => body.push definition
  | some partner => (body.push definition).modify partner (Definition.linkedTo body.size)

/-- Whoever else is told of it, a definition that is enrolled adds its label and no other. -/
@[simp] theorem labels_enrol (body : Body) (definition : Definition) :
    (body.enrol definition).labels = body.labels ++ [definition.label] := by
  unfold enrol
  split
  · exact body.labels_push definition
  · rw [labels_modify fun other _ => other.label_linkedTo _, labels_push]

/-- Two changes that agree on what stands at the index are one. -/
theorem modify_congr {body : Body} {index : Nat} {f g : Definition → Definition}
    (h : ∀ definition, body.get? index = some definition → f definition = g definition) :
    body.modify index f = body.modify index g := by
  have hitems : body.items.modify index f = body.items.modify index g := by
    refine List.ext_getElem? fun position => ?_
    simp only [List.getElem?_modify]
    by_cases hi : index = position
    · subst hi
      cases hd : body.items[index]? with
      | none => rfl
      | some definition => simp [h definition hd]
    · simp [hi]
  simp [modify, hitems]

/-- To open a package is to search for its label, and to enrol an empty package if it is not
found. -/
theorem openPackage_eq (body : Body) (name : Identifier) :
    body.openPackage name = match body.indexOf? ⟨.package, some name⟩ with
      | some index => (index, body)
      | none => (body.size, body.enrol (.package (.named name))) := by
  rw [← packageIndex?_eq]
  unfold openPackage
  cases body.packageIndex? name <;> rfl

/-- The same for a class, which is linked to the object of its name. -/
theorem openClass_eq (body : Body) (name : Identifier) :
    body.openClass name = match body.indexOf? ⟨.class, some name⟩ with
      | some index => (index, body)
      | none => (body.size,
          body.enrol (.class (.named name (body.indexOf? ⟨.object, some name⟩)))) := by
  rw [← classIndex?_eq, ← objectIndex?_eq]
  unfold openClass
  cases hclass : body.classIndex? name with
  | some index => rfl
  | none =>
    have hpartner : (Definition.class (.named name (body.objectIndex? name))).label.partner?.bind
        body.indexOf? = body.objectIndex? name := (body.objectIndex?_eq name).symm
    simp only [enrol, hpartner]
    cases hobject : body.objectIndex? name with
    | none => rfl
    | some object =>
      refine congrArg (Prod.mk body.size) (modify_congr fun definition hd => ?_)
      rw [get?_push_of_lt (lt_size_of_objectIndex? hobject)] at hd
      obtain ⟨found, hfound, hl⟩ := get?_of_indexOf? (body.objectIndex?_eq name ▸ hobject)
      cases hd.symm.trans hfound
      cases definition <;> simp [Definition.label, Definition.kind] at hl
      rfl

/-- The same for an object, which is linked to the class of its name. -/
theorem openObject_eq (body : Body) (name : Identifier) :
    body.openObject name = match body.indexOf? ⟨.object, some name⟩ with
      | some index => (index, body)
      | none => (body.size,
          body.enrol (.object (.named name (body.indexOf? ⟨.class, some name⟩)))) := by
  rw [← classIndex?_eq, ← objectIndex?_eq]
  unfold openObject
  cases hobject : body.objectIndex? name with
  | some index => rfl
  | none =>
    have hpartner : (Definition.object (.named name (body.classIndex? name))).label.partner?.bind
        body.indexOf? = body.classIndex? name := (body.classIndex?_eq name).symm
    simp only [enrol, hpartner]
    cases hclass : body.classIndex? name with
    | none => rfl
    | some index =>
      refine congrArg (Prod.mk body.size) (modify_congr fun definition hd => ?_)
      rw [get?_push_of_lt (lt_size_of_classIndex? hclass)] at hd
      obtain ⟨found, hfound, hl⟩ := get?_of_indexOf? (body.classIndex?_eq name ▸ hclass)
      cases hd.symm.trans hfound
      cases definition <;> simp [Definition.label, Definition.kind] at hl
      rfl

/-- The answer of opening `fresh`: the index of what stands under its label, and the body, to which
`fresh` is admitted if there was nothing, with a link to where its partner is. -/
inductive Opens (body : Body) (fresh : Definition) : Nat × Body → Prop where
  | found {index : Nat} : body.indexOf? fresh.label = some index → Opens body fresh (index, body)
  | added {definition : Definition} : definition.unlinked = fresh →
      definition.body? = some .empty → body.indexOf? definition.label = none →
      definition.link? = definition.label.partner?.bind body.indexOf? →
      Opens body fresh (body.size, body.enrol definition)

/-- To open a package is to open its label. -/
theorem opens_openPackage (body : Body) (name : Identifier) :
    body.Opens (.package (.named name)) (body.openPackage name) := by
  rw [openPackage_eq]
  cases hfound : body.indexOf? ⟨.package, some name⟩ with
  | some index => exact .found hfound
  | none => exact .added rfl rfl hfound rfl

/-- To open a class is to open its label. -/
theorem opens_openClass (body : Body) (name : Identifier) :
    body.Opens (.class (.named name none)) (body.openClass name) := by
  rw [openClass_eq]
  cases hfound : body.indexOf? ⟨.class, some name⟩ with
  | some index => exact .found hfound
  | none => exact .added rfl rfl hfound rfl

/-- To open an object is to open its label. -/
theorem opens_openObject (body : Body) (name : Identifier) :
    body.Opens (.object (.named name none)) (body.openObject name) := by
  rw [openObject_eq]
  cases hfound : body.indexOf? ⟨.object, some name⟩ with
  | some index => exact .found hfound
  | none => exact .added rfl rfl hfound rfl

end Body

end Facade
