import Facade.Proofs.Translation.Overloads

/-!
# What holds of every definition of a facade

Many statements about facades are about every definition in them, wherever it stands, and about
nothing but what the definition says by itself: its name, its types, its parameters. Such a
condition is a rule that looks at the front of a definition (`Definition.front`), which is the
definition without its contents and without its link. `Body.Everywhere` says that a rule holds of
all definitions of a body, and of the bodies in it.

Edits change fronts in two places only: where something is entered, and where a class is changed.
`Edit.Fits` is what a rule has to say about the two, and `Document.everywhere_toPackage` is the
induction over a document: if the edits in the scripts fit the rule, and the packages of its
namespaces and of the output path keep to it, then the rule holds everywhere in the facade.
-/

set_option autoImplicit false

namespace Facade

/-! ### Fronts -/

namespace Definition

/-- The definition without what is in it, and without its link. -/
def front (definition : Definition) : Definition :=
  (definition.mapBody fun _ => .empty).unlinked

/-- A link does not show at the front. -/
@[simp] theorem front_linkedTo (index : Nat) (definition : Definition) :
    (definition.linkedTo index).front = definition.front := by
  cases definition <;> rfl

/-- Nor does what a definition holds. -/
@[simp] theorem front_mapBody (f : Body → Body) (definition : Definition) :
    (definition.mapBody f).front = definition.front := by
  cases definition <;> rfl

/-- A definition without a body of its own is its front. -/
theorem front_of_leaf {definition : Definition} (h : definition.isContainer = false) :
    definition.front = definition := by
  cases definition <;> first | rfl | simp [isContainer, body?] at h

/-- A new container shows what it was opened as. -/
theorem front_of_unlinked {definition fresh : Definition} (hunlinked : definition.unlinked = fresh)
    (hempty : definition.body? = some .empty) : definition.front = fresh := by
  subst hunlinked
  cases definition with
  | package definition =>
    obtain ⟨_, _, _⟩ := definition
    cases hempty; rfl
  | «class» definition =>
    obtain ⟨_, _, _, _, _, _⟩ := definition
    cases hempty; rfl
  | object definition =>
    obtain ⟨_, _, _⟩ := definition
    cases hempty; rfl
  | _ => cases hempty

end Definition

/-! ### Edits that fit a rule -/

/-- What a change adds to the body of the class. -/
def ClassChange.entry? : ClassChange → Option Entry
  | .enter entry => some entry
  | .header _ _ => none
  | .constructors alternatives => some (.methods (some .constructor) [] alternatives .unit)
  | .adopt _ alternatives => some (.methods (some .constructor) [] alternatives .unit)

/-- Behind a change, the body of a class has what the change adds to it. -/
theorem ClassChange.body_apply_eq (change : ClassChange) (definition : ClassDefinition) :
    (change.apply definition).body
      = (change.entry?.map definition.body.enter).getD definition.body := by
  cases change <;> rfl

/-- All that an entry may enter keeps to a rule. -/
def Entry.Fits (rule : Definition → Prop) (entry : Entry) : Prop :=
  ∀ fresh : Identifier, fresh.IsMadeUp → ∀ definition ∈ entry.definitions fresh, rule definition

/-- A change leaves a class that keeps to a rule with what keeps to it. -/
structure ClassChange.Fits (rule : Definition → Prop) (change : ClassChange) : Prop where
  front : ∀ definition : ClassDefinition, rule (Definition.class definition).front →
    rule (Definition.class (change.apply definition)).front
  entry : ∀ entry ∈ change.entry?, entry.Fits rule

/-- What an edit opens, changes and enters keeps to a rule. -/
def Edit.Fits (rule : Definition → Prop) : Edit → Prop
  | .here entry => entry.Fits rule
  | .onClass name change => rule (.class (.named name none)) ∧ change.Fits rule
  | .object name => rule (.object (.named name none))
  | .inObject name entry => rule (.object (.named name none)) ∧ entry.Fits rule

namespace Body

variable {rule : Definition → Prop} {body : Body}

/-- A rule holds of the front of every definition of a body, and of the bodies in it. -/
inductive Everywhere (rule : Definition → Prop) : Body → Prop where
  | intro {body : Body} (here : ∀ i definition, body.get? i = some definition →
        rule definition.front)
      (inside : ∀ i definition inner, body.get? i = some definition →
        definition.body? = some inner → Everywhere rule inner) : Everywhere rule body

/-- A rule that holds everywhere holds of the definitions of the body itself. -/
theorem Everywhere.here (h : body.Everywhere rule) {i : Nat} {definition : Definition}
    (hd : body.get? i = some definition) : rule definition.front := by
  cases h with
  | intro here _ => exact here i definition hd

/-- It holds everywhere in the bodies inside as well. -/
theorem Everywhere.inside (h : body.Everywhere rule) {i : Nat} {definition : Definition}
    {inner : Body} (hd : body.get? i = some definition) (hinner : definition.body? = some inner) :
    inner.Everywhere rule := by
  cases h with
  | intro _ inside => exact inside i definition inner hd hinner

/-- A rule holds everywhere in a body if it holds of each definition and everywhere in it. -/
theorem everywhere_iff :
    body.Everywhere rule ↔ ∀ definition ∈ body.items, rule definition.front
      ∧ ∀ inner ∈ definition.body?, inner.Everywhere rule := by
  constructor
  · intro h definition hin
    obtain ⟨i, hi⟩ := List.getElem?_of_mem hin
    exact ⟨h.here hi, fun inner hinner => h.inside hi hinner⟩
  · intro h
    exact .intro (fun i definition hi => (h definition (List.mem_of_getElem? hi)).1)
      fun i definition inner hi hinner => (h definition (List.mem_of_getElem? hi)).2 inner hinner

/-- In an empty body, every rule holds everywhere. -/
theorem everywhere_empty : Body.empty.Everywhere rule :=
  .intro (fun i definition hd => by simp [get?, empty] at hd)
    (fun i definition _ hd => by simp [get?, empty] at hd)

/-! ### Edits keep to a rule -/

/-- A rule still holds everywhere behind an entry that fits it. -/
theorem everywhere_enter (h : body.Everywhere rule) {entry : Entry} (hentry : entry.Fits rule) :
    (body.enter entry).Everywhere rule := by
  -- What stands in the body afterwards stood there before, or is a leaf of the entry.
  have hcases : ∀ i definition, (body.enter entry).get? i = some definition →
      body.get? i = some definition
        ∨ definition ∈ entry.definitions body.makeUpName.1 := by
    intro i definition hd
    rw [get?, enter, List.getElem?_append] at hd
    split at hd
    · exact .inl hd
    · exact .inr (List.mem_of_getElem? hd)
  refine .intro (fun i definition hd => ?_) (fun i definition inner hd hinner => ?_)
  · rcases hcases i definition hd with hold | hnew
    · exact h.here hold
    · rw [Definition.front_of_leaf (Entry.isContainer_of_mem_definitions hnew)]
      exact hentry _ body.isMadeUp_makeUpName definition hnew
  · rcases hcases i definition hd with hold | hnew
    · exact h.inside hold hinner
    · have hleaf := Entry.isContainer_of_mem_definitions hnew
      simp [Definition.isContainer, hinner] at hleaf

/-- A new container with nothing in it may be admitted. -/
theorem everywhere_enrol (h : body.Everywhere rule) {definition : Definition}
    (hrule : rule definition.front) (hempty : definition.body? = some .empty) :
    (body.enrol definition).Everywhere rule := by
  refine .intro (fun i found hi => ?_) (fun i found inner hi hinner => ?_)
  -- It is the new one, its companion with a link to it, or as it was.
  · rcases get?_enrol hi with ⟨-, rfl⟩ | ⟨old, ho, -, rfl⟩ | ⟨ho, -⟩
    · exact hrule
    · rw [Definition.front_linkedTo]
      exact h.here ho
    · exact h.here ho
  · rcases get?_enrol hi with ⟨-, rfl⟩ | ⟨old, ho, -, rfl⟩ | ⟨ho, -⟩
    · cases hempty.symm.trans hinner
      exact everywhere_empty
    · exact h.inside ho (by cases old <;> exact hinner)
    · exact h.inside ho hinner

/-- A rule still holds everywhere when a container that keeps to it is opened. -/
theorem Opens.everywhere {fresh : Definition} {opened : Nat × Body} (h : body.Opens fresh opened)
    (hb : body.Everywhere rule) (hfresh : rule fresh) : opened.2.Everywhere rule := by
  cases h with
  | found _ => exact hb
  | added hunlinked hempty _ _ =>
    refine everywhere_enrol hb ?_ hempty
    rw [Definition.front_of_unlinked hunlinked hempty]
    exact hfresh

/-- A definition may be changed in place to one that keeps to the rule. -/
theorem everywhere_modify (h : body.Everywhere rule) {index : Nat} {f : Definition → Definition}
    {definition : Definition} (hd : body.get? index = some definition)
    (hrule : rule (f definition).front)
    (hinside : ∀ inner, (f definition).body? = some inner → inner.Everywhere rule) :
    (body.modify index f).Everywhere rule := by
  refine .intro (fun i found hi => ?_) (fun i found inner hi hinner => ?_) <;>
    rw [get?_modify] at hi <;> split at hi
  · rename_i heq
    subst heq
    rw [hd] at hi
    cases hi
    exact hrule
  · exact h.here hi
  · rename_i heq
    subst heq
    rw [hd] at hi
    cases hi
    exact hinside inner hinner
  · exact h.inside hi hinner

/-- A rule still holds everywhere behind an edit that fits it. -/
theorem everywhere_edit (h : body.Everywhere rule) {edit : Edit} (hedit : edit.Fits rule) :
    (edit.apply body).Everywhere rule := by
  cases edit with
  | here entry => exact everywhere_enter h hedit
  -- The class is opened first, and then changed in place.
  | onClass name change =>
    have hopened := (body.opens_openClass name).everywhere h hedit.1
    have hclass := get?_of_class? (body.openClass_class? name)
    refine everywhere_modify hopened hclass (hedit.2.front _ (hopened.here hclass)) ?_
    intro inner hinner
    have hbefore := hopened.inside hclass rfl
    cases hinner
    rw [change.body_apply_eq]
    cases hentry : change.entry? with
    | none => exact hbefore
    | some entry => exact everywhere_enter hbefore (hedit.2.entry entry hentry)
  | object name => exact (body.opens_openObject name).everywhere h hedit
  | inObject name entry =>
    have hopened := (body.opens_openObject name).everywhere h hedit.1
    have hobject := get?_of_object? (body.openObject_object? name)
    refine everywhere_modify hopened hobject ?_ ?_
    · rw [Definition.front_mapBody]
      exact hopened.here hobject
    · intro inner hinner
      cases hinner
      exact everywhere_enter (hopened.inside hobject rfl) hedit.2

/-- So it does behind several edits that fit it. -/
theorem everywhere_applyAll (h : body.Everywhere rule) {edits : List Edit}
    (hedits : ∀ edit ∈ edits, edit.Fits rule) : (Edit.applyAll edits body).Everywhere rule := by
  induction edits generalizing body with
  | nil => exact h
  | cons edit rest ih =>
    rw [List.forall_mem_cons] at hedits
    exact ih (everywhere_edit h hedits.1) hedits.2

/-! ### Packages keep to a rule -/

/-- A package of the name keeps to the rule, be it a namespace or not. -/
def Admits (rule : Definition → Prop) (name : Identifier) : Prop :=
  ∀ isNamespace, rule (.package ⟨name, isNamespace, .empty⟩)

/-- A rule that admits the name of a package holds everywhere in it, be it there or new. -/
theorem everywhere_packageOrNew (h : body.Everywhere rule) {name : Identifier}
    (hname : Admits rule name) : (body.packageOrNew name).body.Everywhere rule :=
  ((body.opens_openPackage name).everywhere h (hname false)).inside
    (get?_of_package? (body.openPackage_package? name)) rfl

/-- It still holds everywhere when the package is filled with what keeps to it. -/
theorem everywhere_fillPackage (h : body.Everywhere rule) {name : Identifier}
    (hname : Admits rule name) (isNamespace : Bool) {inner : Body}
    (hinner : inner.Everywhere rule) :
    (body.fillPackage name isNamespace inner).Everywhere rule := by
  have hopened := (body.opens_openPackage name).everywhere h (hname false)
  have hpackage := get?_of_package? (body.openPackage_package? name)
  refine everywhere_modify hopened hpackage ?_ ?_
  · change rule (.package ⟨(body.packageOrNew name).name, _, .empty⟩)
    rw [name_packageOrNew]
    exact hname _
  · intro found hfound
    cases hfound
    exact hinner

/-- It still holds behind a change inside packages, if the change keeps to it and it admits their
names. -/
theorem everywhere_inPackages {f : Body → Noted Body} {path : List Identifier}
    (hpath : ∀ name ∈ path, Admits rule name)
    (hf : ∀ {inner : Body}, inner.Everywhere rule → (f inner).value.Everywhere rule)
    (isNamespace : Bool) (h : body.Everywhere rule) :
    (body.inPackages isNamespace f path).value.Everywhere rule := by
  induction path generalizing body with
  | nil =>
    rw [inPackages_nil]
    exact hf h
  | cons name rest ih =>
    rw [List.forall_mem_cons] at hpath
    rw [inPackages_cons]
    exact everywhere_fillPackage h hpath.1 isNamespace
      (ih hpath.2 (everywhere_packageOrNew h hpath.1))

/-- What is inside a container is everywhere in it. -/
theorem Contains.everywhere {outer container : Body} (hc : outer.Contains container)
    (h : outer.Everywhere rule) : container.Everywhere rule := by
  induction hc with
  | self => exact h
  | inside hd hinner _ ih =>
    obtain ⟨i, hi⟩ := List.getElem?_of_mem hd
    exact ih (h.inside hi hinner)

end Body

/-! ### Documents -/

mutual

/-- The names on the paths of the namespaces in a declaration, at any depth. -/
def Declaration.segments : Declaration → List String
  | .namespace path declarations => path ++ segmentsOf declarations
  | _ => []

/-- The names on the paths of the namespaces in declarations, at any depth. -/
def segmentsOf : List Declaration → List String
  | [] => []
  | declaration :: rest => declaration.segments ++ segmentsOf rest

end

/-- One declaration has the names in it. -/
theorem segmentsOf_singleton (declaration : Declaration) :
    segmentsOf [declaration] = declaration.segments := by
  rw [segmentsOf, segmentsOf, List.append_nil]

/-- Declarations keep to a rule, if the edits of their scripts and the packages of their namespaces
do. -/
theorem along_everywhere (rule : Definition → Prop) : Along fun declarations before after =>
    Scripted (Edit.Fits rule) (allAtAnyDepth declarations) →
    (∀ segment ∈ segmentsOf declarations, Body.Admits rule ⟨segment⟩) →
    before.Everywhere rule → after.value.Everywhere rule where
  nil _ _ _ h := h
  cons hfirst hrest hscripts hsegments h := by
    rw [allAtAnyDepth_cons, Scripted, List.forall_mem_append] at hscripts
    rw [segmentsOf, ← segmentsOf_singleton, List.forall_mem_append] at hsegments
    exact hrest hscripts.2 hsegments.2 (hfirst hscripts.1 hsegments.1 h)
  script hnamespace own body hscripts _ h := by
    rw [allAtAnyDepth_singleton, Declaration.atAnyDepth_eq hnamespace] at hscripts
    exact Body.everywhere_applyAll h (hscripts _ (List.mem_singleton.mpr rfl) own)
  inside path declarations _ hinner body hscripts hsegments h := by
    rw [allAtAnyDepth_singleton, Declaration.atAnyDepth] at hscripts
    rw [segmentsOf_singleton, Declaration.segments, List.forall_mem_append] at hsegments
    exact Body.everywhere_inPackages (List.forall_mem_map.mpr hsegments.1)
      (hinner _ hscripts hsegments.2) true h

/-- A rule holds everywhere in a facade, if the edits of all scripts fit it and the packages keep to
it. -/
theorem Document.everywhere_toPackage {rule : Definition → Prop} (document : Document)
    (hscripts : Scripted (Edit.Fits rule) (allAtAnyDepth document.declarations))
    (hsegments : ∀ segment ∈ segmentsOf document.declarations, Body.Admits rule ⟨segment⟩)
    {path : DottedName} (hpath : ∀ name ∈ path.segments, Body.Admits rule name) :
    (document.toPackage path).value.body.Everywhere rule :=
  Body.everywhere_inPackages hpath
    ((along_everywhere rule).addDeclarations document.declarations _ hscripts hsegments) false
    Body.everywhere_empty

end Facade
