import Facade.Proofs.Definition.Companions

/-!
# What stands under a label

The view of a body under a label is the definition that the search for the label finds, apart from
its link to a companion: the link is an index, and what an edit does to links depends on where other
definitions stand. Views do not. What opening does to them is the same for packages, classes and
objects (`Opens.view`), and so is what changing a definition does once it is open
(`Opens.view_modify`): the view under one label changes, and no other.
-/

set_option autoImplicit false

namespace Facade

namespace Body

/-- What stands under a label, apart from its link. -/
def view (body : Body) (label : Label) : Option Definition :=
  ((body.indexOf? label).bind body.get?).map Definition.unlinked

/-- There is nothing to see in an empty body. -/
@[simp] theorem view_empty (label : Label) : Body.empty.view label = none := rfl

/-- Nothing is seen under a label exactly if a search for it finds nothing. -/
theorem view_eq_none {body : Body} {label : Label} :
    body.view label = none ↔ body.indexOf? label = none := by
  unfold view
  cases hfound : body.indexOf? label with
  | none => simp
  | some index =>
    obtain ⟨definition, hd, -⟩ := get?_of_indexOf? hfound
    simp [hd]

/-- The view under a label has that label. -/
theorem label_of_view {body : Body} {label : Label} {definition : Definition}
    (h : body.view label = some definition) : definition.label = label := by
  obtain ⟨found, hfound, rfl⟩ := Option.map_eq_some_iff.mp h
  obtain ⟨index, hindex, hd⟩ := Option.bind_eq_some_iff.mp hfound
  obtain ⟨other, hother, hl⟩ := get?_of_indexOf? hindex
  cases hd.symm.trans hother
  rw [Definition.label_unlinked, hl]

/-- Under the label of a class stands a class. -/
theorem class_of_view {body : Body} {name : Identifier} {definition : Definition}
    (h : body.view ⟨.class, some name⟩ = some definition) :
    ∃ found : ClassDefinition, definition = .class found := by
  have hl := label_of_view h
  cases definition with
  | «class» found => exact ⟨found, rfl⟩
  | _ => simp [Definition.label, Definition.kind] at hl

/-- A definition at the end is seen under its label if nothing else is. -/
theorem view_push (body : Body) (definition : Definition) (label : Label) :
    (body.push definition).view label
      = (body.view label).or (if definition.label = label then some definition.unlinked
          else none) := by
  unfold view
  rw [indexOf?_push]
  cases hfound : body.indexOf? label with
  | none =>
    rw [Option.none_or, Option.bind_none, Option.map_none, Option.none_or]
    split
    · rw [Option.bind_some, get?_push_size, Option.map_some]
    · rfl
  | some index =>
    obtain ⟨found, hd, -⟩ := get?_of_indexOf? hfound
    rw [Option.some_or, Option.bind_some, Option.bind_some, hd,
      get?_push_of_lt (lt_size_of_get? hd), hd]
    rfl

/-- A change that keeps the label of what it changes shows under that label only. -/
theorem view_modify {body : Body} {index : Nat} {f : Definition → Definition}
    (hlabel : ∀ definition, (f definition).label = definition.label) (label : Label) :
    (body.modify index f).view label
      = if body.indexOf? label = some index
        then ((body.get? index).map f).map Definition.unlinked else body.view label := by
  unfold view
  rw [indexOf?_of_labels_eq (labels_modify fun definition _ => hlabel definition)]
  cases body.indexOf? label with
  | none => simp
  | some position =>
    rw [Option.bind_some, Option.bind_some, get?_modify]
    by_cases hi : index = position
    · subst hi
      simp
    · rw [if_neg hi, if_neg fun heq => hi (Option.some.inj heq).symm]

/-- A change that keeps the views keeps them all. -/
theorem view_modify_of_unlinked {body : Body} {index : Nat} {f : Definition → Definition}
    (hf : ∀ definition, (f definition).unlinked = definition.unlinked) (label : Label) :
    (body.modify index f).view label = body.view label := by
  have hlabel : ∀ definition, (f definition).label = definition.label := fun definition => by
    rw [← Definition.label_unlinked, hf, Definition.label_unlinked]
  rw [view_modify hlabel]
  split
  · rename_i hindex
    rw [view, hindex, Option.bind_some, Option.map_map]
    exact congrArg (fun g => (body.get? index).map g) (funext hf)
  · rfl

/-- Behind `enrol`, only the view under the new label has changed. -/
theorem view_enrol {body : Body} {definition : Definition}
    (hnew : body.indexOf? definition.label = none) (label : Label) :
    (body.enrol definition).view label
      = if label = definition.label then some definition.unlinked else body.view label := by
  have hpush : (body.enrol definition).view label = (body.push definition).view label := by
    unfold enrol
    split
    · rfl
    · exact view_modify_of_unlinked (fun other => other.unlinked_linkedTo _) label
  rw [hpush, view_push]
  by_cases heq : label = definition.label
  · rw [if_pos heq, if_pos heq.symm, heq, view_eq_none.mpr hnew, Option.none_or]
  · rw [if_neg heq, if_neg (Ne.symm heq), Option.or_none]

/-- Where there is something under a label, opening it changes no view, and where there is nothing,
it adds what is new. -/
theorem Opens.view {body : Body} {fresh : Definition} {opened : Nat × Body}
    (h : body.Opens fresh opened) (label : Label) :
    opened.2.view label = if label = fresh.label then some ((body.view label).getD fresh)
      else body.view label := by
  by_cases heq : label = fresh.label
  · subst heq
    rw [if_pos rfl]
    cases h with
    | found hfound =>
      obtain ⟨definition, hd, -⟩ := get?_of_indexOf? hfound
      rw [Body.view, hfound, Option.bind_some, hd]
      rfl
    | added hfresh _ hnew _ =>
      subst hfresh
      rw [Definition.label_unlinked, view_enrol hnew, if_pos rfl, view_eq_none.mpr hnew]
      rfl
  · rw [if_neg heq]
    cases h with
    | found _ => rfl
    | added hfresh _ hnew _ =>
      subst hfresh
      rw [Definition.label_unlinked] at heq
      rw [view_enrol hnew, if_neg heq]

/-- To change what was opened is to change the view under its label. -/
theorem Opens.view_modify {body : Body} {fresh : Definition} {opened : Nat × Body}
    (h : body.Opens fresh opened) {f : Definition → Definition}
    (hlabel : ∀ definition, (f definition).label = definition.label)
    (hlink : ∀ definition, (f definition).unlinked = f definition.unlinked) (label : Label) :
    (opened.2.modify opened.1 f).view label
      = if label = fresh.label then some (f ((body.view label).getD fresh))
        else body.view label := by
  rw [Body.view_modify hlabel]
  by_cases heq : label = fresh.label
  · subst heq
    have hview := h.view fresh.label
    rw [if_pos rfl] at hview
    rw [if_pos h.indexOf?, if_pos rfl]
    rw [Body.view, h.indexOf?, Option.bind_some] at hview
    obtain ⟨definition, hd, hunlinked⟩ := Option.map_eq_some_iff.mp hview
    rw [hd, Option.map_some, Option.map_some, hlink, hunlinked]
  · rw [if_neg heq, if_neg, h.view, if_neg heq]
    intro hindex
    obtain ⟨definition, hd, hl⟩ := get?_of_indexOf? hindex
    obtain ⟨other, hother, hl'⟩ := get?_of_indexOf? h.indexOf?
    cases hd.symm.trans hother
    exact heq (hl.symm.trans hl')

end Body

end Facade
