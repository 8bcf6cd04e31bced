import Facade.Proofs.Definition.View

/-!
# Bodies that differ in order only

`Body.Alike` relates two bodies that hold the same definitions in any two orders: their definitions
can be paired off so that the two of a pair have the same names, types, parents and so on, and so
that their bodies are alike in turn. A link is an index, so links cannot be compared as they are;
what they lead to can, and is compared by its label.

`alike_of_views` is how bodies are shown to be alike without a pairing at hand: the definitions that
have no companions are the same up to order, and under every label that calls for a companion stand
definitions that are alike. The links then take care of themselves, because in a linked body they
are what the search for the companion's label answers.
-/

set_option autoImplicit false

namespace Facade

/-- The label of the companion that a definition of a body is linked to. -/
def Body.companionLabel? (body : Body) (definition : Definition) : Option Label :=
  definition.link?.bind fun index => body.labels[index]?

mutual

/-- Two definitions of two bodies are the same, up to the order of definitions in their own
bodies. -/
inductive Definition.Alike : (outer outer' : Body) → Definition → Definition → Prop where
  | comment (outer outer' : Body) (text : String) :
      Definition.Alike outer outer' (.comment text) (.comment text)
  | field (outer outer' : Body) (definition : Field) :
      Definition.Alike outer outer' (.field definition) (.field definition)
  | method (outer outer' : Body) (definition : Method) :
      Definition.Alike outer outer' (.method definition) (.method definition)
  | package (outer outer' : Body) {definition definition' : Package} :
      definition.name = definition'.name → definition.isNamespace = definition'.isNamespace →
      Body.Alike definition.body definition'.body →
      Definition.Alike outer outer' (.package definition) (.package definition')
  | «class» {outer outer' : Body} {definition definition' : ClassDefinition} :
      definition.name = definition'.name →
      definition.typeParameters = definition'.typeParameters →
      definition.parents = definition'.parents → definition.isTrait = definition'.isTrait →
      outer.companionLabel? (.class definition) = outer'.companionLabel? (.class definition') →
      Body.Alike definition.body definition'.body →
      Definition.Alike outer outer' (.class definition) (.class definition')
  | object {outer outer' : Body} {definition definition' : ObjectDefinition} :
      definition.name = definition'.name →
      outer.companionLabel? (.object definition) = outer'.companionLabel? (.object definition') →
      Body.Alike definition.body definition'.body →
      Definition.Alike outer outer' (.object definition) (.object definition')

/-- Two bodies hold the same definitions, up to their order. -/
inductive Body.Alike : Body → Body → Prop where
  | intro {body body' : Body} (pairs : List (Definition × Definition)) :
      body.items.Perm (pairs.map Prod.fst) → body'.items.Perm (pairs.map Prod.snd) →
      (∀ pair ∈ pairs, Definition.Alike body body' pair.1 pair.2) → Body.Alike body body'

end

/-! ### A body is like itself -/

mutual

/-- A definition is like itself. -/
theorem Definition.Alike.refl (outer : Body) (definition : Definition) :
    Definition.Alike outer outer definition definition := by
  match definition with
  | .comment text => exact .comment outer outer text
  | .field definition => exact .field outer outer definition
  | .method definition => exact .method outer outer definition
  | .package ⟨_, _, body⟩ => exact .package outer outer rfl rfl (.refl body)
  | .class ⟨_, _, _, _, _, body⟩ => exact .class rfl rfl rfl rfl rfl (.refl body)
  | .object ⟨_, _, body⟩ => exact .object rfl rfl (.refl body)

/-- A body is like itself. -/
theorem Body.Alike.refl (body : Body) : Body.Alike body body := by
  match body with
  | ⟨items, madeUp⟩ =>
    refine .intro (items.map fun definition => (definition, definition)) ?_ ?_
      (alike_refl_of_mem ⟨items, madeUp⟩ items)
    · simp [Function.comp_def]
    · simp [Function.comp_def]

/-- Definitions paired off with themselves are alike. -/
theorem alike_refl_of_mem (outer : Body) (definitions : List Definition) :
    ∀ pair ∈ definitions.map fun definition => (definition, definition),
      Definition.Alike outer outer pair.1 pair.2 := by
  match definitions with
  | [] => exact fun pair hpair => absurd hpair (List.not_mem_nil)
  | definition :: rest =>
    intro pair hpair
    rcases List.mem_cons.mp hpair with rfl | hrest
    · exact .refl outer definition
    · exact alike_refl_of_mem outer rest pair hrest

end

/-! ### Definitions with and without companions -/

/-- Whether the definition never has a companion. -/
def Definition.isLoose (definition : Definition) : Bool :=
  definition.label.partner?.isNone

/-- What never has a companion is alike wherever it stands. -/
theorem Definition.alike_of_isLoose (outer outer' : Body) {definition : Definition}
    (h : definition.isLoose = true) : Definition.Alike outer outer' definition definition := by
  cases definition with
  | comment text => exact .comment outer outer' text
  | package definition => exact .package outer outer' rfl rfl (.refl _)
  | field definition => exact .field outer outer' definition
  | method definition => exact .method outer outer' definition
  | _ => cases h

/-- What may have a companion holds other definitions. -/
theorem Definition.isContainer_of_partner? {definition : Definition}
    (h : definition.label.partner?.isSome = true) : definition.isContainer = true := by
  cases hc : definition.isContainer with
  | true => rfl
  | false =>
    rw [Body.partner?_of_not_container hc] at h
    cases h

/-- Definitions that are alike without their links are alike with links that lead to the same. -/
theorem Definition.Alike.of_unlinked {body body' : Body} {definition definition' : Definition}
    (h : Definition.Alike .empty .empty definition.unlinked definition'.unlinked)
    (hlabel : body.companionLabel? definition = body'.companionLabel? definition') :
    Definition.Alike body body' definition definition' := by
  cases definition <;> cases definition' <;> simp only [unlinked] at h <;> cases h
  · exact .comment body body' _
  · rename_i hname hnamespace hbody
    exact .package body body' hname hnamespace hbody
  · rename_i hname htypes hparents htrait hbody _
    exact .class hname htypes hparents htrait hlabel hbody
  · rename_i hname hbody _
    exact .object hname hlabel hbody
  · exact .field body body' _
  · exact .method body body' _

/-- Two views are alike: there is nothing in either, or there are definitions that are alike. -/
inductive ViewsAlike : Option Definition → Option Definition → Prop where
  | none : ViewsAlike none none
  | some {definition definition' : Definition} :
      Definition.Alike .empty .empty definition definition' →
      ViewsAlike (some definition) (some definition')

/-- If views are alike, there is something in both or in neither. -/
theorem ViewsAlike.isSome_eq {first second : Option Definition} (h : ViewsAlike first second) :
    first.isSome = second.isSome := by
  cases h <;> rfl

namespace Body

/-- The definitions that never have a companion, in order. -/
def loose (body : Body) : List Definition :=
  body.items.filter Definition.isLoose

/-- The definitions that may have a companion, in order. -/
def bound (body : Body) : List Definition :=
  body.items.filter fun definition => !definition.isLoose

/-- What may have a companion has a label with a partner. -/
theorem isSome_partner?_of_mem_bound {body : Body} {definition : Definition}
    (h : definition ∈ body.bound) : definition.label.partner?.isSome = true := by
  have hloose := (List.mem_filter.mp h).2
  rwa [Definition.isLoose, Option.not_isNone] at hloose

namespace Linked

variable {body : Body}

/-- A link leads to the label that it is called for by, if there is something under that. -/
theorem companionLabel?_eq (h : body.Linked) {definition : Definition}
    (hd : definition ∈ body.items) : body.companionLabel? definition
      = definition.label.partner?.filter fun label => (body.view label).isSome := by
  obtain ⟨index, hindex⟩ := List.getElem?_of_mem hd
  rw [companionLabel?, h.link index definition hindex]
  cases definition.label.partner? with
  | none => rfl
  | some partner =>
    rw [Option.bind_some, Option.filter_some, view]
    cases hfound : body.indexOf? partner with
    | none => rfl
    | some position =>
      obtain ⟨found, hget, hl⟩ := get?_of_indexOf? hfound
      rw [Option.bind_some, Option.bind_some, getElem?_labels, hget, Option.map_some, hl]
      rfl

/-- The view under the label of a definition that may have a companion shows that definition. -/
theorem view_label (h : body.Linked) {definition : Definition} (hd : definition ∈ body.bound) :
    (body.indexOf? definition.label).bind body.get? = some definition := by
  obtain ⟨index, hindex⟩ := List.getElem?_of_mem (List.mem_filter.mp hd).1
  rw [h.indexOf?_label hindex
    (Definition.isContainer_of_partner? (isSome_partner?_of_mem_bound hd)), Option.bind_some]
  exact hindex

/-- No two definitions that may have companions share a label. -/
theorem nodup_labels (h : body.Linked) : (body.bound.map Definition.label).Nodup := by
  have hitems : body.items.Pairwise fun first second =>
      first.isContainer = true → first.label ≠ second.label := by
    rw [List.pairwise_iff_getElem]
    intro i j hi hj hlt hc hl
    have heq := h.unique i j body.items[i] body.items[j] (List.getElem?_eq_getElem hi)
      (List.getElem?_eq_getElem hj) hc hl
    exact absurd heq (Nat.ne_of_lt hlt)
  rw [List.Nodup, List.pairwise_map]
  refine (hitems.filter _).imp_of_mem fun {first _} hfirst _ hne => ?_
  exact hne (Definition.isContainer_of_partner? (isSome_partner?_of_mem_bound hfirst))

/-- The labels of definitions that may have companions are the labels with views. -/
theorem mem_labels_bound {label : Label} : label ∈ body.bound.map Definition.label
    ↔ label.partner?.isSome = true ∧ (body.view label).isSome = true := by
  rw [List.mem_map]
  constructor
  · rintro ⟨definition, hd, rfl⟩
    refine ⟨isSome_partner?_of_mem_bound hd, ?_⟩
    cases hview : body.view definition.label with
    | some _ => rfl
    | none =>
      obtain ⟨index, hindex⟩ := List.getElem?_of_mem (List.mem_filter.mp hd).1
      exact absurd rfl (indexOf?_eq_none.mp (view_eq_none.mp hview) index definition hindex)
  · rintro ⟨hpartner, hview⟩
    obtain ⟨found, hfound⟩ := Option.isSome_iff_exists.mp hview
    obtain ⟨definition, hbind, -⟩ := Option.map_eq_some_iff.mp hfound
    obtain ⟨index, hindex, hd⟩ := Option.bind_eq_some_iff.mp hbind
    obtain ⟨other, hother, hl⟩ := get?_of_indexOf? hindex
    cases hd.symm.trans hother
    refine ⟨definition, List.mem_filter.mpr ⟨List.mem_of_getElem? hd, ?_⟩, hl⟩
    rw [Definition.isLoose, hl, Option.not_isNone]
    exact hpartner

end Linked

/-- The definition under a label, for labels that something stands under. -/
def standing (body : Body) (label : Label) : Definition :=
  ((body.indexOf? label).bind body.get?).getD (.comment "")

/-- The definitions that may have companions are found under their labels. -/
theorem Linked.map_standing {body : Body} (h : body.Linked) :
    (body.bound.map Definition.label).map body.standing = body.bound := by
  rw [List.map_map]
  refine (List.map_congr_left fun definition hd => ?_).trans (List.map_id _)
  rw [Function.comp_apply, standing, h.view_label hd, Option.getD_some, id]

/-- Linked bodies are alike if what has no companion is the same up to order, and if what stands
under the labels that call for companions is alike. -/
theorem alike_of_views {body body' : Body} (h : body.Linked) (h' : body'.Linked)
    (hloose : body.loose.Perm body'.loose)
    (hviews : ∀ label : Label, label.partner?.isSome = true →
      ViewsAlike (body.view label) (body'.view label)) : body.Alike body' := by
  have hlabels : (body.bound.map Definition.label).Perm (body'.bound.map Definition.label) := by
    refine (List.perm_ext_iff_of_nodup h.nodup_labels h'.nodup_labels).mpr fun label => ?_
    rw [Linked.mem_labels_bound, Linked.mem_labels_bound]
    refine and_congr_right fun hpartner => ?_
    rw [(hviews label hpartner).isSome_eq]
  -- Loose definitions are paired with themselves, the others by their labels.
  refine .intro (body'.loose.map (fun definition => (definition, definition))
    ++ (body.bound.map Definition.label).map fun label =>
      (body.standing label, body'.standing label)) ?_ ?_ fun pair hpair => ?_
  · rw [List.map_append, List.map_map, List.map_map]
    refine (List.filter_append_perm Definition.isLoose body.items).symm.trans ?_
    refine List.Perm.append ?_ (List.Perm.of_eq h.map_standing.symm)
    exact hloose.trans (List.Perm.of_eq (List.map_id _).symm)
  · rw [List.map_append, List.map_map, List.map_map]
    refine (List.filter_append_perm Definition.isLoose body'.items).symm.trans ?_
    refine List.Perm.append (List.Perm.of_eq (List.map_id _).symm) ?_
    exact (List.Perm.of_eq h'.map_standing.symm).trans (hlabels.symm.map body'.standing)
  · rcases List.mem_append.mp hpair with hin | hin
    · obtain ⟨definition, hd, rfl⟩ := List.mem_map.mp hin
      exact Definition.alike_of_isLoose body body' (List.mem_filter.mp hd).2
    · obtain ⟨label, hlabel, rfl⟩ := List.mem_map.mp hin
      obtain ⟨definition, hd, rfl⟩ := List.mem_map.mp hlabel
      obtain ⟨definition', hd', hl⟩ := List.mem_map.mp (hlabels.subset hlabel)
      have hpartner := isSome_partner?_of_mem_bound hd
      have halike := hviews definition.label hpartner
      have hsecond := h'.view_label hd'
      rw [hl] at hsecond
      rw [view, h.view_label hd, view, hsecond] at halike
      simp only [standing, h.view_label hd, hsecond, Option.getD_some]
      cases halike with
      | some hsame =>
        -- The views leave the links out, but in linked bodies the labels of companions say the
        -- same.
        refine hsame.of_unlinked ?_
        rw [h.companionLabel?_eq (List.mem_filter.mp hd).1,
          h'.companionLabel?_eq (List.mem_filter.mp hd').1, hl]
        cases hp : definition.label.partner? with
        | none => rfl
        | some partner =>
          have hback := Label.partner?_eq_some hp
          rw [Option.filter_some, Option.filter_some,
            (hviews partner (by rw [hback]; rfl)).isSome_eq]

end Body

end Facade
