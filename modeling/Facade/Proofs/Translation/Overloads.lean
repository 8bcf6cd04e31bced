import Facade.Proofs.Translation.Containers

/-!
# Where methods come from

Methods come into a facade together: a signature makes one for every number of arguments, and all of
them go to the end of one body. So the methods of a container are those of some `Overloads`, one
after the other, and what is true of every container comes down to what is true of each of these at
the place where it stands. `Body.Composed` says so for a condition on overloads and their `Site`;
each step of the translation keeps it if its edit enters only overloads that keep to the condition
(`Edit.Obeys`), and `Reaches.composed` is the induction over all steps.

A trait becomes a class with its first constructor, so a condition has to go on for what a trait
holds already.
-/

set_option autoImplicit false

namespace Facade

/-! ### The methods of a body -/

namespace Definition

/-- The method, if the definition is one. -/
def method? : Definition → Option Method
  | .method definition => some definition
  | _ => none

end Definition

/-- The methods that stand in a body itself, in order. -/
def Body.methods (body : Body) : List Method :=
  body.items.filterMap Definition.method?

/-- The methods of a signature: one name, and a list of parameters for every number of arguments. -/
structure Overloads where
  name : Identifier
  typeParameters : List Identifier
  alternatives : List (List MethodParameter)
  result : ScalaType

/-- The methods of overloads, one for each list of parameters. -/
def Overloads.methods (overloads : Overloads) : List Method :=
  overloads.alternatives.map fun parameters =>
    ⟨overloads.name, overloads.typeParameters, parameters, overloads.result⟩

/-- What a body belongs to. -/
inductive Site where
  | inPackage
  | inObject
  | inTrait
  | inClass

/-- The body of a definition that holds others, and what it belongs to. -/
def Definition.container? : Definition → Option (Site × Body)
  | .package definition => some (.inPackage, definition.body)
  | .class definition => some (if definition.isTrait then .inTrait else .inClass, definition.body)
  | .object definition => some (.inObject, definition.body)
  | _ => none

/-- The body that belongs to a site is the body of the definition. -/
theorem Definition.body?_of_container? {definition : Definition} {site : Site} {inner : Body}
    (h : definition.container? = some (site, inner)) : definition.body? = some inner := by
  cases definition <;> cases h <;> rfl

/-- Every body belongs to a site. -/
theorem Definition.exists_container? {definition : Definition} {inner : Body}
    (h : definition.body? = some inner) : ∃ site, definition.container? = some (site, inner) := by
  cases definition <;> cases h <;> exact ⟨_, rfl⟩

namespace Body

/-- To change a definition that is no method to another that is none changes no method. -/
theorem methods_modify (body : Body) (index : Nat) {f : Definition → Definition}
    (h : ∀ definition, (f definition).method? = definition.method?) :
    (body.modify index f).methods = body.methods := by
  rw [methods, methods, modify]
  generalize body.items = items
  induction items generalizing index with
  | nil => cases index <;> rfl
  | cons definition rest ih =>
    cases index with
    | zero => simp [List.filterMap_cons, h]
    | succ index => simp [List.filterMap_cons, ih]

/-- To admit a container brings no method. -/
theorem methods_enrol (body : Body) {definition : Definition} (h : definition.method? = none) :
    (body.enrol definition).methods = body.methods := by
  have hpush : (body.push definition).methods = body.methods := by
    rw [methods, push, List.filterMap_append, List.filterMap_cons, h]
    exact List.append_nil _
  unfold enrol
  split
  · exact hpush
  · rw [methods_modify _ _ fun other => by cases other <;> rfl, hpush]

end Body

/-- The overloads of an entry, given the name to use if it has none. -/
def Entry.overloads? (fresh : Identifier) : Entry → Option Overloads
  | .methods name typeParameters alternatives result =>
    some ⟨name.getD fresh, typeParameters, alternatives, result⟩
  | _ => none

/-- An entry adds the methods of its overloads. -/
theorem Body.methods_enter (body : Body) (entry : Entry) :
    (body.enter entry).methods
      = body.methods ++ (entry.overloads? body.makeUpName.1).toList.flatMap Overloads.methods := by
  rw [methods, enter, List.filterMap_append]
  refine congrArg (body.methods ++ ·) ?_
  cases entry with
  | comment text => rfl
  | field name type => rfl
  | methods name typeParameters alternatives result =>
    have hall : ∀ {α : Type} (f : α → Method) (all : List α),
        (all.map fun a => Definition.method (f a)).filterMap Definition.method? = all.map f := by
      intro α f all
      induction all with
      | nil => rfl
      | cons a rest ih => rw [List.map_cons, List.filterMap_cons, ih]; rfl
    simpa [Entry.definitions, Entry.overloads?, Overloads.methods] using hall _ alternatives

/-! ### Composed bodies -/

namespace Body

variable {rule : Site → Overloads → Prop} {site : Site} {body : Body}

/-- The methods of the body are those of overloads that keep to a condition, in order. -/
def Consists (post : Overloads → Prop) (body : Body) : Prop :=
  ∃ all : List Overloads, body.methods = all.flatMap Overloads.methods
    ∧ ∀ overloads ∈ all, post overloads

/-- The body consists of overloads that keep to a rule where they stand, and so do the containers in
it. -/
inductive Composed (rule : Site → Overloads → Prop) : Site → Body → Prop where
  | intro {site : Site} {body : Body} (here : body.Consists (rule site))
      (inside : ∀ i definition site' inner, body.get? i = some definition →
        definition.container? = some (site', inner) → Composed rule site' inner) :
      Composed rule site body

/-- A composed body consists of overloads that keep to the rule. -/
theorem Composed.here (h : body.Composed rule site) : body.Consists (rule site) := by
  cases h
  assumption

/-- The containers in a composed body are composed. -/
theorem Composed.inside (h : body.Composed rule site) {i : Nat} {definition : Definition}
    {site' : Site} {inner : Body} (hd : body.get? i = some definition)
    (hinner : definition.container? = some (site', inner)) : inner.Composed rule site' := by
  cases h with
  | intro _ inside => exact inside i definition site' inner hd hinner

/-- An empty body is composed. -/
theorem composed_empty : Body.empty.Composed rule site :=
  .intro ⟨[], rfl, fun _ hin => absurd hin List.not_mem_nil⟩
    fun i definition _ _ hd => by simp [get?, empty] at hd

/-- What a trait holds is right in a class. -/
theorem Composed.of_trait (htrait : ∀ overloads, rule .inTrait overloads → rule .inClass overloads)
    (h : body.Composed rule .inTrait) : body.Composed rule .inClass := by
  obtain ⟨all, hmethods, hall⟩ := h.here
  exact .intro ⟨all, hmethods, fun overloads hin => htrait overloads (hall overloads hin)⟩
    fun _ _ _ _ hd hinner => h.inside hd hinner

/-- A body stays composed when overloads that keep to the rule are entered. -/
theorem composed_enter (h : body.Composed rule site) {entry : Entry}
    (hentry : ∀ overloads ∈ entry.overloads? body.makeUpName.1, rule site overloads) :
    (body.enter entry).Composed rule site := by
  obtain ⟨all, hmethods, hall⟩ := h.here
  refine .intro ⟨all ++ (entry.overloads? body.makeUpName.1).toList, ?_, ?_⟩ ?_
  · rw [methods_enter, hmethods, List.flatMap_append]
  · refine List.forall_mem_append.mpr ⟨hall, fun overloads hin => hentry overloads ?_⟩
    exact Option.mem_toList.mp hin
  · intro i definition site' inner hd hinner
    rw [get?, enter, List.getElem?_append] at hd
    split at hd
    · exact h.inside hd hinner
    · have hleaf := Entry.isContainer_of_mem_definitions (List.mem_of_getElem? hd)
      rw [Definition.isContainer, Definition.body?_of_container? hinner] at hleaf
      cases hleaf

/-- A new container with nothing in it may be admitted. -/
theorem composed_enrol (h : body.Composed rule site) {definition : Definition}
    (hempty : definition.body? = some .empty) : (body.enrol definition).Composed rule site := by
  refine .intro ?_ fun i found site' inner hi hinner => ?_
  · have hnone : definition.method? = none := by
      cases definition <;> first | rfl | cases hempty
    rw [Consists, methods_enrol body hnone]
    exact h.here
  · rcases get?_enrol hi with ⟨-, rfl⟩ | ⟨old, ho, -, rfl⟩ | ⟨ho, -⟩
    · cases hempty.symm.trans (Definition.body?_of_container? hinner)
      exact composed_empty
    · exact h.inside ho (by cases old <;> exact hinner)
    · exact h.inside ho hinner

/-- A body stays composed when a container is opened. -/
theorem Opens.composed {fresh : Definition} {opened : Nat × Body}
    (h : body.Opens fresh opened) (hb : body.Composed rule site) :
    opened.2.Composed rule site := by
  cases h with
  | found _ => exact hb
  | added _ hempty _ _ => exact composed_enrol hb hempty

/-- A container may be changed in place to one that is composed. -/
theorem composed_modify (h : body.Composed rule site) {index : Nat} {f : Definition → Definition}
    (hmethod : ∀ definition, (f definition).method? = definition.method?)
    (hcontainer : ∀ definition site' inner, body.get? index = some definition →
      (f definition).container? = some (site', inner) → inner.Composed rule site') :
    (body.modify index f).Composed rule site := by
  refine .intro ?_ fun i found site' inner hi hinner => ?_
  · rw [Consists, methods_modify body index hmethod]
    exact h.here
  · rw [get?_modify] at hi
    split at hi
    · rename_i heq
      subst heq
      obtain ⟨old, hold, rfl⟩ := Option.map_eq_some_iff.mp hi
      exact hcontainer old site' inner hold hinner
    · exact h.inside hi hinner

end Body

/-! ### What an edit enters -/

/-- A name that is made up for something that came without one. -/
def Identifier.IsMadeUp (name : Identifier) : Prop :=
  ∃ count : Nat, name = ⟨"anonymous$" ++ toString count⟩

/-- The name that a body makes up is one that is made up. -/
theorem Body.isMadeUp_makeUpName (body : Body) : body.makeUpName.1.IsMadeUp :=
  ⟨_, rfl⟩

/-- The overloads of an entry, with whatever name is made up for it, keep to a condition. -/
def Entry.Obeys (post : Overloads → Prop) (entry : Entry) : Prop :=
  ∀ fresh : Identifier, fresh.IsMadeUp → ∀ overloads ∈ entry.overloads? fresh, post overloads

/-- The overloads that an edit enters keep to a rule where they stand. -/
def Edit.Obeys (rule : Site → Overloads → Prop) : Edit → Prop
  | .here entry => entry.Obeys (rule .inPackage)
  | .onClass _ (.enter entry) => entry.Obeys (rule .inTrait)
  | .onClass _ (.header _ _) => True
  | .onClass _ (.constructors alternatives) => rule .inClass ⟨.constructor, [], alternatives, .unit⟩
  | .onClass _ (.adopt _ alternatives) => rule .inClass ⟨.constructor, [], alternatives, .unit⟩
  | .object _ => True
  | .inObject _ entry => entry.Obeys (rule .inObject)

namespace Body

variable {rule : Site → Overloads → Prop} {site : Site} {body : Body}

/-- A body stays composed when an entry is entered that obeys the rule. -/
theorem composed_enter_of_obeys (h : body.Composed rule site) {entry : Entry}
    (hentry : entry.Obeys (rule site)) : (body.enter entry).Composed rule site :=
  composed_enter h (hentry _ body.isMadeUp_makeUpName)

/-- A class that is given constructors is no trait any more, and holds what it held. -/
theorem composed_withConstructors
    (htrait : ∀ overloads, rule .inTrait overloads → rule .inClass overloads)
    {definition : ClassDefinition} {alternatives : List (List MethodParameter)}
    (h : definition.body.Composed rule (if definition.isTrait then .inTrait else .inClass))
    (hrule : rule .inClass ⟨.constructor, [], alternatives, .unit⟩) :
    (definition.withConstructors alternatives).body.Composed rule .inClass := by
  -- What the trait held obeys the rule of classes as well.
  have hclass : definition.body.Composed rule .inClass := by
    split at h
    · exact h.of_trait htrait
    · exact h
  refine composed_enter hclass fun overloads hin => ?_
  cases hin
  exact hrule

/-- A change of a class that obeys a rule leaves its body composed. -/
theorem composed_change (htrait : ∀ overloads, rule .inTrait overloads → rule .inClass overloads)
    {name : Identifier} {change : ClassChange} (hchange : (Edit.onClass name change).Obeys rule)
    {definition : ClassDefinition}
    (h : definition.body.Composed rule (if definition.isTrait then .inTrait else .inClass)) :
    (change.apply definition).body.Composed rule
      (if (change.apply definition).isTrait then .inTrait else .inClass) := by
  cases change with
  | enter entry =>
    refine composed_enter_of_obeys h fun fresh hfresh overloads hin => ?_
    have hrule := hchange fresh hfresh overloads hin
    show rule (if definition.isTrait then .inTrait else .inClass) overloads
    split
    · exact hrule
    · exact htrait overloads hrule
  | header typeParameters parents => exact h
  | constructors alternatives => exact composed_withConstructors htrait h hchange
  | adopt own alternatives => exact composed_withConstructors htrait h hchange

/-- A body stays composed behind an edit that obeys the rule, if the rule asks no more of a class
than of a trait. -/
theorem composed_edit (htrait : ∀ overloads, rule .inTrait overloads → rule .inClass overloads)
    (h : body.Composed rule .inPackage) {edit : Edit} (hedit : edit.Obeys rule) :
    (edit.apply body).Composed rule .inPackage := by
  cases edit with
  | here entry => exact composed_enter_of_obeys h hedit
  | onClass name change =>
    have hopened := (body.opens_openClass name).composed h
    refine composed_modify hopened (fun definition => by cases definition <;> rfl) ?_
    intro definition site' inner hd hinner
    have hclass := get?_of_class? (body.openClass_class? name)
    cases hd.symm.trans hclass
    cases hinner
    exact composed_change htrait hedit (hopened.inside hclass rfl)
  | object name => exact (body.opens_openObject name).composed h
  | inObject name entry =>
    have hopened := (body.opens_openObject name).composed h
    refine composed_modify hopened (fun definition => by cases definition <;> rfl) ?_
    intro definition site' inner hd hinner
    have hobject := get?_of_object? (body.openObject_object? name)
    cases hd.symm.trans hobject
    cases hinner
    exact composed_enter_of_obeys (hopened.inside hobject rfl) hedit

/-- A package that is there or new is composed. -/
theorem composed_packageOrNew (h : body.Composed rule site) (name : Identifier) :
    (body.packageOrNew name).body.Composed rule .inPackage :=
  ((body.opens_openPackage name).composed h).inside
    (get?_of_package? (body.openPackage_package? name)) rfl

/-- A body stays composed when a package is filled with what is composed. -/
theorem composed_fillPackage {inner : Body} (h : body.Composed rule site)
    (hinner : inner.Composed rule .inPackage) (name : Identifier) (isNamespace : Bool) :
    (body.fillPackage name isNamespace inner).Composed rule site := by
  refine composed_modify ((body.opens_openPackage name).composed h)
    (fun definition => by cases definition <;> rfl) fun definition site' found hd hfound => ?_
  cases hd.symm.trans (get?_of_package? (body.openPackage_package? name))
  cases hfound
  exact hinner

/-- No step of the translation breaks a composed body, if its edits obey the rule. -/
theorem Reaches.composed (htrait : ∀ overloads, rule .inTrait overloads → rule .inClass overloads)
    {before after : Body} (h : before.Reaches (Edit.Obeys rule) after)
    (hb : before.Composed rule .inPackage) : after.Composed rule .inPackage := by
  induction h with
  | refl => exact hb
  | edit hedit _ ih => exact composed_edit htrait (ih hb) hedit
  | package name isNamespace _ _ ih ihinner =>
    have hinner := ihinner (composed_packageOrNew (ih hb) name)
    exact composed_fillPackage (ih hb) hinner name isNamespace

/-- Every container inside a composed body is composed, at the site that it has there. -/
theorem Contains.composed {outer container : Body} (hc : outer.Contains container)
    (h : outer.Composed rule site) : ∃ site', container.Composed rule site' := by
  induction hc generalizing site with
  | self => exact ⟨site, h⟩
  | inside hd hinner _ ih =>
    obtain ⟨i, hi⟩ := List.getElem?_of_mem hd
    obtain ⟨site', hsite⟩ := Definition.exists_container? hinner
    exact ih (h.inside hi hsite)

end Body

end Facade
