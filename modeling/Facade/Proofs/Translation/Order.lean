import Facade.Proofs.Definition.Alike
import Facade.Proofs.Translation.Containers
import Facade.Proofs.Translation.Steps

/-!
# The order of declarations does not matter

A class may be made by its own declaration, or before that by a construct signature of its object,
and then find its header later. `alike_applyAll` says that this makes no difference: steps that come
in another order lead to a body that is the same up to the order of its definitions.

The proof does not commute steps. It reads off what stands in a body after any number of steps, in a
form that does not mention their order: the definitions without companions are those that were
added, the class of a name is what its changes make of a new class, and the object of a name holds
what was entered into it. For a class this needs `Coherent`: all headers and adoptions bring the
same type parameters, and there is one header at most. Its parents are then those of the header,
whether that comes first or last.
-/

set_option autoImplicit false

namespace Facade

/-! ### What comes without a name -/

/-- Whether the change enters something for which a name has to be made up. -/
def ClassChange.isNameless : ClassChange → Bool
  | .enter entry => entry.isNameless
  | _ => false

/-- Whether the edit enters something for which a name has to be made up. -/
def Edit.isNameless : Edit → Bool
  | .here entry => entry.isNameless
  | .onClass _ change => change.isNameless
  | .object _ => false
  | .inObject _ entry => entry.isNameless

/-- The definitions of an entry with a name of its own. -/
def Entry.ownDefinitions (entry : Entry) : List Definition :=
  entry.definitions ⟨""⟩

/-- Where no name has to be made up, the definitions do not depend on it. -/
theorem Entry.definitions_eq {entry : Entry} (h : entry.isNameless = false)
    (fresh : Identifier) : entry.definitions fresh = entry.ownDefinitions := by
  cases entry with
  | comment text => rfl
  | field name type =>
    cases name with
    | none => cases h
    | some name => rfl
  | methods name typeParameters alternatives result =>
    cases name with
    | none => cases h
    | some name => rfl

/-- An entry with a name adds its own definitions at the end. -/
theorem Body.items_enter {entry : Entry} (h : entry.isNameless = false) (body : Body) :
    (body.enter entry).items = body.items ++ entry.ownDefinitions := by
  rw [enter, Entry.definitions_eq h]

/-! ### Changes of one class -/

namespace ClassChange

/-- The parents of a header. -/
def header? : ClassChange → Option (List ScalaType)
  | .header _ parents => some parents
  | _ => none

/-- The type parameters that a change brings to a class. -/
def own? : ClassChange → Option (List Identifier)
  | .header new _ => some new
  | .adopt own _ => some own
  | _ => none

/-- Whether the class stays a trait. -/
def keepsTrait : ClassChange → Bool
  | .enter _ => true
  | .header _ _ => true
  | .constructors _ => false
  | .adopt _ _ => false

/-- What a change adds to the body of the class. -/
def added : ClassChange → List Definition
  | .enter entry => entry.ownDefinitions
  | .header _ _ => []
  | .constructors alternatives =>
    (Entry.methods (some .constructor) [] alternatives .unit).ownDefinitions
  | .adopt _ alternatives =>
    (Entry.methods (some .constructor) [] alternatives .unit).ownDefinitions

/-- A class behind changes, one after the other. -/
def applyAll (changes : List ClassChange) (definition : ClassDefinition) : ClassDefinition :=
  changes.foldl apply definition

/-- The first of several changes is made first. -/
@[simp] theorem applyAll_cons (change : ClassChange) (rest : List ClassChange)
    (definition : ClassDefinition) :
    applyAll (change :: rest) definition = applyAll rest (change.apply definition) := rfl

/-- All that is brought to a class are the same type parameters, each once, and there is one header
at most. -/
structure Coherent (own : List Identifier) (changes : List ClassChange) : Prop where
  nodup : own.Nodup
  own_eq : ∀ change ∈ changes, ∀ brought, change.own? = some brought → brought = own
  header : (changes.filterMap header?).length ≤ 1
  named : ∀ change ∈ changes, change.isNameless = false

/-- Whether changes are coherent does not depend on their order. -/
theorem Coherent.perm {own : List Identifier} {changes changes' : List ClassChange}
    (h : Coherent own changes) (hperm : changes.Perm changes') : Coherent own changes' where
  nodup := h.nodup
  own_eq change hchange := h.own_eq change (hperm.mem_iff.mpr hchange)
  header := by rw [← (hperm.filterMap header?).length_eq]; exact h.header
  named change hchange := h.named change (hperm.mem_iff.mpr hchange)

variable {own : List Identifier}

/-- Changes leave the name of a class. -/
@[simp] theorem name_applyAll (changes : List ClassChange) (definition : ClassDefinition) :
    (applyAll changes definition).name = definition.name := by
  induction changes generalizing definition with
  | nil => rfl
  | cons change rest ih => rw [applyAll_cons, ih, name_apply]

/-- They leave its link as well. -/
@[simp] theorem companion_applyAll (changes : List ClassChange) (definition : ClassDefinition) :
    (applyAll changes definition).companion = definition.companion := by
  induction changes generalizing definition with
  | nil => rfl
  | cons change rest ih => rw [applyAll_cons, ih, companion_apply]

/-- A class stays a trait if all changes leave it one. -/
theorem isTrait_applyAll (changes : List ClassChange) (definition : ClassDefinition) :
    (applyAll changes definition).isTrait
      = (definition.isTrait && changes.all keepsTrait) := by
  induction changes generalizing definition with
  | nil => simp [applyAll]
  | cons change rest ih =>
    rw [applyAll_cons, ih, List.all_cons, ← Bool.and_assoc]
    congr 1
    cases change <;> simp [apply, keepsTrait, ClassDefinition.addHeader,
      ClassDefinition.withConstructors]

/-- The body of a class grows by what each change adds, in order. -/
theorem items_applyAll {changes : List ClassChange}
    (h : ∀ change ∈ changes, change.isNameless = false) (definition : ClassDefinition) :
    (applyAll changes definition).body.items
      = definition.body.items ++ changes.flatMap added := by
  induction changes generalizing definition with
  | nil => simp [applyAll]
  | cons change rest ih =>
    have hfirst : (change.apply definition).body.items
        = definition.body.items ++ change.added := by
      cases change with
      | enter entry => exact Body.items_enter (h _ List.mem_cons_self) definition.body
      | header new parents => exact (List.append_nil _).symm
      | constructors alternatives => exact Body.items_enter rfl definition.body
      | adopt own alternatives => exact Body.items_enter rfl definition.body
    rw [applyAll_cons, ih (fun other hother => h other (List.mem_cons_of_mem _ hother)), hfirst,
      List.flatMap_cons, List.append_assoc]

/-- The type parameters are there as soon as a change has brought them. -/
theorem typeParameters_applyAll {changes : List ClassChange} (hnodup : own.Nodup)
    (hown : ∀ change ∈ changes, ∀ brought, change.own? = some brought → brought = own)
    {definition : ClassDefinition}
    (hpresent : definition.typeParameters = own ∨ definition.typeParameters = []) :
    (applyAll changes definition).typeParameters
      = if changes.any fun change => change.own?.isSome then own
        else definition.typeParameters := by
  induction changes generalizing definition with
  | nil => simp [applyAll]
  | cons change rest ih =>
    have hrest := fun other hother => hown other (List.mem_cons_of_mem change hother)
    have hfirst : (change.apply definition).typeParameters
        = if change.own?.isSome then own else definition.typeParameters := by
      rw [typeParameters_apply]
      cases change with
      | header new parents =>
        cases hown _ List.mem_cons_self new rfl
        exact ClassDefinition.addMissing_self hnodup hpresent
      | adopt brought alternatives =>
        cases hown _ List.mem_cons_self brought rfl
        rcases hpresent with hsame | hnone
        · simp [typeParameters, hsame, own?]
        · simp [typeParameters, hnone, own?]
      | _ => rfl
    -- The other changes start from `own` or from nothing again.
    have hstill : (change.apply definition).typeParameters = own
        ∨ (change.apply definition).typeParameters = [] := by
      rw [hfirst]
      split
      · exact .inl rfl
      · exact hpresent
    rw [applyAll_cons, ih hrest hstill, hfirst, List.any_cons]
    cases change.own?.isSome <;> simp

/-! ### Parents -/

/-- The parents that a header gives to a class without declared parents. -/
def declaredParents (parents : List ScalaType) : List ScalaType :=
  if parents.isEmpty then [.object] else ClassDefinition.addMissing [] parents

/-- To add what is missing takes nothing away. -/
theorem addMissing_ne_nil {present new : List ScalaType} (h : present ≠ []) :
    ClassDefinition.addMissing present new ≠ [] := by
  induction new generalizing present with
  | nil => exact h
  | cons item rest ih =>
    rw [ClassDefinition.addMissing, List.foldl_cons]
    refine ih ?_
    split
    · exact h
    · simp

/-- A class always has a parent, since `js.Object` stands in for one. -/
theorem declaredParents_ne_nil (parents : List ScalaType) : declaredParents parents ≠ [] := by
  unfold declaredParents
  cases parents with
  | nil => simp
  | cons item rest =>
    rw [List.isEmpty_cons, if_neg (by simp), ClassDefinition.addMissing, List.foldl_cons]
    exact addMissing_ne_nil (by simp)

/-- Without a header, the parents stay once there are any. -/
theorem parents_applyAll_of_ne_nil {changes : List ClassChange}
    (hheader : changes.filterMap header? = []) {definition : ClassDefinition}
    (h : definition.parents ≠ []) :
    (applyAll changes definition).parents = definition.parents := by
  induction changes generalizing definition with
  | nil => rfl
  | cons change rest ih =>
    have hkeeps : (change.apply definition).parents = definition.parents := by
      cases change with
      | header new parents => cases hheader
      | adopt own alternatives =>
        exact if_neg fun hempty => h (List.isEmpty_iff.mp hempty)
      | _ => rfl
    have hrest : rest.filterMap header? = [] := by
      cases change with
      | header new parents => cases hheader
      | _ => exact hheader
    rw [applyAll_cons, ih hrest (hkeeps ▸ h), hkeeps]

/-- The parents of a class that is new: those of the header, or those that come with an adoption. -/
theorem parents_applyAll {changes : List ClassChange}
    (hheader : (changes.filterMap header?).length ≤ 1) {definition : ClassDefinition}
    (hnew : definition.parents = [] ∨ definition.parents = [.object]) :
    (applyAll changes definition).parents = match changes.filterMap header? with
      | parents :: _ => declaredParents parents
      | [] => if changes.any fun change => change.own?.isSome then [.object]
          else definition.parents := by
  induction changes generalizing definition with
  | nil => simp [applyAll]
  | cons change rest ih =>
    rw [applyAll_cons]
    cases change with
    | header new parents =>
      rw [List.filterMap_cons_some (show header? _ = some parents from rfl)] at hheader ⊢
      have hrest : rest.filterMap header? = [] :=
        List.length_eq_zero_iff.mp (Nat.le_zero.mp (Nat.le_of_succ_le_succ hheader))
      have hfirst : ((ClassChange.header new parents).apply definition).parents
          = declaredParents parents := by
        rcases hnew with hnone | hobject
        · simp [apply, ClassDefinition.addHeader, declaredParents, hnone]
        · simp [apply, ClassDefinition.addHeader, declaredParents, hobject]
      rw [parents_applyAll_of_ne_nil hrest (hfirst ▸ declaredParents_ne_nil parents), hfirst]
    | adopt own alternatives =>
      -- An adoption declares no parents, so a header behind it still brings its own.
      have hfirst : ((ClassChange.adopt own alternatives).apply definition).parents
          = [.object] := by
        rcases hnew with hnone | hobject
        · simp [apply, ClassDefinition.addHeader, ClassDefinition.withConstructors,
            ClassDefinition.withHeader, hnone]
        · simp [apply, ClassDefinition.addHeader, ClassDefinition.withConstructors,
            ClassDefinition.withHeader, hobject]
      rw [ih hheader (.inr hfirst), hfirst,
        List.filterMap_cons_none (show header? _ = none from rfl)]
      simp [own?]
    | enter entry =>
      have hfirst : ((ClassChange.enter entry).apply definition).parents = definition.parents :=
        rfl
      rw [ih hheader (hfirst ▸ hnew), hfirst,
        List.filterMap_cons_none (show header? _ = none from rfl)]
      simp [own?]
    | constructors alternatives =>
      have hfirst : ((ClassChange.constructors alternatives).apply definition).parents
          = definition.parents := rfl
      rw [ih hheader (hfirst ▸ hnew), hfirst,
        List.filterMap_cons_none (show header? _ = none from rfl)]
      simp [own?]

end ClassChange

/-! ### Bodies of leaves -/

/-- Bodies of leaves are alike if the leaves are the same up to order. -/
theorem Body.alike_of_loose {body body' : Body} (hperm : body.items.Perm body'.items)
    (hloose : ∀ definition ∈ body'.items, definition.isLoose = true) : body.Alike body' := by
  refine .intro (body'.items.map fun definition => (definition, definition)) ?_ ?_ ?_
  · rw [List.map_map]
    exact hperm.trans (List.Perm.of_eq (List.map_id _).symm)
  · rw [List.map_map]
    exact List.Perm.of_eq (List.map_id _).symm
  · intro pair hpair
    obtain ⟨definition, hd, rfl⟩ := List.mem_map.mp hpair
    exact Definition.alike_of_isLoose body body' (hloose definition hd)

/-- The definitions of an entry never have a companion. -/
theorem Entry.isLoose_of_mem {entry : Entry} {definition : Definition}
    (h : definition ∈ entry.ownDefinitions) : definition.isLoose = true := by
  rw [Definition.isLoose, Body.partner?_of_not_container (isContainer_of_mem_definitions h)]
  rfl

/-- Nor does what a change adds to a class. -/
theorem ClassChange.isLoose_of_mem_added {change : ClassChange} {definition : Definition}
    (h : definition ∈ change.added) : definition.isLoose = true := by
  cases change with
  | header new parents => cases h
  | _ => exact Entry.isLoose_of_mem h

/-- A new class is the same behind coherent changes in any order. -/
theorem ClassChange.alike_applyAll {own : List Identifier} {changes changes' : List ClassChange}
    (h : Coherent own changes) (hperm : changes.Perm changes') (name : Identifier) :
    Definition.Alike .empty .empty (.class (applyAll changes (.named name none)))
      (.class (applyAll changes' (.named name none))) := by
  have h' := h.perm hperm
  have hany : (changes.any fun change => change.own?.isSome)
      = changes'.any fun change => change.own?.isSome := by
    rw [Bool.eq_iff_iff, List.any_eq_true, List.any_eq_true]
    simp only [hperm.mem_iff]
  -- There is one header at most, so a permutation has the same list of headers.
  have hheaders : changes.filterMap header? = changes'.filterMap header? := by
    have hboth := hperm.filterMap header?
    have hlength := h'.header
    match hlist : changes'.filterMap header? with
    | [] => exact (hlist ▸ hboth).eq_nil
    | [parents] => exact List.perm_singleton.mp (hlist ▸ hboth)
    | _ :: _ :: _ =>
      rw [hlist] at hlength
      simp at hlength
  refine .class ?_ ?_ ?_ ?_ ?_ ?_
  · rw [name_applyAll, name_applyAll]
  · rw [typeParameters_applyAll h.nodup h.own_eq (.inr rfl),
      typeParameters_applyAll h'.nodup h'.own_eq (.inr rfl), hany]
  · rw [parents_applyAll h.header (.inl rfl), parents_applyAll h'.header (.inl rfl), hheaders,
      hany]
  · rw [isTrait_applyAll, isTrait_applyAll]
    congr 1
    rw [Bool.eq_iff_iff, List.all_eq_true, List.all_eq_true]
    simp only [hperm.mem_iff]
  · rw [Body.companionLabel?, Body.companionLabel?, Definition.link?, Definition.link?,
      companion_applyAll, companion_applyAll]
  · refine Body.alike_of_loose ?_ fun definition hd => ?_
    · rw [items_applyAll h.named, items_applyAll h'.named]
      exact (hperm.flatMap_right added).append_left _
    · rw [items_applyAll h'.named] at hd
      obtain ⟨change, -, hadded⟩ := List.mem_flatMap.mp
        ((List.mem_append.mp hd).resolve_left List.not_mem_nil)
      exact isLoose_of_mem_added hadded

/-! ### What stands in a body behind steps -/

namespace Step

/-- What a step adds to a body that never has a companion. -/
def added : Step → List Definition
  | .edit (.here entry) => entry.ownDefinitions
  | .edit _ => []
  | .package definition => [.package definition]

/-- Whether a step enters something for which a name has to be made up. -/
def isNameless : Step → Bool
  | .edit made => made.isNameless
  | .package _ => false

/-- The change that a step makes to the class of a name. -/
def change? (name : Identifier) : Step → Option ClassChange
  | .edit (.onClass other change) => if other = name then some change else none
  | _ => none

/-- What a step enters into the object of a name, if anything, where it is about that object. -/
def entered? (name : Identifier) : Step → Option (Option Entry)
  | .edit (.object other) => if other = name then some none else none
  | .edit (.inObject other entry) => if other = name then some (some entry) else none
  | _ => none

end Step

/-- The class behind the first change of it, and what was there before. -/
def ClassChange.revise (name : Identifier) (view : Option Definition) (change : ClassChange) :
    Option Definition :=
  some ((view.getD (.class (.named name none))).mapClass change.apply)

/-- The object behind the first entry, and what was there before. -/
def Entry.revise (name : Identifier) (view : Option Definition) (entry : Option Entry) :
    Option Definition :=
  some ((view.getD (.object (.named name none))).mapBody fun inner =>
    entry.elim inner inner.enter)

namespace Body

/-- The class of a name is seen as a step about it leaves it, and as it was behind every other
step. -/
theorem view_class_step (body : Body) (step : Step) (name : Identifier) :
    (step.apply body).view ⟨.class, some name⟩
      = (step.change? name).elim (body.view ⟨.class, some name⟩)
        (ClassChange.revise name (body.view ⟨.class, some name⟩)) := by
  cases step with
  | package definition =>
    have hne : (Definition.package definition).label ≠ ⟨.class, some name⟩ := fun heq => by
      cases congrArg Label.kind heq
    rw [Step.apply, view_push, if_neg hne, Option.or_none]
    rfl
  | edit made =>
    by_cases hmade : ∃ change, made = .onClass name change
    · obtain ⟨change, rfl⟩ := hmade
      rw [Step.apply, view_apply _ _ rfl, Step.change?, if_pos rfl]
      exact if_pos rfl
    · rw [Step.apply, view_class_of_ne fun change heq => hmade ⟨change, heq⟩]
      cases made with
      | onClass other change =>
        rw [Step.change?, if_neg fun heq => hmade ⟨change, by rw [heq]⟩, Option.elim_none]
      | _ => rfl

/-- So is the object of a name. -/
theorem view_object_step (body : Body) (step : Step) (name : Identifier) :
    (step.apply body).view ⟨.object, some name⟩
      = (step.entered? name).elim (body.view ⟨.object, some name⟩)
        (Entry.revise name (body.view ⟨.object, some name⟩)) := by
  have hother : ∀ {other : Identifier}, other ≠ name →
      ¬ (⟨.object, some name⟩ : Label) = ⟨.object, some other⟩ := fun hne heq =>
    hne (Option.some.inj (congrArg Label.name heq)).symm
  cases step with
  | package definition =>
    have hne : (Definition.package definition).label ≠ ⟨.object, some name⟩ := fun heq => by
      cases congrArg Label.kind heq
    rw [Step.apply, view_push, if_neg hne, Option.or_none]
    rfl
  | edit made =>
    rw [Step.apply, view_apply _ _ rfl]
    cases made with
    | here entry => rfl
    | onClass other change => exact if_neg fun heq => by cases congrArg Label.kind heq
    | object other =>
      by_cases heq : other = name
      · subst heq
        rw [Step.entered?, if_pos rfl]
        refine (if_pos rfl).trans ?_
        -- To open an object again enters nothing, so only whether it was there matters.
        cases hview : body.view ⟨.object, some other⟩ with
        | none => rfl
        | some definition =>
          rcases definition with _ | ⟨_, _, _⟩ | ⟨_, _, _, _, _, _⟩ | ⟨_, _, _⟩ | _ | _ <;> rfl
      · rw [Step.entered?, if_neg heq]
        exact if_neg (hother heq)
    | inObject other entry =>
      by_cases heq : other = name
      · subst heq
        rw [Step.entered?, if_pos rfl]
        exact if_pos rfl
      · rw [Step.entered?, if_neg heq]
        exact if_neg (hother heq)

/-- If every step revises a view by what it has for it, if anything, then steps revise the view by
all that they have for it, in turn. -/
theorem view_applyAll {α : Type} {label : Label} {part? : Step → Option α}
    {revise : Option Definition → α → Option Definition}
    (hstep : ∀ (body : Body) (step : Step), (step.apply body).view label
      = (part? step).elim (body.view label) (revise (body.view label)))
    (steps : List Step) (body : Body) :
    (Step.applyAll steps body).view label
      = (steps.filterMap part?).foldl revise (body.view label) := by
  induction steps generalizing body with
  | nil => rfl
  | cons step rest ih =>
    rw [Step.applyAll_cons, ih, hstep]
    cases hpart : part? step with
    | none => rw [List.filterMap_cons_none hpart, Option.elim_none]
    | some part => rw [List.filterMap_cons_some hpart, List.foldl_cons, Option.elim_some]

/-- The class of a name is what its changes make of a new class. -/
theorem view_class_applyAll_empty (steps : List Step) (name : Identifier) :
    (Step.applyAll steps .empty).view ⟨.class, some name⟩
      = if (steps.filterMap (Step.change? name)).isEmpty then none
        else some (.class (ClassChange.applyAll (steps.filterMap (Step.change? name))
          (.named name none))) := by
  -- Once the class is there, a revision is the change itself.
  have hthere : ∀ (changes : List ClassChange) (definition : ClassDefinition),
      changes.foldl (ClassChange.revise name) (some (.class definition))
        = some (.class (ClassChange.applyAll changes definition)) := by
    intro changes
    induction changes with
    | nil => exact fun _ => rfl
    | cons change rest ih => exact fun definition => ih (change.apply definition)
  rw [view_applyAll fun body step => view_class_step body step name, view_empty]
  cases hchanges : steps.filterMap (Step.change? name) with
  | nil => rfl
  | cons change rest => exact hthere rest (change.apply (.named name none))

/-- The object of a name holds what was entered into it. -/
theorem view_object_applyAll_empty (steps : List Step) (name : Identifier) :
    (Step.applyAll steps .empty).view ⟨.object, some name⟩
      = if (steps.filterMap (Step.entered? name)).isEmpty then none
        else some (.object { ObjectDefinition.named name none with
          body := ((steps.filterMap (Step.entered? name)).filterMap id).foldl enter .empty }) := by
  -- Once the object is there, only what is entered counts, not that it was opened again.
  have hthere : ∀ (entries : List (Option Entry)) (inner : Body),
      entries.foldl (Entry.revise name)
          (some (.object { ObjectDefinition.named name none with body := inner }))
        = some (.object { ObjectDefinition.named name none with
            body := (entries.filterMap id).foldl enter inner }) := by
    intro entries
    induction entries with
    | nil => exact fun _ => rfl
    | cons entry rest ih =>
      intro inner
      cases entry with
      | none => exact ih inner
      | some entry => exact ih (inner.enter entry)
  rw [view_applyAll fun body step => view_object_step body step name, view_empty]
  cases hentries : steps.filterMap (Step.entered? name) with
  | nil => rfl
  | cons entry rest =>
    cases entry with
    | none => exact hthere rest .empty
    | some entry => exact hthere rest (Body.empty.enter entry)

/-! ### What never has a companion -/

/-- A change in place of what may have a companion does not show. -/
theorem loose_modify {body : Body} {index : Nat} {f : Definition → Definition}
    (hlabel : ∀ definition, (f definition).label = definition.label)
    (hbound : ∀ definition, body.get? index = some definition → definition.isLoose = false) :
    (body.modify index f).loose = body.loose := by
  have hlist : ∀ (items : List Definition) (index : Nat),
      (∀ definition, items[index]? = some definition → definition.isLoose = false) →
      (items.modify index f).filter Definition.isLoose = items.filter Definition.isLoose := by
    intro items
    induction items with
    | nil => intro index _; simp
    | cons first rest ih =>
      intro index h
      cases index with
      | zero =>
        -- The label decides whether a definition is loose, so the changed one is left out as well.
        have hfirst := h first rfl
        have hchanged : (f first).isLoose = false := by
          rw [Definition.isLoose, hlabel]
          exact hfirst
        rw [List.modify_zero_cons, List.filter_cons_of_neg (by simp [hchanged]),
          List.filter_cons_of_neg (by simp [hfirst])]
      | succ index =>
        rw [List.modify_succ_cons, List.filter_cons, List.filter_cons, ih index h]
  exact hlist body.items index hbound

/-- To open a class or an object adds nothing to what never has a companion. -/
theorem Opens.loose {body : Body} {fresh : Definition} {opened : Nat × Body}
    (h : body.Opens fresh opened) (hfresh : fresh.isLoose = false) :
    opened.2.loose = body.loose := by
  cases h with
  | found _ => rfl
  | @added definition hdefinition _ _ _ =>
    have hbound : definition.isLoose = false := by
      rw [← hfresh, ← hdefinition, Definition.isLoose, Definition.isLoose,
        Definition.label_unlinked]
    have hpush : (body.push definition).loose = body.loose := by
      rw [Body.loose, push, List.filter_append,
        List.filter_cons_of_neg (by simp [hbound]), List.filter_nil, List.append_nil]
      rfl
    unfold enrol
    split
    · exact hpush
    · rename_i partner hpartner
      rw [loose_modify (fun other => other.label_linkedTo _) fun other hother => ?_, hpush]
      -- The partner that is linked back may have a companion itself.
      obtain ⟨label, hlabel, hindex⟩ := Option.bind_eq_some_iff.mp hpartner
      obtain ⟨found, hfound, hl⟩ := get?_of_indexOf? hindex
      rw [get?_push_of_lt (lt_size_of_get? hfound)] at hother
      cases hother.symm.trans hfound
      rw [Definition.isLoose, hl, Label.partner?_eq_some hlabel]
      rfl

/-- To change what was opened does not show either. -/
theorem Opens.loose_modify {body : Body} {fresh : Definition} {opened : Nat × Body}
    (h : body.Opens fresh opened) (hfresh : fresh.isLoose = false) {f : Definition → Definition}
    (hlabel : ∀ definition, (f definition).label = definition.label) :
    (opened.2.modify opened.1 f).loose = body.loose := by
  rw [Body.loose_modify hlabel fun definition hd => ?_, h.loose hfresh]
  obtain ⟨found, hfound, hl⟩ := get?_of_indexOf? h.indexOf?
  cases hd.symm.trans hfound
  rw [Definition.isLoose, hl, ← Definition.isLoose, hfresh]

/-- What never has a companion grows by what a step adds. -/
theorem loose_step {step : Step} (h : step.isNameless = false) (body : Body) :
    (step.apply body).loose = body.loose ++ step.added := by
  cases step with
  | package definition =>
    rw [Step.apply, loose, push, List.filter_append]
    rfl
  | edit made =>
    cases made with
    | here entry =>
      have hkept : entry.ownDefinitions.filter Definition.isLoose = entry.ownDefinitions :=
        List.filter_eq_self.mpr fun _ hd => Entry.isLoose_of_mem hd
      show ((body.enter entry).items).filter _ = _
      rw [items_enter h, List.filter_append, hkept]
      rfl
    | onClass name change =>
      exact ((body.opens_openClass name).loose_modify rfl (Edit.label_mapClass change)).trans
        (List.append_nil _).symm
    | object name =>
      exact ((body.opens_openObject name).loose rfl).trans (List.append_nil _).symm
    | inObject name entry =>
      exact ((body.opens_openObject name).loose_modify rfl (Edit.label_mapBody _)).trans
        (List.append_nil _).symm

/-- Behind several steps, it has grown by what each of them adds, in order. -/
theorem loose_applyAll {steps : List Step} (h : ∀ step ∈ steps, step.isNameless = false)
    (body : Body) :
    (Step.applyAll steps body).loose = body.loose ++ steps.flatMap Step.added := by
  induction steps generalizing body with
  | nil => exact (List.append_nil _).symm
  | cons step rest ih =>
    rw [Step.applyAll_cons, ih fun other hother => h other (List.mem_cons_of_mem _ hother),
      loose_step (h step List.mem_cons_self), List.flatMap_cons, List.append_assoc]

/-- Behind several entries, a body has grown by the definitions of each, in order. -/
theorem items_foldl_enter {entries : List Entry}
    (h : ∀ entry ∈ entries, entry.isNameless = false) (body : Body) :
    (entries.foldl enter body).items = body.items ++ entries.flatMap Entry.ownDefinitions := by
  induction entries generalizing body with
  | nil => exact (List.append_nil _).symm
  | cons entry rest ih =>
    rw [List.foldl_cons, ih fun other hother => h other (List.mem_cons_of_mem _ hother),
      items_enter (h entry List.mem_cons_self), List.flatMap_cons, List.append_assoc]

end Body

/-! ### Steps in another order -/

namespace Step

/-- What steps do to the class of any name is coherent by a table, and no step needs a made-up
name. -/
structure Coherent (table : Identifier → List Identifier) (steps : List Step) : Prop where
  changes : ∀ name, ClassChange.Coherent (table name) (steps.filterMap (change? name))
  named : ∀ step ∈ steps, step.isNameless = false

/-- Whether steps are coherent does not depend on their order. -/
theorem Coherent.perm {table : Identifier → List Identifier} {steps steps' : List Step}
    (h : Coherent table steps) (hperm : steps.Perm steps') : Coherent table steps' where
  changes name := (h.changes name).perm (hperm.filterMap _)
  named step hstep := h.named step (hperm.mem_iff.mpr hstep)

/-- What is entered into an object is named, if no step needs a made-up name. -/
theorem Coherent.entries {table : Identifier → List Identifier} {steps : List Step}
    (h : Coherent table steps) (name : Identifier) :
    ∀ entry ∈ (steps.filterMap (entered? name)).filterMap id, entry.isNameless = false := by
  intro entry hentry
  obtain ⟨entered, hentered, hsome⟩ := List.mem_filterMap.mp hentry
  obtain ⟨step, hstep, hstepEntry⟩ := List.mem_filterMap.mp hentered
  have hnamed := h.named step hstep
  cases hsome
  cases step with
  | package definition => cases hstepEntry
  | edit made =>
    cases made with
    | object other => rw [entered?] at hstepEntry; split at hstepEntry <;> cases hstepEntry
    | inObject other inner =>
      rw [entered?] at hstepEntry
      split at hstepEntry <;> cases hstepEntry
      exact hnamed
    | _ => cases hstepEntry

variable {table : Identifier → List Identifier} {steps steps' : List Step}

/-- A list and the same list in another order are empty together. -/
theorem isEmpty_eq_of_perm {α : Type} {first second : List α} (h : first.Perm second) :
    first.isEmpty = second.isEmpty := by
  rw [Bool.eq_iff_iff, List.isEmpty_iff_length_eq_zero, List.isEmpty_iff_length_eq_zero,
    h.length_eq]

/-- Behind coherent steps in another order, the class of a name looks alike. -/
theorem viewsAlike_class (h : Coherent table steps) (hperm : steps.Perm steps')
    (name : Identifier) :
    ViewsAlike ((applyAll steps .empty).view ⟨.class, some name⟩)
      ((applyAll steps' .empty).view ⟨.class, some name⟩) := by
  have hchanges := hperm.filterMap (change? name)
  rw [Body.view_class_applyAll_empty, Body.view_class_applyAll_empty,
    isEmpty_eq_of_perm hchanges]
  split
  · exact .none
  · exact .some (ClassChange.alike_applyAll (h.changes name) hchanges name)

/-- So does the object of a name. -/
theorem viewsAlike_object (h : Coherent table steps) (hperm : steps.Perm steps')
    (name : Identifier) :
    ViewsAlike ((applyAll steps .empty).view ⟨.object, some name⟩)
      ((applyAll steps' .empty).view ⟨.object, some name⟩) := by
  have hentries := hperm.filterMap (entered? name)
  rw [Body.view_object_applyAll_empty, Body.view_object_applyAll_empty,
    isEmpty_eq_of_perm hentries]
  split
  · exact .none
  · refine .some (.object rfl rfl (Body.alike_of_loose ?_ fun definition hd => ?_))
    · rw [Body.items_foldl_enter (h.entries name), Body.items_foldl_enter
        ((h.perm hperm).entries name)]
      exact ((hentries.filterMap id).flatMap_right _).append_left _
    · rw [Body.items_foldl_enter ((h.perm hperm).entries name)] at hd
      obtain ⟨entry, -, hin⟩ := List.mem_flatMap.mp
        ((List.mem_append.mp hd).resolve_left List.not_mem_nil)
      exact Entry.isLoose_of_mem hin

/-- Coherent steps lead to the same body in any order, up to the order of its definitions. -/
theorem alike_applyAll (h : Coherent table steps) (hperm : steps.Perm steps')
    (hlinked : (applyAll steps .empty).Linked) (hlinked' : (applyAll steps' .empty).Linked) :
    (applyAll steps .empty).Alike (applyAll steps' .empty) := by
  refine Body.alike_of_views hlinked hlinked' ?_ fun label hpartner => ?_
  · rw [Body.loose_applyAll h.named, Body.loose_applyAll (h.perm hperm).named]
    exact (hperm.flatMap_right _).append_left _
  · -- A class or an object always has a name, so no view is looked up without one.
    have hnone : ∀ {body : Body} {kind : Kind}, (kind = .class ∨ kind = .object) →
        body.view ⟨kind, none⟩ = none := by
      intro body kind hkind
      cases hview : body.view ⟨kind, none⟩ with
      | none => rfl
      | some definition =>
        have hl := Body.label_of_view hview
        cases definition <;> rcases hkind with rfl | rfl <;>
          simp [Definition.label, Definition.kind, Definition.name?] at hl
    obtain ⟨kind, name⟩ := label
    cases name with
    | none =>
      cases kind with
      | «class» => rw [hnone (.inl rfl), hnone (.inl rfl)]; exact .none
      | object => rw [hnone (.inr rfl), hnone (.inr rfl)]; exact .none
      | _ => cases hpartner
    | some name =>
      cases kind with
      | «class» => exact viewsAlike_class h hperm name
      | object => exact viewsAlike_object h hperm name
      | _ => cases hpartner

end Step

end Facade
