import Facade.Proofs.Translation.Imports

/-!
# The header of a class

The header of a class, its type parameters and parents, grows with every declaration of the class:
what is not there yet is added, and `js.Object` stands in for parents until the first are declared.
A construct signature of the object of that name may open the class beforehand, and then takes the
type parameters of a declaration that comes later.

`merged_headers` says what comes of it: the header is that of all declarations of the class at once,
in order and with each item where it is first. The proof goes along the imports of a document. What
holds on the way is `Header.Behind`, where the only trace of a construct signature is that the type
parameters may be those foreseen, as long as no declaration has come.
-/

set_option autoImplicit false

namespace Facade

/-! ### Headers -/

namespace Declaration

/-- The types that a declaration of a class says the class extends. -/
def parents : Declaration → List TypeExpr
  | .interface _ _ parents _ => parents
  | .class _ _ parent interfaces _ => parent.toList ++ interfaces
  | _ => []

/-- The counterparts of the parents. -/
def mappedParents (declaration : Declaration) : List ScalaType :=
  (toScalaAll declaration.parents).value

/-- The names of the type parameters. -/
def parameterNames (declaration : Declaration) : List Identifier :=
  TypeParameter.identifiers declaration.typeParameters

/-- The parents have counterparts if there are parents. -/
theorem isEmpty_mappedParents (declaration : Declaration) :
    declaration.mappedParents.isEmpty = declaration.parents.isEmpty := by
  rw [mappedParents]
  cases declaration.parents with
  | nil => rw [toScalaAll]; rfl
  | cons type rest => rw [toScalaAll]; rfl

end Declaration

/-- The declarations of the class of a name among the imports into a package, in order. -/
def declaredAt (imports : List Import) (target : List Identifier) (name : Identifier) :
    List Declaration :=
  (imports.filter fun found =>
    found.target = target && found.declaration.className? = some name.raw).map Import.declaration

/-- The declarations of a class among imports in a row are those of the first and then those of the
others. -/
theorem declaredAt_append (front back : List Import) (target : List Identifier)
    (name : Identifier) :
    declaredAt (front ++ back) target name
      = declaredAt front target name ++ declaredAt back target name := by
  rw [declaredAt, List.filter_append, List.map_append]
  rfl

/-- Imports into other packages declare no class here. -/
theorem declaredAt_eq_nil {imports : List Import} {target : List Identifier}
    (h : ∀ found ∈ imports, found.target ≠ target) (name : Identifier) :
    declaredAt imports target name = [] := by
  rw [declaredAt, List.map_eq_nil_iff, List.filter_eq_nil_iff]
  intro found hfound
  simp [h found hfound]

/-- One import declares the class if it is a declaration of that name. -/
theorem declaredAt_single (found : Import) (name : Identifier) :
    declaredAt [found] found.target name
      = if found.declaration.className? = some name.raw then [found.declaration] else [] := by
  by_cases hclass : found.declaration.className? = some name.raw <;> simp [declaredAt, hclass]

/-- The type parameters and the parents of a class. -/
structure Header where
  typeParameters : List Identifier
  parents : List ScalaType

namespace Header

/-- The header of a class that nothing has been said of yet. -/
def empty : Header := ⟨[], []⟩

/-- The header with what a declaration adds to it. -/
def add (header : Header) (typeParameters : List Identifier) (parents : List ScalaType) :
    Header where
  typeParameters := ClassDefinition.addMissing header.typeParameters typeParameters
  parents :=
    if parents.isEmpty then
      if header.parents.isEmpty then [.object] else header.parents
    else ClassDefinition.addMissing (header.parents.filter (· ≠ .object)) parents

/-- A class has a parent as soon as it is declared. -/
theorem parents_add_ne_nil (header : Header) (typeParameters : List Identifier)
    (parents : List ScalaType) : (header.add typeParameters parents).parents ≠ [] := by
  cases parents with
  | nil => cases hpresent : header.parents <;> simp [add, hpresent]
  | cons first rest =>
    -- The first parent is there behind the first step, whether it was there before or not.
    show ClassDefinition.addMissing _ (first :: rest) ≠ []
    rw [ClassDefinition.addMissing, List.foldl_cons]
    refine ClassChange.addMissing_ne_nil ?_
    split
    · rename_i hin
      exact List.ne_nil_of_mem hin
    · simp

end Header

/-- The type parameters and parents of a class, taken together. -/
def ClassDefinition.header (definition : ClassDefinition) : Header :=
  ⟨definition.typeParameters, definition.parents⟩

/-- The header of a class. -/
def Definition.header? : Definition → Option Header
  | .class definition => some definition.header
  | _ => none

/-- The header that a change makes of the header of a class. -/
def ClassChange.onHeader (present : Header) : ClassChange → Header
  | .enter _ => present
  | .header typeParameters parents => present.add typeParameters parents
  | .constructors _ => present
  | .adopt own _ =>
    { present with
      typeParameters := if present.typeParameters.isEmpty then own
        else present.typeParameters }.add [] []

/-- A change of a class does to its header what it does to a header. -/
theorem ClassChange.header_apply (change : ClassChange) (definition : ClassDefinition) :
    (change.apply definition).header = change.onHeader definition.header := by
  cases change <;> rfl

namespace Body

/-- The header of the class of a name, if it is there. -/
def classHeader? (body : Body) (name : Identifier) : Option Header :=
  (body.view ⟨.class, some name⟩).bind Definition.header?

/-- Bodies that show the same class show the same header. -/
theorem classHeader?_of_view {first second : Body} {name : Identifier}
    (h : first.view ⟨.class, some name⟩ = second.view ⟨.class, some name⟩) :
    first.classHeader? name = second.classHeader? name := by
  rw [classHeader?, h, ← classHeader?]

/-- The type parameters that are looked up for a class are those of its header. -/
theorem typeParametersOf?_eq_header (body : Body) (name : Identifier) :
    body.typeParametersOf? name = (body.classHeader? name).map Header.typeParameters := by
  rw [typeParametersOf?, classHeader?]
  cases hview : body.view ⟨.class, some name⟩ with
  | none => rfl
  | some definition =>
    obtain ⟨found, rfl⟩ := class_of_view hview
    rfl

/-- An edit of a class changes its header, or that of a new class, by its change. -/
theorem classHeader?_onClass (body : Body) (name : Identifier) (change : ClassChange) :
    ((Edit.onClass name change).apply body).classHeader? name
      = some (change.onHeader ((body.classHeader? name).getD .empty)) := by
  obtain ⟨found, hview, hbefore⟩ := body.view_onClass name change
  rw [classHeader?, hview, classHeader?]
  obtain hbefore | ⟨hbefore, rfl⟩ := hbefore <;> rw [hbefore] <;>
    exact congrArg some (change.header_apply _)

end Body

/-! ### Members and the header -/

/-- A change that a member may make to a class: it brings no header, and no type parameters but the
given ones. The members of an object enter nothing into a class either, they only adopt. -/
def ClassChange.KeepsHeader (holder : Holder) (own : List Identifier) : ClassChange → Prop
  | .enter _ => holder ≠ .ofObject
  | .header _ _ => False
  | .constructors _ => holder ≠ .ofObject
  | .adopt brought _ => brought = own

/-- An edit that leaves the header of each class, or at most brings the given type parameters to one
that an object links to. -/
def Edit.KeepsHeader (holder : Holder) (own : List Identifier) : Edit → Prop
  | .onClass _ change => change.KeepsHeader holder own
  | _ => True

/-- What a member makes keeps the header. -/
theorem Member.Makes.keepsHeader {holder : Holder} {name : Identifier} {own : List Identifier}
    {member : Member} {edit : Edit} (h : member.Makes holder name own edit) :
    edit.KeepsHeader holder own := by
  -- An entry goes into a class only where that is the holder.
  have hentry : ∀ {place : Holder} (entry : Entry), place = holder ∨ place = .ofObject →
      (place.edit name entry).KeepsHeader holder own := by
    intro place entry hplace
    cases place with
    | ofObject => trivial
    | ofInterface | ofClass =>
      obtain rfl | heq := hplace
      · exact Holder.noConfusion
      · cases heq
  cases h with
  | companion => trivial
  | comment _ hplace => exact hentry _ hplace
  | call hplace _ | property hplace _ | method hplace _ => exact hentry _ hplace
  | adopt _ _ => exact rfl
  | construct hclass _ | constructor hclass _ =>
    subst hclass
    exact Holder.noConfusion

/-- Every member of a list makes such edits only. -/
theorem Member.keepsHeader_scripts (holder : Holder) (name : Identifier) (own : List Identifier)
    (members : List Member) :
    ∀ edit ∈ (scripts holder name own members).value, edit.KeepsHeader holder own :=
  forall_mem_scripts fun _ _ _ hmakes => hmakes.keepsHeader

namespace Body

variable {own : List Identifier} {name : Identifier}

/-- Members leave the header of a class that has the type parameters they are compared with. -/
theorem classHeader?_applyAll_of_some {holder : Holder} {edits : List Edit} {header : Header}
    (hedits : ∀ edit ∈ edits, edit.KeepsHeader holder own) (hown : header.typeParameters = own)
    (hparents : header.parents ≠ []) {body : Body} (h : body.classHeader? name = some header) :
    (Edit.applyAll edits body).classHeader? name = some header := by
  induction edits generalizing body with
  | nil => exact h
  | cons edit rest ih =>
    rw [List.forall_mem_cons] at hedits
    rw [Edit.applyAll_cons]
    refine ih hedits.2 ?_
    by_cases hsubject : ∃ change, edit = .onClass name change
    · obtain ⟨change, rfl⟩ := hsubject
      rw [classHeader?_onClass, h, Option.getD_some]
      have hkeeps : change.KeepsHeader holder own := hedits.1
      cases change with
      | enter entry => rfl
      | header typeParameters parents => cases hkeeps
      | constructors alternatives => rfl
      | adopt brought alternatives =>
        -- The class has these type parameters already, and a parent.
        obtain ⟨present, parents⟩ := header
        cases hkeeps
        cases hown
        cases parents with
        | nil => exact absurd rfl hparents
        | cons first rest => simp [ClassChange.onHeader, Header.add, ClassDefinition.addMissing]
    · rw [classHeader?_of_view (view_class_of_ne (fun change heq => hsubject ⟨change, heq⟩) body),
        h]

/-- The members of an object open the class of its name only to give it these type parameters. -/
theorem classHeader?_applyAll_of_none {edits : List Edit}
    (hedits : ∀ edit ∈ edits, edit.KeepsHeader .ofObject own) {body : Body}
    (h : body.classHeader? name = none) :
    (Edit.applyAll edits body).classHeader? name = none
      ∨ (Edit.applyAll edits body).classHeader? name = some ⟨own, [.object]⟩ := by
  induction edits generalizing body with
  | nil => exact .inl h
  | cons edit rest ih =>
    rw [List.forall_mem_cons] at hedits
    rw [Edit.applyAll_cons]
    by_cases hsubject : ∃ change, edit = .onClass name change
    · obtain ⟨change, rfl⟩ := hsubject
      have hkeeps : change.KeepsHeader .ofObject own := hedits.1
      cases change with
      | enter entry => exact absurd rfl hkeeps
      | header typeParameters parents => cases hkeeps
      | constructors alternatives => exact absurd rfl hkeeps
      | adopt brought alternatives =>
        cases hkeeps
        -- From here on the class is there, with a header that the other members leave.
        refine .inr (classHeader?_applyAll_of_some hedits.2 rfl (List.cons_ne_nil _ _) ?_)
        rw [classHeader?_onClass, h]
        rfl
    · refine ih hedits.2 ?_
      rw [classHeader?_of_view (view_class_of_ne (fun change heq => hsubject ⟨change, heq⟩) body),
        h]

end Body

/-! ### Merged headers -/

/-- To add items that are missing to a list without duplicates is to append them and to drop the
duplicates again. -/
theorem ClassDefinition.addMissing_eraseDups {α : Type} [DecidableEq α] (present new : List α) :
    addMissing present.eraseDups new = (present ++ new).eraseDups := by
  induction new generalizing present with
  | nil => rw [List.append_nil]; rfl
  | cons item rest ih =>
    have hstep : (if item ∈ present.eraseDups then present.eraseDups
        else present.eraseDups ++ [item]) = (present ++ [item]).eraseDups := by
      rw [List.eraseDups_append]
      by_cases hin : item ∈ present
      · simp [List.removeAll, List.mem_eraseDups, hin]
      · simp [List.removeAll, List.mem_eraseDups, hin, List.eraseDups_cons]
    rw [addMissing, List.foldl_cons, hstep]
    exact (ih (present ++ [item])).trans (by rw [List.append_assoc]; rfl)

/-- The parents of a class that some declarations give it. -/
def mergedParents (declared : List Declaration) : List ScalaType :=
  if declared.all (·.parents.isEmpty) then [.object]
  else (declared.flatMap Declaration.mappedParents).eraseDups

/-- The type parameters of a class that some declarations give it. -/
def mergedParameters (declared : List Declaration) : List Identifier :=
  (declared.flatMap Declaration.parameterNames).eraseDups

namespace Header

/-- The header of a class while a translation is under way: that of the declarations so far, except
that its type parameters may have been foreseen before the first declaration. -/
structure Behind (declared : List Declaration) (foreseen : List Identifier) (header : Header) :
    Prop where
  filled : header.parents ≠ []
  parents : .object ∉ declared.flatMap Declaration.mappedParents →
    header.parents = mergedParents declared
  typeParameters : (∀ declaration ∈ declared, declaration.parameterNames.Nodup) →
    header.typeParameters = mergedParameters declared
      ∨ (declared = [] ∧ header.typeParameters = foreseen)

end Header

/-- Without a declared `js.Object`, the merged parents but for a default are the declared ones. -/
theorem filter_mergedParents {declared : List Declaration}
    (hobject : .object ∉ declared.flatMap Declaration.mappedParents) :
    (mergedParents declared).filter (· ≠ .object)
      = (declared.flatMap Declaration.mappedParents).eraseDups := by
  rw [mergedParents]
  split
  · rename_i hall
    have hnone : declared.flatMap Declaration.mappedParents = [] := by
      rw [List.flatMap_eq_nil_iff]
      intro declaration hd
      rw [← List.isEmpty_iff, declaration.isEmpty_mappedParents]
      exact List.all_eq_true.mp hall declaration hd
    rw [hnone]
    rfl
  · refine List.filter_eq_self.mpr fun parent hparent => decide_eq_true ?_
    rintro rfl
    exact hobject (List.mem_eraseDups.mp hparent)

/-- A declaration adds its parents behind those of the earlier ones, each once. -/
theorem mergedParents_append (declared : List Declaration) (declaration : Declaration) :
    mergedParents (declared ++ [declaration])
      = if declaration.mappedParents.isEmpty then mergedParents declared
        else (declared.flatMap Declaration.mappedParents
          ++ declaration.mappedParents).eraseDups := by
  rw [mergedParents, mergedParents, List.all_append, List.flatMap_append, List.flatMap_singleton,
    List.all_cons, List.all_nil, ← declaration.isEmpty_mappedParents]
  cases hparents : declaration.mappedParents with
  | nil => simp
  | cons first rest => simp

/-- It adds its type parameters in the same way. -/
theorem mergedParameters_append (declared : List Declaration) (declaration : Declaration) :
    mergedParameters (declared ++ [declaration])
      = ClassDefinition.addMissing (mergedParameters declared) declaration.parameterNames := by
  rw [mergedParameters, mergedParameters, ClassDefinition.addMissing_eraseDups,
    List.flatMap_append, List.flatMap_singleton]

namespace Header

/-- A declaration of the class takes its header to that of all declarations, if it finds a header
that is good enough: that of the declarations before, or nothing before the first. -/
theorem behind_add {declared : List Declaration} {declaration : Declaration} {header : Header}
    (hparents : .object ∉ declared.flatMap Declaration.mappedParents →
      header.parents.filter (· ≠ .object) = (declared.flatMap Declaration.mappedParents).eraseDups
        ∧ (if header.parents.isEmpty then [.object] else header.parents)
          = mergedParents declared)
    (htypeParameters : (∀ other ∈ declared, other.parameterNames.Nodup) →
      header.typeParameters = mergedParameters declared
        ∨ (declared = [] ∧ header.typeParameters = declaration.parameterNames))
    (foreseen : List Identifier) :
    (header.add declaration.parameterNames declaration.mappedParents).Behind
      (declared ++ [declaration]) foreseen where
  filled := header.parents_add_ne_nil _ _
  parents hobject := by
    rw [List.flatMap_append, List.mem_append, not_or] at hobject
    obtain ⟨hfilter, hdefault⟩ := hparents hobject.1
    rw [mergedParents_append, ← hdefault, ← ClassDefinition.addMissing_eraseDups, ← hfilter]
    rfl
  typeParameters hnodup := by
    rw [List.forall_mem_append, List.forall_mem_singleton] at hnodup
    refine .inl ?_
    rw [mergedParameters_append]
    rcases htypeParameters hnodup.1 with hmerged | ⟨rfl, hforeseen⟩
    · rw [← hmerged]
      rfl
    · -- What was foreseen is there already, and it is all that there is to add.
      have hadd : (header.add declaration.parameterNames declaration.mappedParents).typeParameters
          = ClassDefinition.addMissing header.typeParameters declaration.parameterNames := rfl
      have hnone : mergedParameters [] = [] := rfl
      rw [hadd, hforeseen, hnone, ClassDefinition.addMissing_self hnodup.2 (.inl rfl),
        ClassDefinition.addMissing_self hnodup.2 (.inr rfl)]

/-- If a header fits the declarations so far and the next one is foreseen, the header with the next
one added fits them all. -/
theorem Behind.add {declared : List Declaration} {declaration : Declaration} {header : Header}
    (h : header.Behind declared declaration.parameterNames) (foreseen : List Identifier) :
    (header.add declaration.parameterNames declaration.mappedParents).Behind
      (declared ++ [declaration]) foreseen := by
  refine behind_add (fun hobject => ?_) h.typeParameters foreseen
  have hmerged := h.parents hobject
  have hfilled : header.parents.isEmpty = false := by
    rw [List.isEmpty_eq_false_iff]
    exact h.filled
  rw [hfilled, if_neg Bool.false_ne_true, hmerged]
  exact ⟨filter_mergedParents hobject, rfl⟩

/-- The first declaration of a class fits, whatever is foreseen behind it. -/
theorem behind_empty_add (declaration : Declaration) (foreseen : List Identifier) :
    (empty.add declaration.parameterNames declaration.mappedParents).Behind [declaration]
      foreseen :=
  @behind_add [] declaration empty (fun _ => ⟨rfl, rfl⟩) (fun _ => .inl rfl) foreseen

end Header

/-! ### The header of a class along a translation -/

/-- The type parameters that a later declaration gives the class of a name. -/
def foreseenIn (later : List Declaration) (name : Identifier) : List Identifier :=
  (later.findSome? (Declaration.headerOf? name)).getD []

/-- Between declarations of a body, the class of a name has the header of those declarations of it
that have come, and is not there before the first unless it was constructed. -/
def Body.Follows (name : Identifier) (declared later : List Declaration) (body : Body) : Prop :=
  match body.classHeader? name with
  | none => declared = []
  | some header => header.Behind declared (foreseenIn later name)

namespace Body.Follows

variable {name : Identifier} {declared later : List Declaration} {body : Body}

/-- A class that is not there follows, if none was declared. -/
theorem of_none (h : body.classHeader? name = none) (hnone : declared = []) :
    body.Follows name declared later := by
  rw [Follows, h]
  exact hnone

/-- A class that is there follows, if its header fits. -/
theorem of_some {header : Header} (h : body.classHeader? name = some header)
    (hbehind : header.Behind declared (foreseenIn later name)) :
    body.Follows name declared later := by
  rw [Follows, h]
  exact hbehind

/-- A class that follows and is not there was not declared. -/
theorem none (h : body.Follows name declared later) (hnone : body.classHeader? name = none) :
    declared = [] := by
  rwa [Follows, hnone] at h

/-- A class that follows and is there has a header that fits. -/
theorem some (h : body.Follows name declared later) {header : Header}
    (hsome : body.classHeader? name = some header) :
    header.Behind declared (foreseenIn later name) := by
  rwa [Follows, hsome] at h

/-- What follows does not depend on more than the view of the class and what is foreseen of it. -/
theorem congr (h : body.Follows name declared later) {after : Body} {rest : List Declaration}
    (hview : after.view ⟨.class, .some name⟩ = body.view ⟨.class, .some name⟩)
    (hforeseen : foreseenIn rest name = foreseenIn later name) :
    after.Follows name declared rest := by
  rw [Follows, classHeader?_of_view hview, hforeseen]
  exact h

/-- At the end of a list of declarations nothing is foreseen, so any list may come next. -/
theorem next (h : body.Follows name declared []) (later : List Declaration) :
    body.Follows name declared later := by
  cases hheader : body.classHeader? name with
  | none => exact .of_none hheader (h.none hheader)
  | some header =>
    obtain ⟨hfilled, hparents, htypeParameters⟩ := h.some hheader
    refine .of_some hheader ⟨hfilled, hparents, fun hnodup => .inl ?_⟩
    rcases htypeParameters hnodup with hmerged | ⟨rfl, hnone⟩
    · exact hmerged
    · exact hnone

end Body.Follows

namespace Declaration

/-- A declaration of a class is an edit of its header, with edits of its members behind it. -/
theorem script_of_className {declaration : Declaration} {raw : String}
    (h : declaration.className? = some raw) (own : List Identifier) :
    ∃ holder members, (declaration.script own).value
      = .onClass ⟨raw⟩ (.header declaration.parameterNames declaration.mappedParents)
        :: (Member.scripts holder ⟨raw⟩ own members).value := by
  obtain ⟨holder, _, _, members, hdeclares⟩ := exists_declaresClass h
  refine ⟨holder, members, ?_⟩
  cases hdeclares <;> rfl

/-- A declaration of a class brings the type parameters that are there, and its own behind them. -/
theorem ownParameters_of_className {declaration : Declaration} {raw : String}
    (h : declaration.className? = some raw) (later : List Declaration) (body : Body) :
    declaration.ownParameters later body = ClassDefinition.addMissing
      ((body.typeParametersOf? ⟨raw⟩).getD []) declaration.parameterNames := by
  obtain ⟨_, _, _, _, hdeclares⟩ := exists_declaresClass h
  cases hdeclares <;> rfl

/-- Declarations of the class of a name, and no others, give it type parameters beforehand. -/
theorem headerOf?_eq (declaration : Declaration) (name : Identifier) :
    declaration.headerOf? name
      = if declaration.className? = some name.raw then some declaration.parameterNames
        else none := by
  split
  · rename_i hclass
    obtain ⟨_, _, _, _, hdeclares⟩ := exists_declaresClass hclass
    exact hdeclares.headerOf?_eq.trans (by cases hdeclares <;> rfl)
  · exact headerOf?_eq_none ‹_›

/-- What is about a class or an object, and is no declaration of a class, is a variable. -/
theorem eq_variable {declaration : Declaration} {name : Identifier}
    (hsubject : declaration.subject? = some name)
    (hclass : declaration.className? ≠ some name.raw) :
    ∃ members, declaration = .variable name.raw (some (.object members)) := by
  cases declaration with
  | «variable» declared type =>
    rcases type with - | type
    · cases hsubject
    · cases type with
      | object members =>
        cases hsubject
        exact ⟨members, rfl⟩
      | _ => cases hsubject
  | «interface» | «class» =>
    cases hsubject
    exact absurd rfl hclass
  | «alias» declared parameters type =>
    cases type with
    | object members =>
      cases hsubject
      exact absurd rfl hclass
    | _ => cases hsubject
  | _ => cases hsubject

end Declaration

/-- A declaration of the class that comes next is what is foreseen of it. -/
theorem foreseenIn_cons_of_className {declaration : Declaration} {name : Identifier}
    (h : declaration.className? = some name.raw) (later : List Declaration) :
    foreseenIn (declaration :: later) name = declaration.parameterNames := by
  rw [foreseenIn, List.findSome?_cons, declaration.headerOf?_eq, if_pos h]
  rfl

/-- A declaration of another class is passed over. -/
theorem foreseenIn_cons_of_ne {declaration : Declaration} {name : Identifier}
    (h : declaration.className? ≠ some name.raw) (later : List Declaration) :
    foreseenIn (declaration :: later) name = foreseenIn later name := by
  rw [foreseenIn, List.findSome?_cons, declaration.headerOf?_eq, if_neg h, foreseenIn]

namespace Body.Follows

variable {name : Identifier} {declared later : List Declaration} {declaration : Declaration}
  {body : Body}

/-- A declaration of the class adds to its header, or opens the class with it. -/
theorem addTo_of_className (h : body.Follows name declared (declaration :: later))
    (hclass : declaration.className? = .some name.raw) :
    (declaration.addTo later body).value.Follows name (declared ++ [declaration]) later := by
  have hnamespace : declaration.isNamespace = false := by
    cases declaration with
    | «namespace» path declarations => cases hclass
    | _ => rfl
  obtain ⟨holder, members, hscript⟩ := Declaration.script_of_className hclass
    (declaration.ownParameters later body)
  rw [declaration.addTo_eq later body hnamespace, Noted.applyTo, hscript, Edit.applyAll_cons]
  -- What the members are compared with are the type parameters that the class has by now.
  have hown : (((body.classHeader? name).getD .empty).add declaration.parameterNames
      declaration.mappedParents).typeParameters = declaration.ownParameters later body := by
    rw [Declaration.ownParameters_of_className hclass, typeParametersOf?_eq_header]
    cases body.classHeader? name <;> rfl
  refine .of_some (classHeader?_applyAll_of_some (Member.keepsHeader_scripts holder name _ members)
    hown (Header.parents_add_ne_nil _ _ _)
    (body.classHeader?_onClass name (.header _ _))) ?_
  cases hheader : body.classHeader? name with
  | none =>
    rw [h.none hheader]
    exact Header.behind_empty_add declaration _
  -- A class that is there has what was foreseen, and that is what comes now.
  | some header =>
    have hbehind := h.some hheader
    rw [foreseenIn_cons_of_className hclass] at hbehind
    exact hbehind.add _

/-- A variable of the name leaves the header, or opens the class with the type parameters that are
foreseen. -/
theorem addTo_variable {members : List Member}
    (h : body.Follows name declared (.variable name.raw (.some (.object members)) :: later)) :
    ((Declaration.variable name.raw (.some (.object members))).addTo later body).value.Follows name
      declared later := by
  have hscript : ∀ own : List Identifier,
      ((Declaration.variable name.raw (.some (.object members))).script own).value
        = .object name :: (Member.scripts .ofObject name own members).value := fun _ => rfl
  have hkeeps : ∀ own,
      ∀ edit ∈ Edit.object name :: (Member.scripts .ofObject name own members).value,
        edit.KeepsHeader .ofObject own := fun own =>
    List.forall_mem_cons.mpr ⟨trivial, Member.keepsHeader_scripts .ofObject name own members⟩
  have hown : (Declaration.variable name.raw (.some (.object members))).ownParameters later body
      = ((body.classHeader? name).map Header.typeParameters).getD (foreseenIn later name) := by
    rw [Declaration.ownParameters, headerOf_eq, typeParametersOf?_eq_header]
    rfl
  rw [Declaration.addTo_eq _ later body rfl, Noted.applyTo, hscript, hown]
  have hforeseen : foreseenIn (.variable name.raw (.some (.object members)) :: later) name
      = foreseenIn later name := foreseenIn_cons_of_ne (fun h => by cases h) later
  cases hheader : body.classHeader? name with
  | some header =>
    have hbehind := h.some hheader
    rw [hforeseen] at hbehind
    exact .of_some (classHeader?_applyAll_of_some (hkeeps _) rfl hbehind.filled hheader) hbehind
  | none =>
    cases h.none hheader
    rcases classHeader?_applyAll_of_none (hkeeps _) hheader with hstill | hopened
    · exact .of_none hstill rfl
    · exact .of_some hopened ⟨List.cons_ne_nil _ _, fun _ => rfl, fun _ => .inr ⟨rfl, rfl⟩⟩

/-- Any other declaration leaves the class as it is. -/
theorem addTo_of_subject (h : body.Follows name declared (declaration :: later))
    (hnamespace : declaration.isNamespace = false) (hsubject : declaration.subject? ≠ .some name)
    (hclass : declaration.className? ≠ .some name.raw) :
    (declaration.addTo later body).value.Follows name declared later := by
  rw [declaration.addTo_eq later body hnamespace, Noted.applyTo]
  refine h.congr (view_class_applyAll (fun edit hedit heq => ?_) body)
    (foreseenIn_cons_of_ne hclass later).symm
  rcases declaration.subject_script _ edit hedit with hnone | hsame
  · rw [hnone] at heq
    cases heq
  · exact hsubject (hsame.symm.trans heq)

end Body.Follows

/-! ### Packages -/

/-- The declarations that come next in a package, if they are those of the list that is being
added: in a package inside that of the list, no declaration is known beforehand. -/
def ahead : List Identifier → List Declaration → List Declaration
  | [], later => later
  | _ :: _, _ => []

/-- What is done in the innermost package of a path is followed there and in the packages inside it,
and all other classes stay as they are. -/
theorem Body.follows_inPackages {f : Body → Noted Body} {record : Body → List Import}
    {name : Identifier} (isNamespace : Bool) (target path : List Identifier)
    (hstarts : ∀ inner, ∀ found ∈ record inner, target ++ path <+: found.target)
    (hf : ∀ inner inside declared, (inner.packageAt inside).Follows name declared [] →
      ((f inner).value.packageAt inside).Follows name
        (declared ++ declaredAt (record inner) (target ++ path ++ inside) name) [])
    (body : Body) (inside : List Identifier) {declared later : List Declaration}
    (hlater : path = [] ∨ inside ≠ [] → later = [])
    (h : (body.packageAt inside).Follows name declared later) :
    ((body.inPackages isNamespace f path).value.packageAt inside).Follows name
      (declared ++ declaredAt (record (body.packageAt path)) (target ++ inside) name) later := by
  rcases body.packageAt_inPackages isNamespace f path inside with
    ⟨more, rfl, hinner⟩ | ⟨hnot, hviews⟩
  · have hnone : later = [] := by
      refine hlater (or_iff_not_imp_left.mpr fun hpath hinside => hpath ?_)
      exact (List.append_eq_nil_iff.mp hinside).1
    subst hnone
    rw [packageAt_append] at h
    rw [hinner, ← List.append_assoc]
    exact hf _ more declared h
  · have hdeclared : declaredAt (record (body.packageAt path)) (target ++ inside) name = [] :=
      declaredAt_eq_nil (target_ne_of_elsewhere (hstarts _) hnot) name
    rw [hdeclared, List.append_nil]
    exact h.congr (hviews _ Kind.noConfusion) rfl

/-- A declaration other than a namespace is followed in its package. -/
theorem Declaration.follows_addTo_of_script {declaration : Declaration}
    (hnamespace : declaration.isNamespace = false) (later : List Declaration)
    (target : List Identifier) {name : Identifier} (body : Body) (inside : List Identifier)
    {declared : List Declaration}
    (h : (body.packageAt inside).Follows name declared (ahead inside (declaration :: later))) :
    ((declaration.addTo later body).value.packageAt inside).Follows name
      (declared ++ declaredAt (declaration.imports target later body) (target ++ inside) name)
      (ahead inside later) := by
  rw [declaration.imports_eq hnamespace]
  cases inside with
  | nil =>
    rw [List.append_nil, declaredAt_single]
    by_cases hclass : declaration.className? = some name.raw
    · rw [if_pos hclass]
      exact Body.Follows.addTo_of_className h hclass
    · rw [if_neg hclass, List.append_nil]
      by_cases hsubject : declaration.subject? = some name
      · obtain ⟨members, rfl⟩ := declaration.eq_variable hsubject hclass
        exact Body.Follows.addTo_variable h
      · exact Body.Follows.addTo_of_subject h hnamespace hsubject hclass
  | cons first rest =>
    rw [declaration.packageAt_addTo hnamespace, declaredAt_eq_nil (by simp) name, List.append_nil]
    exact h

mutual

/-- A declaration is followed in its package and in those inside it. -/
theorem Declaration.follows_addTo (later : List Declaration) (declaration : Declaration)
    (hformed : declaration.Every formed) (target : List Identifier) {name : Identifier}
    (body : Body) (inside : List Identifier) {declared : List Declaration}
    (h : (body.packageAt inside).Follows name declared (ahead inside (declaration :: later))) :
    ((declaration.addTo later body).value.packageAt inside).Follows name
      (declared ++ declaredAt (declaration.imports target later body) (target ++ inside) name)
      (ahead inside later) := by
  match declaration with
  | .namespace path declarations =>
    obtain ⟨⟨hpath, -⟩, hinner⟩ := hformed
    rw [Declaration.addTo, Declaration.imports]
    -- What is still to come is known in the body of the declarations only, not in the packages
    -- inside.
    have hlater : path.map Identifier.mk = [] ∨ inside ≠ [] →
        ahead inside (.namespace path declarations :: later) = [] := by
      rintro (hnil | hinside)
      · exact absurd (List.map_eq_nil_iff.mp hnil) hpath
      · cases inside with
        | nil => exact absurd rfl hinside
        | cons first rest => rfl
    have hboth := Body.follows_inPackages true target (path.map Identifier.mk)
      (fun inner => prefix_target_all declarations inner)
      (fun inner more declared hmore =>
        follows_addDeclarations declarations hinner _ inner more (hmore.next _))
      body inside hlater h
    refine hboth.congr rfl ?_
    cases inside with
    | nil => exact (foreseenIn_cons_of_ne (fun hclass => by cases hclass) later).symm
    | cons first rest => rfl
  | .variable _ _ | .function _ _ | .interface _ _ _ _ | .alias _ _ _ | .class _ _ _ _ _
  | .unsupported _ => exact Declaration.follows_addTo_of_script rfl later target body inside h

/-- Along the declarations of a list, at any depth of packages, each class follows those that
declare it. -/
theorem follows_addDeclarations (declarations : List Declaration)
    (hformed : everyDeclaration formed declarations) (target : List Identifier) {name : Identifier}
    (body : Body) (inside : List Identifier) {declared : List Declaration}
    (h : (body.packageAt inside).Follows name declared (ahead inside declarations)) :
    ((addDeclarations declarations body).value.packageAt inside).Follows name
      (declared ++ declaredAt (importsAll target declarations body) (target ++ inside) name)
      [] := by
  match declarations with
  | [] =>
    rw [addDeclarations, importsAll, declaredAt_eq_nil (List.forall_mem_nil _), List.append_nil]
    cases inside with
    | nil => exact h
    | cons first rest => exact h
  | declaration :: rest =>
    rw [addDeclarations, importsAll, declaredAt_append, ← List.append_assoc]
    exact follows_addDeclarations rest hformed.2 target _ inside
      (declaration.follows_addTo rest hformed.1 target body inside h)

end

/-! ### The classes of a facade -/

/-- The header of a class in a body is what is found under its name. -/
theorem Body.Linked.classHeader? {body : Body} (h : body.Linked) {definition : ClassDefinition}
    (hin : .class definition ∈ body.items) :
    body.classHeader? definition.name = some definition.header := by
  obtain ⟨index, hindex⟩ := List.getElem?_of_mem hin
  have hfound := h.indexOf?_label hindex rfl
  rw [Body.classHeader?, Body.view, show (⟨.class, some definition.name⟩ : Label)
    = (Definition.class definition).label from rfl, hfound, Option.bind_some,
    show body.get? index = some (.class definition) from hindex]
  rfl

/-- In a package of the facade of a document, a class has the header of all its declarations that
were imported into the package: their type parameters in order, each where it is first, if none of
them repeats one, and their parents in the same way, or `js.Object` if there are none, unless
`js.Object` itself is declared as one. -/
theorem merged_headers {text : String} {document : Document}
    (htext : Document.ofText text = .ok document) (path : DottedName) :
    ∀ trail package, (document.toPackage path).value.Leads trail package →
      ∀ definition, .class definition ∈ package.body.items →
        let declared :=
          declaredAt (document.imports path) (trail.map Package.name) definition.name
        (.object ∉ declared.flatMap Declaration.mappedParents →
          definition.parents = if declared.all (·.parents.isEmpty) then [.object]
            else (declared.flatMap Declaration.mappedParents).eraseDups)
        ∧ ((∀ declaration ∈ declared, declaration.parameterNames.Nodup) →
          definition.typeParameters = (declared.flatMap Declaration.parameterNames).eraseDups) := by
  intro trail package hleads definition hin declared
  have hsound := document.sound_toPackage path
  have hnothing : (Body.empty.packageAt (trail.map Package.name)).Follows definition.name [] [] :=
    .of_none (by rw [Body.packageAt_empty]; rfl) rfl
  -- The statement for a whole document is the one for its declarations, which are all still to come
  -- in a body that knows no class yet.
  have hfollows := Body.follows_inPackages false [] path.segments
    (fun inner => prefix_target_all document.declarations inner)
    (fun inner more _ hmore => follows_addDeclarations document.declarations
      (Document.formed_ofText htext) _ inner more (hmore.next _))
    .empty (trail.map Package.name) (fun _ => rfl) hnothing
  rw [Body.packageAt_empty, List.nil_append, List.nil_append] at hfollows
  have hbody : ((Body.empty.inPackages false (addDeclarations document.declarations)
      path.segments).value.packageAt (trail.map Package.name)) = package.body :=
    hleads.packageAt hsound
  rw [hbody] at hfollows
  have hbehind := hfollows.some ((hleads.contains.sound hsound).linked.classHeader? hin)
  refine ⟨hbehind.parents, fun hnodup => ?_⟩
  rcases hbehind.typeParameters hnodup with hmerged | ⟨hnone, hempty⟩
  · exact hmerged
  · have hdeclared : declared = [] := hnone
    rw [hdeclared]
    exact hempty

/-- A namespace in two parts. A variable constructs an interface of the first, and the second
declares a class of the same name. -/
def reopenedNamespace : Document where
  declarations := [
    .namespace ["N"] [
      .variable "P" (some (.object [.construct ⟨[], [], some (.named ["P"] [.named ["T"] []])⟩])),
      .interface "P" [⟨"T", none, none⟩] [.named ["A"] []] []],
    .namespace ["N"] [
      .class "P" [⟨"T", none, none⟩, ⟨"U", none, none⟩] (some (.named ["B"] [.named ["U"] []]))
        [.named ["A"] []] []]]
  lost := []

/-- The text of the namespace in two parts. -/
theorem ofText_reopenedNamespace :
    Document.ofText ("namespace N \x7b var P: \x7b new(): P<T> \x7d; "
        ++ "interface P<T> extends A \x7b \x7d \x7d "
        ++ "namespace N \x7b class P<T, U> extends B<U> implements A \x7b \x7d \x7d")
      = .ok reopenedNamespace := by
  set_option maxRecDepth 1024 in with_unfolding_all rfl

/-- The class of both declarations. -/
def reopenedClass : ClassDefinition :=
  ⟨⟨"P"⟩, [⟨"T"⟩, ⟨"U"⟩], [⟨.single ⟨"A"⟩, []⟩, ⟨.single ⟨"B"⟩, [⟨.single ⟨"U"⟩, []⟩]⟩], false,
    some 0, ⟨[.method ⟨.constructor, [], [], .unit⟩], 0⟩⟩

/-- The class was opened for its constructor, before either declaration came. -/
theorem merged_headers_reopened :
    ∃ trail package, (reopenedNamespace.toPackage .root).value.Leads trail package
      ∧ .class reopenedClass ∈ package.body.items
      ∧ (let declared :=
          declaredAt (reopenedNamespace.imports .root) (trail.map Package.name) ⟨"P"⟩
        declared.map Declaration.parameterNames = [[⟨"T"⟩], [⟨"T"⟩, ⟨"U"⟩]]
          ∧ reopenedClass.parents = (declared.flatMap Declaration.mappedParents).eraseDups
          ∧ reopenedClass.typeParameters
            = (declared.flatMap Declaration.parameterNames).eraseDups) := by
  let package : Package :=
    ⟨⟨"N"⟩, true, ⟨[.object ⟨⟨"P"⟩, some 1, .empty⟩, .class reopenedClass], 0⟩⟩
  have hleads : (reopenedNamespace.toPackage .root).value.Leads [package] package :=
    .into (List.mem_singleton.mpr rfl) (.here _)
  have hclass : .class reopenedClass ∈ package.body.items :=
    List.mem_cons_of_mem _ List.mem_cons_self
  obtain ⟨hparents, htypeParameters⟩ :=
    merged_headers ofText_reopenedNamespace .root _ _ hleads _ hclass
  exact ⟨_, _, hleads, hclass, rfl, hparents (by decide), htypeParameters (by decide)⟩

end Facade
