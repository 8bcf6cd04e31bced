import Facade.Proofs.Translation.Reach

/-!
# What a list of declarations does

The script of a declaration depends on the body that it is applied to in one way: the type
parameters that construct signatures are compared with are those of a class that may be there
already, or be declared later. If no two declarations of a list give type parameters to the same
class, all of this comes down to one table, from names to type parameters, which belongs to the list
as a whole (`Headed`). `Declaration.steps` is what a declaration does by that table, and does not
look at a body or at other declarations any more.

A namespace whose first package is not there yet is a single step: it adds a package that is known
beforehand.

`addDeclarations_eq` puts the two together. What has to hold in front of each declaration is
`Ready`; the initial body is ready, and `Ready.rest` says that every declaration leaves the body
ready for the others.
-/

set_option autoImplicit false

namespace Facade

/-! ### Steps -/

/-- What a declaration does to a body: an edit, or a new package with all that is in it. -/
inductive Step where
  | edit (edit : Edit)
  | package (definition : Package)

namespace Step

/-- The body behind a step. -/
def apply (body : Body) : Step → Body
  | .edit made => made.apply body
  | .package added => body.push (.package added)

/-- Steps, one after the other. -/
def applyAll (steps : List Step) (body : Body) : Body :=
  steps.foldl apply body

/-- The first of several steps is made first. -/
@[simp] theorem applyAll_cons (step : Step) (rest : List Step) (body : Body) :
    applyAll (step :: rest) body = applyAll rest (step.apply body) :=
  rfl

/-- Steps in two parts are made one part after the other. -/
@[simp] theorem applyAll_append (first second : List Step) (body : Body) :
    applyAll (first ++ second) body = applyAll second (applyAll first body) :=
  List.foldl_append

/-- Edits are made as steps as they are by themselves. -/
theorem applyAll_edits (edits : List Edit) (body : Body) :
    applyAll (edits.map .edit) body = Edit.applyAll edits body := by
  rw [applyAll, List.foldl_map]
  rfl

end Step

namespace Declaration

/-- The class or object that a declaration is about. -/
def subject? : Declaration → Option Identifier
  | .variable name (some (.object _)) => some ⟨name⟩
  | .interface name _ _ _ => some ⟨name⟩
  | .alias name _ (.object _) => some ⟨name⟩
  | .class name _ _ _ _ => some ⟨name⟩
  | _ => none

/-- The type parameters that the construct signatures of a declaration are compared with, by a
table. -/
def ownIn (table : Identifier → List Identifier) (declaration : Declaration) : List Identifier :=
  (declaration.subject?.map table).getD []

/-- What a declaration does, where the type parameters of classes are those of a table and the
packages of namespaces are not there yet. -/
def steps (table : Identifier → List Identifier) : Declaration → Noted (List Step)
  | .namespace (segment :: rest) declarations =>
    let inner := Body.empty.inPackages true (addDeclarations declarations)
      (rest.map Identifier.mk)
    ⟨[.package ⟨⟨segment⟩, true, inner.value⟩], inner.warnings⟩
  | declaration =>
    let script := declaration.script (declaration.ownIn table)
    ⟨script.value.map .edit, script.warnings⟩

/-- What declarations do, in order. -/
def allSteps (table : Identifier → List Identifier) (declarations : List Declaration) :
    Noted (List Step) :=
  ⟨declarations.flatMap fun declaration => (declaration.steps table).value,
    declarations.flatMap fun declaration => (declaration.steps table).warnings⟩

/-- A declaration other than a namespace makes the edits of its script. -/
theorem steps_of_script {declaration : Declaration} (hnamespace : declaration.isNamespace = false)
    (table : Identifier → List Identifier) :
    declaration.steps table
      = ⟨(declaration.script (declaration.ownIn table)).value.map .edit,
          (declaration.script (declaration.ownIn table)).warnings⟩ := by
  cases declaration with
  | «namespace» path declarations => cases hnamespace
  | _ => rfl

end Declaration

/-! ### Edits and their subjects -/

/-- The class or object that an edit is about. -/
def Edit.subject? : Edit → Option Identifier
  | .here _ => none
  | .onClass name _ => some name
  | .object name => some name
  | .inObject name _ => some name

/-- An edit leaves the classes of other names as they are. -/
theorem Body.view_class_of_subject {body : Body} {edit : Edit} {name : Identifier}
    (h : edit.subject? ≠ some name) :
    (edit.apply body).view ⟨.class, some name⟩ = body.view ⟨.class, some name⟩ :=
  view_class_of_ne (fun _ heq => h (congrArg Edit.subject? heq)) body

/-- No edit changes a package. -/
theorem Body.view_package (body : Body) (edit : Edit) (name : Identifier) :
    (edit.apply body).view ⟨.package, some name⟩ = body.view ⟨.package, some name⟩ := by
  refine view_of_ne rfl (fun revision hrevision heq => ?_) body
  cases edit <;> cases hrevision <;> cases congrArg Label.kind heq

/-- Edits leave every package as it is. -/
theorem Body.view_package_applyAll (edits : List Edit) (body : Body) (name : Identifier) :
    (Edit.applyAll edits body).view ⟨.package, some name⟩
      = body.view ⟨.package, some name⟩ := by
  induction edits generalizing body with
  | nil => rfl
  | cons edit rest ih => rw [Edit.applyAll_cons, ih, view_package]

/-- Edits about other names leave the class of a name as it is. -/
theorem Body.view_class_applyAll {edits : List Edit} {name : Identifier}
    (h : ∀ edit ∈ edits, edit.subject? ≠ some name) (body : Body) :
    (Edit.applyAll edits body).view ⟨.class, some name⟩ = body.view ⟨.class, some name⟩ := by
  induction edits generalizing body with
  | nil => rfl
  | cons edit rest ih =>
    rw [Edit.applyAll_cons, ih fun other hother => h other (by simp [hother]),
      view_class_of_subject (h edit (by simp))]

/-- What is entered into a holder is about the name of the holder. -/
theorem Holder.subject_edit (holder : Holder) (name : Identifier) (entry : Entry) :
    (holder.edit name entry).subject? = some name := by
  cases holder <;> rfl

/-- What a member makes is about the class and the object of its holder's name. -/
theorem Member.Makes.subject {holder : Holder} {name : Identifier} {own : List Identifier}
    {member : Member} {edit : Edit} (h : member.Makes holder name own edit) :
    edit.subject? = some name := by
  cases h with
  | comment _ _ | call _ _ | property _ _ | method _ _ => exact Holder.subject_edit _ name _
  | companion | adopt _ _ | construct _ _ | constructor _ _ => rfl

/-- So are the edits of members. -/
theorem Member.subject_scripts (holder : Holder) (name : Identifier) (own : List Identifier)
    (members : List Member) :
    ∀ edit ∈ (scripts holder name own members).value, edit.subject? = some name :=
  forall_mem_scripts fun _ _ _ hmakes => hmakes.subject

/-- A declaration of a class is about that class. -/
theorem Declaration.DeclaresClass.subject?_eq {declaration : Declaration} {holder : Holder}
    {name : String} {typeParameters : List TypeParameter} {parents : List TypeExpr}
    {members : List Member}
    (h : declaration.DeclaresClass holder name typeParameters parents members) :
    declaration.subject? = some ⟨name⟩ := by
  cases h <;> rfl

/-- The edits of a declaration are about its own subject, if they are about any class or object. -/
theorem Declaration.subject_script (own : List Identifier) (declaration : Declaration) :
    ∀ edit ∈ (declaration.script own).value, edit.subject? = none
      ∨ edit.subject? = declaration.subject? := by
  have hscripts := declaration.scripts_script own
  generalize declaration.script own = script at hscripts ⊢
  cases hscripts with
  | field | function | comment => exact List.forall_mem_singleton.mpr (.inl rfl)
  | object name members =>
    exact List.forall_mem_cons.mpr ⟨.inr rfl, fun edit hedit =>
      .inr (Member.subject_scripts .ofObject ⟨name⟩ own members edit hedit)⟩
  | «class» hclass =>
    rw [hclass.subject?_eq]
    exact List.forall_mem_cons.mpr ⟨.inr rfl, fun edit hedit =>
      .inr (Member.subject_scripts _ _ own _ edit hedit)⟩
  | «namespace» => exact List.forall_mem_nil _

/-! ### Tables of type parameters -/

/-- Only a declaration of the class of a name gives it type parameters. -/
theorem Declaration.headerOf?_of_subject {declaration : Declaration} {name : Identifier}
    (h : declaration.subject? ≠ some name) : declaration.headerOf? name = none := by
  refine headerOf?_eq_none fun hclass => h ?_
  obtain ⟨_, _, _, _, hdeclares⟩ := exists_declaresClass hclass
  exact hdeclares.subject?_eq

/-- A table gives each class the type parameters that it is declared with, and no class is declared
with one of them twice. -/
def Headed (table : Identifier → List Identifier) (declarations : List Declaration) : Prop :=
  ∀ declaration ∈ declarations, ∀ name own, declaration.headerOf? name = some own →
    table name = own ∧ own.Nodup

/-- A body and the declarations that are still to come: each class has the type parameters of the
table, or is declared with them later, and the packages of namespaces are not there yet. -/
structure Ready (table : Identifier → List Identifier) (later : List Declaration)
    (body : Body) : Prop where
  header : ∀ name, body.headerOf name later = table name
  package : ∀ declaration ∈ later, ∀ segment, declaration.firstSegment? = some segment →
    body.view ⟨.package, some ⟨segment⟩⟩ = none

namespace ClassDefinition

/-- What is there already does not have to be added. -/
theorem addMissing_of_subset {α : Type} [DecidableEq α] {present new : List α}
    (h : ∀ item ∈ new, item ∈ present) : addMissing present new = present := by
  induction new with
  | nil => rfl
  | cons item rest ih =>
    rw [addMissing, List.foldl_cons, if_pos (h item (by simp))]
    exact ih fun other hother => h other (by simp [hother])

/-- Where nothing of it is there, a list without repetition is added as it is. -/
theorem addMissing_append {α : Type} [DecidableEq α] {present new : List α}
    (h : (present ++ new).Nodup) : addMissing present new = present ++ new := by
  induction new generalizing present with
  | nil => simp [addMissing]
  | cons item rest ih =>
    have hitem : item ∉ present := fun hin =>
      (List.nodup_append.mp h).2.2 item hin item (by simp) rfl
    rw [addMissing, List.foldl_cons, if_neg hitem]
    have hrest : ((present ++ [item]) ++ rest).Nodup := by
      rw [List.append_assoc]
      exact h
    exact (ih hrest).trans (by rw [List.append_assoc]; rfl)

/-- A class has the type parameters that it is declared with, also if it had them before. -/
theorem addMissing_self {α : Type} [DecidableEq α] {present own : List α} (hown : own.Nodup)
    (h : present = own ∨ present = []) : addMissing present own = own := by
  rcases h with rfl | rfl
  · exact addMissing_of_subset fun _ hin => hin
  · exact addMissing_append hown

end ClassDefinition

namespace Ready

variable {table : Identifier → List Identifier} {declaration : Declaration}
  {later : List Declaration} {body : Body}

/-- A declaration that does not give type parameters to a name tells nothing about it. -/
theorem header_rest (h : Ready table (declaration :: later) body) {name : Identifier}
    (hnone : declaration.headerOf? name = none) : body.headerOf name later = table name := by
  rw [← h.header name, Body.headerOf_eq, Body.headerOf_eq, List.findSome?_cons, hnone]

/-- A declaration of a class finds no other type parameters there. -/
theorem addMissing_eq (h : Ready table (declaration :: later) body)
    (hheaded : Headed table (declaration :: later)) {name : Identifier} {own : List Identifier}
    (hown : declaration.headerOf? name = some own) :
    ClassDefinition.addMissing ((body.typeParametersOf? name).getD []) own = table name := by
  obtain ⟨htable, hnodup⟩ := hheaded declaration (by simp) name own hown
  have hheader := h.header name
  rw [Body.headerOf_eq] at hheader
  rw [htable]
  refine ClassDefinition.addMissing_self hnodup ?_
  cases hfound : body.typeParametersOf? name with
  | none => exact .inr rfl
  | some present =>
    rw [hfound, Option.getD_some, htable] at hheader
    exact .inl hheader

/-- The type parameters that a declaration is compared with are those of the table. -/
theorem ownParameters_eq (h : Ready table (declaration :: later) body)
    (hheaded : Headed table (declaration :: later)) (own : List Identifier)
    (hown : own = declaration.ownParameters later body) :
    declaration.script own = declaration.script (declaration.ownIn table) := by
  subst hown
  cases declaration with
  | «variable» name type =>
    rcases type with - | type
    · rfl
    · cases type with
      | object members =>
        rw [Declaration.ownParameters, h.header_rest rfl]
        rfl
      | _ => rfl
  | «interface» name typeParameters parents members =>
    rw [Declaration.ownParameters, h.addMissing_eq hheaded (if_pos rfl)]
    rfl
  | «alias» name typeParameters type =>
    cases type with
    | object members =>
      rw [Declaration.ownParameters, h.addMissing_eq hheaded (if_pos rfl)]
      rfl
    | _ => rfl
  | «class» name typeParameters parent interfaces members =>
    rw [Declaration.ownParameters, h.addMissing_eq hheaded (if_pos rfl)]
    rfl
  | _ => rfl

/-- A declaration leaves the class that it is about with the type parameters of the table, or leaves
it to a later declaration. -/
theorem header_subject (h : Ready table (declaration :: later) body)
    (hheaded : Headed table (declaration :: later)) {name : Identifier}
    (hsubject : declaration.subject? = some name) :
    (Edit.applyAll (declaration.script (declaration.ownIn table)).value body).headerOf name later
      = table name := by
  -- The header brings the type parameters of the table, and the members keep them.
  have hclass : ∀ (holder : Holder) (_ : holder ≠ .ofObject) {declared : String}
      {typeParameters : List TypeParameter} {parents : List TypeExpr} {members : List Member},
      declaration.headerOf? ⟨declared⟩ = some (TypeParameter.identifiers typeParameters) →
      (Edit.applyAll (classScript holder declared typeParameters parents members
        (table ⟨declared⟩)).value body).headerOf ⟨declared⟩ later = table ⟨declared⟩ := by
    intro holder hholder declared typeParameters parents members hown
    have howns := Owns.of_openClass body hholder ⟨declared⟩ later
      (TypeParameter.identifiers typeParameters) (toScalaAll parents).value
    rw [h.addMissing_eq hheaded hown] at howns
    exact (Member.owns_scripts members howns).header
  cases declaration with
  | «variable» declared type =>
    rcases type with - | type
    · cases hsubject
    · cases type with
      | object members =>
        cases hsubject
        have howns := Owns.of_openObject body ⟨declared⟩ later
        rw [h.header_rest rfl] at howns
        exact (Member.owns_scripts members howns).header
      | _ => cases hsubject
  | «interface» declared typeParameters parents members =>
    cases hsubject
    exact hclass .ofInterface (by simp) (if_pos rfl)
  | «alias» declared typeParameters type =>
    cases type with
    | object members =>
      cases hsubject
      exact hclass .ofInterface (by simp) (if_pos rfl)
    | _ => cases hsubject
  | «class» declared typeParameters parent interfaces members =>
    cases hsubject
    exact hclass .ofClass (by simp) (if_pos rfl)
  | _ => cases hsubject

/-- Every declaration leaves the body ready for the others. -/
theorem rest_script (h : Ready table (declaration :: later) body)
    (hheaded : Headed table (declaration :: later)) :
    Ready table later
      (Edit.applyAll (declaration.script (declaration.ownIn table)).value body) where
  header name := by
    by_cases hsubject : declaration.subject? = some name
    · exact h.header_subject hheaded hsubject
    -- All edits are about the subject of the declaration or about none: other classes stay.
    · have hedits : ∀ edit ∈ (declaration.script (declaration.ownIn table)).value,
          edit.subject? ≠ some name := by
        intro edit hedit heq
        rcases declaration.subject_script _ edit hedit with hnone | hsame
        · cases hnone.symm.trans heq
        · exact hsubject (hsame.symm.trans heq)
      rw [Body.headerOf_eq, Body.typeParametersOf?, Body.view_class_applyAll hedits,
        ← Body.typeParametersOf?, ← Body.headerOf_eq]
      exact h.header_rest (Declaration.headerOf?_of_subject hsubject)
  package other hother segment hsegment := by
    rw [Body.view_package_applyAll]
    exact h.package other (by simp [hother]) segment hsegment

/-- So does a namespace, if no later one starts with the same package. -/
theorem rest_package (h : Ready table (declaration :: later) body) {segment : String}
    (added : Package) (hname : added.name = ⟨segment⟩) (hnone : ∀ name,
      declaration.headerOf? name = none)
    (hother : ∀ other ∈ later, other.firstSegment? ≠ some segment) :
    Ready table later (body.push (.package added)) where
  header name := by
    have hne : (Definition.package added).label ≠ ⟨.class, some name⟩ := fun heq => by
      cases congrArg Label.kind heq
    rw [Body.headerOf_eq, Body.typeParametersOf?, Body.view_push, if_neg hne, Option.or_none,
      ← Body.typeParametersOf?, ← Body.headerOf_eq]
    exact h.header_rest (hnone name)
  package other hin name hsegment := by
    have hne : (Definition.package added).label ≠ ⟨.package, some ⟨name⟩⟩ := by
      intro heq
      have hsame : added.name = ⟨name⟩ := Option.some.inj (congrArg Label.name heq)
      have hraw : segment = name := congrArg Identifier.raw (hname.symm.trans hsame)
      exact hother other hin (hraw ▸ hsegment)
    rw [Body.view_push, if_neg hne, Option.or_none]
    exact h.package other (by simp [hin]) name hsegment

end Ready

/-! ### Lists of declarations -/

/-- A package that is not there is added with all that is filled into it. -/
theorem Body.fillPackage_of_new {body : Body} {name : Identifier}
    (hnew : body.view ⟨.package, some name⟩ = none) (isNamespace : Bool) (inner : Body) :
    body.fillPackage name isNamespace inner = body.push (.package ⟨name, isNamespace, inner⟩) := by
  have hindex := view_eq_none.mp hnew
  have hopen : body.openPackage name = (body.size, body.push (.package (.named name))) := by
    rw [openPackage_eq, hindex]
    rfl
  rw [fillPackage, hopen, modify_push_size]
  rfl

/-- If a body is ready for a declaration, to add it is to make its steps. -/
theorem Declaration.addTo_eq_steps {table : Identifier → List Identifier}
    {declaration : Declaration} {later : List Declaration} {body : Body}
    (h : Ready table (declaration :: later) body)
    (hheaded : Headed table (declaration :: later))
    (hpath : declaration.isNamespace = true → declaration.firstSegment?.isSome = true) :
    declaration.addTo later body
      = ⟨Step.applyAll (declaration.steps table).value body,
        (declaration.steps table).warnings⟩ := by
  cases hnamespace : declaration.isNamespace with
  | false =>
    rw [declaration.addTo_eq later body hnamespace, h.ownParameters_eq hheaded _ rfl,
      steps_of_script hnamespace, Step.applyAll_edits]
    rfl
  | true =>
    cases declaration with
    | «namespace» path declarations =>
      cases path with
      | nil => cases hpath rfl
      | cons segment rest =>
        have hnew := h.package _ List.mem_cons_self segment rfl
        have hempty : (body.packageOrNew ⟨segment⟩).body = .empty := by
          rw [Body.packageOrNew, Body.view_eq_none.mp hnew]
          rfl
        rw [addTo, List.map_cons, Body.inPackages_cons, hempty, Body.fillPackage_of_new hnew]
        rfl
    | _ => cases hnamespace

/-- Declarations do what their steps do, in any body that is ready for them. -/
theorem addDeclarations_eq {table : Identifier → List Identifier}
    {declarations : List Declaration} {body : Body} (h : Ready table declarations body)
    (hheaded : Headed table declarations)
    (hpaths : ∀ declaration ∈ declarations,
      declaration.isNamespace = true → declaration.firstSegment?.isSome = true)
    (hsegments : (declarations.filterMap Declaration.firstSegment?).Nodup) :
    addDeclarations declarations body
      = ⟨Step.applyAll (Declaration.allSteps table declarations).value body,
          (Declaration.allSteps table declarations).warnings⟩ := by
  induction declarations generalizing body with
  | nil => rw [addDeclarations]; rfl
  | cons declaration rest ih =>
    have hfirst := Declaration.addTo_eq_steps h hheaded (hpaths declaration (by simp))
    have hready : Ready table rest (Step.applyAll (declaration.steps table).value body) := by
      cases hnamespace : declaration.isNamespace with
      | false =>
        rw [Declaration.steps_of_script hnamespace, Step.applyAll_edits]
        exact h.rest_script hheaded
      | true =>
        cases declaration with
        | «namespace» path declarations =>
          cases path with
          | nil => cases hpaths _ List.mem_cons_self rfl
          | cons segment more =>
            -- No two namespaces share the first segment, so no later one needs this package.
            refine h.rest_package ⟨⟨segment⟩, true, _⟩ rfl (fun _ => rfl) ?_
            intro other hother heq
            rw [List.filterMap_cons_some (show Declaration.firstSegment? _ = some segment from rfl)]
              at hsegments
            exact (List.nodup_cons.mp hsegments).1 (List.mem_filterMap.mpr ⟨other, hother, heq⟩)
        | _ => cases hnamespace
    have hrest := ih hready (fun other hother => hheaded other (by simp [hother]))
      (fun other hother => hpaths other (by simp [hother]))
      (hsegments.sublist ((List.sublist_cons_self declaration rest).filterMap _))
    rw [addDeclarations, hfirst]
    show (⟨(addDeclarations rest _).value, _ ++ (addDeclarations rest _).warnings⟩ : Noted Body) = _
    rw [hrest]
    simp only [Declaration.allSteps, List.flatMap_cons, Step.applyAll_append]

end Facade
