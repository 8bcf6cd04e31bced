import Facade.Proofs.Translation.Script

/-!
# What the translation does to a body

A namespace fills the body of a package, which may be there already. `Body.inPackages_cons` says
what that does to the body around it: the package of the first name is opened, and a new body takes
the place of its old one (`Body.fillPackage`).

`Along` is the induction over declarations and the namespaces in them: what goes from one
declaration to the next, holds of scripts and goes out of namespaces holds of what all declarations
do.

With that, the translation has two kinds of steps: an edit, and filling a package with what the same
steps make of its body. `Body.Reaches` relates a body to what any number of them can make of it with
edits of some sort, and `reaches_addDeclarations` says that declarations do nothing else, with the
edits of their scripts. A property that holds along `Reaches` therefore holds of every facade,
whatever the declarations are and in whatever order; `Reaches.grows` is the first of them.
-/

set_option autoImplicit false

namespace Facade

namespace Body

/-! ### Packages -/

/-- The package at an index. -/
def package? (body : Body) (index : Nat) : Option Package :=
  match body.get? index with
  | some (.package definition) => some definition
  | _ => none

/-- The package of a name, or the one that opening it would add. -/
def packageOrNew (body : Body) (name : Identifier) : Package :=
  ((body.indexOf? ⟨.package, some name⟩).bind body.package?).getD (.named name)

/-- Puts a body into the package of a name, which is opened for it. -/
def fillPackage (body : Body) (name : Identifier) (isNamespace : Bool) (inner : Body) : Body :=
  (body.openPackage name).2.modify (body.openPackage name).1 (Definition.mapPackage
    fun definition =>
      { definition with isNamespace := definition.isNamespace || isNamespace, body := inner })

/-- Where a package is found, it stands. -/
theorem get?_of_package? {body : Body} {index : Nat} {definition : Package}
    (h : body.package? index = some definition) :
    body.get? index = some (.package definition) := by
  unfold package? at h
  split at h
  · rename_i hd
    cases h
    exact hd
  · cases h

/-- The search for the label of a package finds a package of that name. -/
theorem package?_of_indexOf? {body : Body} {name : Identifier} {index : Nat}
    (h : body.indexOf? ⟨.package, some name⟩ = some index) :
    ∃ definition, body.package? index = some definition ∧ definition.name = name := by
  obtain ⟨definition, hd, hl⟩ := get?_of_indexOf? h
  cases definition with
  | package definition =>
    refine ⟨definition, by simp [package?, hd], ?_⟩
    simpa [Definition.label, Definition.kind, Definition.name?] using hl
  | _ => simp [Definition.label, Definition.kind] at hl

/-- The package that opening finds is the one that is there, or a new one. -/
theorem openPackage_package? (body : Body) (name : Identifier) :
    (body.openPackage name).2.package? (body.openPackage name).1
      = some (body.packageOrNew name) := by
  rw [openPackage_eq, packageOrNew]
  cases hfound : body.indexOf? ⟨.package, some name⟩ with
  | some index =>
    obtain ⟨definition, hd, -⟩ := package?_of_indexOf? hfound
    simp [hd]
  | none => simp [package?, get?_enrol_size]

/-- A package of a name that is there or new has that name. -/
theorem name_packageOrNew (body : Body) (name : Identifier) :
    (body.packageOrNew name).name = name := by
  rw [packageOrNew]
  cases hfound : body.indexOf? ⟨.package, some name⟩ with
  | none => rfl
  | some index =>
    obtain ⟨definition, hd, hname⟩ := package?_of_indexOf? hfound
    simp [hd, hname]

/-- At the end of a path, the body itself is changed. -/
@[simp] theorem inPackages_nil (isNamespace : Bool) (f : Body → Noted Body) (body : Body) :
    body.inPackages isNamespace f [] = f body := by
  rw [inPackages]

/-- To go into the packages of a path is to fill the first with what going into the others makes of
its body. -/
theorem inPackages_cons (isNamespace : Bool) (f : Body → Noted Body) (name : Identifier)
    (rest : List Identifier) (body : Body) :
    body.inPackages isNamespace f (name :: rest)
      = ⟨body.fillPackage name isNamespace
            ((body.packageOrNew name).body.inPackages isNamespace f rest).value,
          ((body.packageOrNew name).body.inPackages isNamespace f rest).warnings⟩ := by
  have hget := get?_of_package? (body.openPackage_package? name)
  rw [inPackages]
  simp only [hget]
  show (⟨_, _ ++ []⟩ : Noted Body) = _
  rw [List.append_nil]
  rfl

/-- A change of a package that leaves its name leaves its label. -/
theorem label_mapPackage {f : Package → Package}
    (hf : ∀ definition, (f definition).name = definition.name) (definition : Definition) :
    (definition.mapPackage f).label = definition.label := by
  cases definition <;>
    simp [Definition.mapPackage, Definition.label, Definition.kind, Definition.name?, hf]

/-- To fill a package moves nothing. -/
theorem grows_fillPackage (body : Body) (name : Identifier) (isNamespace : Bool) (inner : Body) :
    body.Grows (body.fillPackage name isNamespace inner) :=
  (body.opens_openPackage name).grows.trans
    (grows_modify fun definition _ => label_mapPackage (by simp) definition)

/-! ### Steps of the translation -/

/-- The second body is what edits of some sort make of the first, of the bodies of its packages, and
so on. -/
inductive Reaches (allowed : Edit → Prop) : Body → Body → Prop where
  | refl (body : Body) : Reaches allowed body body
  | edit {first second : Body} {edit : Edit} :
      allowed edit → Reaches allowed first second → Reaches allowed first (edit.apply second)
  | package {first second : Body} {inner : Body} (name : Identifier) (isNamespace : Bool) :
      Reaches allowed first second → Reaches allowed (second.packageOrNew name).body inner →
      Reaches allowed first (second.fillPackage name isNamespace inner)

namespace Reaches

variable {allowed : Edit → Prop}

/-- What is reached from what is reached is reached. -/
theorem trans {first second third : Body} (h : first.Reaches allowed second)
    (h' : second.Reaches allowed third) : first.Reaches allowed third := by
  induction h' with
  | refl => exact h
  | edit hedit _ ih => exact .edit hedit (ih h)
  | package name isNamespace _ hinner ih _ => exact .package name isNamespace (ih h) hinner

/-- Edits of one sort are edits of any wider sort. -/
theorem mono {wider : Edit → Prop} (hwider : ∀ edit, allowed edit → wider edit)
    {before after : Body} (h : before.Reaches allowed after) : before.Reaches wider after := by
  induction h with
  | refl body => exact .refl body
  | edit hedit _ ih => exact .edit (hwider _ hedit) ih
  | package name isNamespace _ _ ih ihinner => exact .package name isNamespace ih ihinner

/-- What edits of the sort make of a body is reached. -/
theorem applyAll {edits : List Edit} (h : ∀ edit ∈ edits, allowed edit) (body : Body) :
    body.Reaches allowed (Edit.applyAll edits body) := by
  induction edits generalizing body with
  | nil => exact .refl body
  | cons edit rest ih =>
    rw [List.forall_mem_cons] at h
    exact (Reaches.edit h.1 (.refl body)).trans (ih h.2 _)

/-- What is inside the packages of a path is reached if what is done in the innermost is. -/
theorem inPackages {f : Body → Noted Body} (hf : ∀ body, Reaches allowed body (f body).value)
    (isNamespace : Bool) (path : List Identifier) (body : Body) :
    body.Reaches allowed (body.inPackages isNamespace f path).value := by
  induction path generalizing body with
  | nil =>
    rw [inPackages_nil]
    exact hf body
  | cons name rest ih =>
    rw [inPackages_cons]
    exact .package name isNamespace (.refl body) (ih _)

/-- Nothing that is reached has moved or lost a definition. -/
theorem grows {before after : Body} (h : before.Reaches allowed after) : before.Grows after := by
  induction h with
  | refl body => exact .refl body
  | edit _ _ ih => exact ih.trans (Edit.grows_apply _ _)
  | package name isNamespace _ _ ih _ => exact ih.trans (grows_fillPackage _ name isNamespace _)

end Reaches

end Body

/-! ### Induction along declarations -/

/-- A relation between declarations, a body and what they make of it, that is kept along a
translation: it holds where there are no declarations, goes on from a declaration to those behind
it, holds of a script, and goes from the declarations in a namespace to the namespace. -/
structure Along (relation : List Declaration → Body → Noted Body → Prop) : Prop where
  nil (body : Body) : relation [] body (pure body)
  cons {declaration : Declaration} {rest : List Declaration} {body : Body}
    {middle after : Noted Body} :
    relation [declaration] body middle → relation rest middle.value after →
    relation (declaration :: rest) body ⟨after.value, middle.warnings ++ after.warnings⟩
  script {declaration : Declaration} (hnamespace : declaration.isNamespace = false)
    (own : List Identifier) (body : Body) :
    relation [declaration] body (Noted.applyTo body (declaration.script own))
  inside (path : List String) (declarations : List Declaration) (f : Body → Noted Body) :
    (∀ inner, relation declarations inner (f inner)) → ∀ body,
    relation [.namespace path declarations] body (body.inPackages true f (path.map Identifier.mk))

namespace Along

variable {relation : List Declaration → Body → Noted Body → Prop}

mutual

/-- A relation that is kept along a translation holds of each declaration. -/
theorem addTo (h : Along relation) (later : List Declaration) (declaration : Declaration)
    (body : Body) : relation [declaration] body (declaration.addTo later body) := by
  match declaration with
  | .namespace path declarations =>
    rw [Declaration.addTo]
    exact h.inside path declarations _ (fun inner => h.addDeclarations declarations inner) body
  | .variable _ _ | .function _ _ | .interface _ _ _ _ | .alias _ _ _ | .class _ _ _ _ _
  | .unsupported _ =>
    rw [Declaration.addTo_eq _ later body rfl]
    exact h.script rfl _ body

/-- It holds of several declarations. -/
theorem addDeclarations (h : Along relation) (declarations : List Declaration) (body : Body) :
    relation declarations body (Facade.addDeclarations declarations body) := by
  match declarations with
  | [] =>
    rw [Facade.addDeclarations]
    exact h.nil body
  | declaration :: rest =>
    rw [Facade.addDeclarations]
    exact h.cons (h.addTo rest declaration body) (h.addDeclarations rest _)

end

end Along

/-- The declarations at any depth of one are those inside of it, and it. -/
theorem allAtAnyDepth_singleton (declaration : Declaration) :
    allAtAnyDepth [declaration] = declaration.atAnyDepth := by
  rw [allAtAnyDepth, allAtAnyDepth, List.append_nil]

/-- Those of several are those of the first and those of the others. -/
theorem allAtAnyDepth_cons (declaration : Declaration) (rest : List Declaration) :
    allAtAnyDepth (declaration :: rest)
      = allAtAnyDepth [declaration] ++ allAtAnyDepth rest := by
  rw [allAtAnyDepth_singleton, allAtAnyDepth]

/-- The edit is in the script of one of the declarations, at any depth of namespaces. -/
def Edit.StemsFrom (declarations : List Declaration) (edit : Edit) : Prop :=
  ∃ declaration ∈ allAtAnyDepth declarations, ∃ own, edit ∈ (declaration.script own).value

/-- A declaration that is no namespace is all that there is in it. -/
theorem Declaration.atAnyDepth_eq {declaration : Declaration}
    (hnamespace : declaration.isNamespace = false) : declaration.atAnyDepth = [declaration] := by
  cases declaration with
  | «namespace» path declarations => cases hnamespace
  | _ =>
    rw [atAnyDepth]
    simp

/-- The edits in the scripts of declarations are of some sort. -/
def Scripted (allowed : Edit → Prop) (declarations : List Declaration) : Prop :=
  ∀ declaration ∈ declarations, ∀ own, ∀ edit ∈ (declaration.script own).value, allowed edit

/-- Declarations take a body to what edits of some sort reach, if all their edits are of that
sort. -/
theorem along_reaches (allowed : Edit → Prop) :
    Along fun declarations before after =>
      Scripted allowed (allAtAnyDepth declarations) → before.Reaches allowed after.value where
  nil body _ := .refl body
  cons hfirst hrest h := by
    rw [allAtAnyDepth_cons, Scripted, List.forall_mem_append] at h
    exact (hfirst h.1).trans (hrest h.2)
  script hnamespace own body h := by
    rw [allAtAnyDepth_singleton, Declaration.atAnyDepth_eq hnamespace] at h
    exact .applyAll (h _ (List.mem_singleton.mpr rfl) own) body
  inside path _ _ hinner body h := by
    rw [allAtAnyDepth_singleton, Declaration.atAnyDepth] at h
    exact .inPackages (fun inner => hinner inner h) true _ body

/-- Declarations take a body only to what their scripts reach. -/
theorem reaches_addDeclarations (declarations : List Declaration) (body : Body) :
    body.Reaches (Edit.StemsFrom declarations) (addDeclarations declarations body).value :=
  (along_reaches _).addDeclarations declarations body
    fun declaration hdeclaration own _ hedit => ⟨declaration, hdeclaration, own, hedit⟩

/-- A facade is what the scripts of the declarations of its document reach from nothing. -/
theorem Document.reaches_toPackage (document : Document) (path : DottedName) :
    Body.empty.Reaches (Edit.StemsFrom document.declarations)
      (document.toPackage path).value.body :=
  .inPackages (reaches_addDeclarations document.declarations) false path.segments .empty

end Facade
