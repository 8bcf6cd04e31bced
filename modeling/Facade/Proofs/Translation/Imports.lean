import Facade.Proofs.Translation.Objects
import Facade.Proofs.Translation.Order

/-!
# Which symbols are classes

A class starts as a trait and is one until it gets a constructor, so whether it ends as a class
depends on everything that was ever added to its package. `Import` is a record of one declaration
that was added: the packages it was added to, and the type parameters that its construct signatures
were compared with. `Document.imports` is the record of a whole translation, made along the way of
`addDeclarations` and with the same bodies.

What holds of a package along a translation is told from its imports: `Tracks` lists what a relation
between the bodies before and behind some imports takes to be kept, and `Tracks.toPackage` is the
induction over a document.

`Declaration.Installs` says which declarations give the class of a name a constructor. Imports make
a class of what they install, and of nothing else (`tracks_isClass`), so the classes of a facade are
those with an import that installs a constructor: `classes_of_packages`.
-/

set_option autoImplicit false

namespace Facade

/-! ### Constructors of a declaration -/

/-- The member gives the class of a name a constructor, where its construct signatures are compared
with that class applied to the given type parameters: a class has its construct signatures and the
methods called `constructor`, and an object those that construct the class exactly. -/
inductive Member.Installs (name : Identifier) (own : List Identifier) : Holder → Member → Prop where
  | construct (signature : Signature) : Installs name own .ofClass (.construct signature)
  | constructor (optional : Bool) (signature : Signature) :
      Installs name own .ofClass (.method "constructor" optional signature)
  | companion {signature : Signature} :
      signature.result.any (TypeExpr.isSelfType name own) = true →
      Installs name own .ofObject (.construct signature)
  | ofCompanion {member : Member} : Installs name own .ofObject member →
      Installs name own .ofClass (.static member)
  | static {holder : Holder} {member : Member} : holder ≠ .ofClass →
      Installs name own holder member → Installs name own holder (.static member)

/-- The declaration gives the class of a name a constructor: it is a class of that name, or a
variable of that name and of an object type, and one of its members does. -/
inductive Declaration.Installs (own : List Identifier) : Identifier → Declaration → Prop where
  | class {name : String} {typeParameters : List TypeParameter} {parent : Option TypeExpr}
      {interfaces : List TypeExpr} {members : List Member} {member : Member} : member ∈ members →
      member.Installs ⟨name⟩ own .ofClass →
      Installs own ⟨name⟩ (.class name typeParameters parent interfaces members)
  | variable {name : String} {members : List Member} {member : Member} : member ∈ members →
      member.Installs ⟨name⟩ own .ofObject →
      Installs own ⟨name⟩ (.variable name (some (.object members)))

/-! ### The record of a translation -/

/-- The body of the package that a path leads to, or an empty one. -/
def Body.packageAt : List Identifier → Body → Body
  | [], body => body
  | name :: rest, body => packageAt rest (body.packageOrNew name).body

/-- A declaration that was added to a package. -/
structure Import where
  /-- The names of the packages on the way to it, the outermost first. -/
  target : List Identifier
  declaration : Declaration
  /-- The type parameters that construct signatures are compared with: those that the class of the
  declaration's name has by then, or those of a later declaration. -/
  own : List Identifier

mutual

/-- The imports of a declaration into a package and its body, with the declarations behind it. -/
def Declaration.imports (target : List Identifier) (later : List Declaration) :
    Declaration → Body → List Import
  | .namespace path declarations, body =>
    importsAll (target ++ path.map Identifier.mk) declarations
      (body.packageAt (path.map Identifier.mk))
  | declaration, body => [⟨target, declaration, declaration.ownParameters later body⟩]

/-- The imports of declarations, in order. -/
def importsAll (target : List Identifier) : List Declaration → Body → List Import
  | [], _ => []
  | declaration :: rest, body =>
    declaration.imports target rest body
      ++ importsAll target rest (declaration.addTo rest body).value

end

/-- All imports of a document under an output path. -/
def Document.imports (document : Document) (path : DottedName) : List Import :=
  importsAll path.segments document.declarations .empty

/-- One of the imports into a package gives the class of a name a constructor. -/
def Installed (imports : List Import) (target : List Identifier) (name : Identifier) : Prop :=
  ∃ found ∈ imports, found.target = target ∧ found.declaration.Installs found.own name

/-- One of the imports in two parts gives the class a constructor if one of either part does. -/
theorem installed_append {front back : List Import} {target : List Identifier} {name : Identifier} :
    Installed (front ++ back) target name
      ↔ Installed front target name ∨ Installed back target name := by
  simp only [Installed, List.mem_append, or_and_right, exists_or]

mutual

/-- Imports of a declaration go into its package, or into packages inside it. -/
theorem Declaration.prefix_target {target : List Identifier} {later : List Declaration}
    (declaration : Declaration) (body : Body) :
    ∀ found ∈ declaration.imports target later body, target <+: found.target := by
  match declaration with
  | .namespace path declarations =>
    intro found hfound
    rw [Declaration.imports] at hfound
    exact (List.prefix_append _ _).trans (prefix_target_all declarations _ found hfound)
  | .variable _ _ | .function _ _ | .interface _ _ _ _ | .alias _ _ _ | .class _ _ _ _ _
  | .unsupported _ => exact List.forall_mem_singleton.mpr (List.prefix_refl target)

/-- Declarations are imported into the package that they are added to, or into one inside it. -/
theorem prefix_target_all {target : List Identifier} (declarations : List Declaration)
    (body : Body) : ∀ found ∈ importsAll target declarations body, target <+: found.target := by
  match declarations with
  | [] => exact fun _ hin => absurd hin List.not_mem_nil
  | declaration :: rest =>
    rw [importsAll, List.forall_mem_append]
    exact ⟨declaration.prefix_target body, prefix_target_all rest _⟩

end

/-! ### Scripts that install constructors -/

/-- The edit gives the class of a name a constructor. -/
def Edit.Installs (name : Identifier) : Edit → Prop
  | .onClass other change => other = name ∧ change.keepsTrait = false
  | _ => False

/-- There is a class of the name, and it is no trait. -/
def Body.IsClass (name : Identifier) (body : Body) : Prop :=
  ∃ definition : ClassDefinition,
    body.view ⟨.class, some name⟩ = some (.class definition) ∧ definition.isTrait = false

/-- There is no class in an empty body. -/
theorem Body.not_isClass_empty (name : Identifier) : ¬ Body.empty.IsClass name := by
  rintro ⟨definition, hview, -⟩
  cases hview

/-- Whether a name is that of a class is a matter of what is seen under it. -/
theorem Body.IsClass.of_view {name : Identifier} {first second : Body}
    (h : first.view ⟨.class, some name⟩ = second.view ⟨.class, some name⟩) :
    first.IsClass name ↔ second.IsClass name := by
  rw [IsClass, IsClass, h]

/-- A change takes away that a class is a trait, or leaves it. -/
theorem ClassChange.isTrait_apply (change : ClassChange) (definition : ClassDefinition) :
    (change.apply definition).isTrait = (definition.isTrait && change.keepsTrait) := by
  have hall := isTrait_applyAll [change] definition
  rwa [List.all_cons, List.all_nil, Bool.and_true] at hall

/-- The class of a name is no trait behind a change if it was none, or the change gives it a
constructor. -/
theorem Body.isClass_onClass (body : Body) (name : Identifier) (change : ClassChange) :
    ((Edit.onClass name change).apply body).IsClass name
      ↔ body.IsClass name ∨ change.keepsTrait = false := by
  obtain ⟨found, hview, hbefore⟩ := body.view_onClass name change
  rw [IsClass, hview, IsClass]
  -- A class that is new was no class before, and starts as a trait.
  obtain hbefore | ⟨hbefore, rfl⟩ := hbefore <;>
    simp [hbefore, change.isTrait_apply, ClassDefinition.named, -Bool.and_eq_false_imp,
      Bool.and_eq_false_iff]

/-- An edit makes a class of what it gives a constructor, and leaves all else as it is. -/
theorem Body.isClass_apply (body : Body) (edit : Edit) (name : Identifier) :
    (edit.apply body).IsClass name ↔ body.IsClass name ∨ edit.Installs name := by
  by_cases hedit : ∃ change, edit = .onClass name change
  · obtain ⟨change, rfl⟩ := hedit
    simp [body.isClass_onClass, Edit.Installs]
  · -- Edits of other names and edits of objects leave the class of the name as it is.
    have hview := view_class_of_ne (fun change heq => hedit ⟨change, heq⟩) body
    have hnot : ¬ edit.Installs name := fun hinstalls => by
      cases edit with
      | onClass other change => exact hedit ⟨change, by rw [hinstalls.1]⟩
      | _ => exact hinstalls
    exact (IsClass.of_view hview).trans (or_iff_left hnot).symm

/-- Behind several edits, it is none if it was none, or one of them gives it a constructor. -/
theorem Body.isClass_applyAll (edits : List Edit) (body : Body) (name : Identifier) :
    (Edit.applyAll edits body).IsClass name
      ↔ body.IsClass name ∨ ∃ edit ∈ edits, edit.Installs name := by
  induction edits generalizing body with
  | nil => simp
  | cons edit rest ih =>
    rw [Edit.applyAll_cons, ih, body.isClass_apply, or_assoc]
    simp only [List.mem_cons, or_and_right, exists_or, exists_eq_left]

/-! ### Members and declarations that install constructors -/

/-- What is entered into a body is no constructor. -/
theorem Holder.not_installs_edit (holder : Holder) (name : Identifier) (entry : Entry)
    (other : Identifier) : ¬ ∃ edit ∈ [holder.edit name entry], edit.Installs other := by
  rintro ⟨edit, hedit, hinstalls⟩
  cases List.mem_singleton.mp hedit
  cases holder with
  | ofObject => exact hinstalls
  | ofInterface | ofClass => cases hinstalls.2

/-- A change that takes away that a class is a trait installs what the member does. -/
theorem Member.installs_onClass {member : Member} {holder : Holder} {name : Identifier}
    {own : List Identifier} {change : ClassChange} (hchange : change.keepsTrait = false)
    (hmember : member.Installs name own holder) (other : Identifier) :
    (∃ edit ∈ [Edit.onClass name change], edit.Installs other)
      ↔ other = name ∧ member.Installs name own holder := by
  constructor
  · rintro ⟨edit, hedit, hinstalls⟩
    cases List.mem_singleton.mp hedit
    exact ⟨hinstalls.1.symm, hmember⟩
  · rintro ⟨rfl, -⟩
    exact ⟨_, List.mem_singleton.mpr rfl, rfl, hchange⟩

/-- The script of a member gives the class of its holder's name a constructor exactly if the member
does. -/
theorem Member.installs_script (holder : Holder) (name : Identifier) (own : List Identifier)
    (member : Member) (other : Identifier) :
    (∃ edit ∈ (member.script holder name own).value, edit.Installs other)
      ↔ other = name ∧ member.Installs name own holder := by
  have hnone := fun entry : Entry => holder.not_installs_edit name entry other
  match member with
  | .call signature =>
    exact iff_of_false (hnone _) fun h => by cases h.2
  | .index parameter type =>
    exact iff_of_false (hnone _) fun h => by cases h.2
  | .property word optional type =>
    rw [script]
    split
    -- A property called `prototype` is skipped.
    · exact iff_of_false (fun h => by simp at h) fun h => by cases h.2
    · exact iff_of_false (hnone _) fun h => by cases h.2
  | .construct signature =>
    cases holder with
    | ofObject =>
      rw [script]
      split
      · rename_i hself
        exact Member.installs_onClass rfl (.companion hself) other
      -- The signature constructs something else, so it is kept as a comment.
      · rename_i hself
        refine iff_of_false (hnone _) fun h => hself ?_
        cases h.2
        assumption
    | ofInterface => exact iff_of_false (hnone _) fun h => by cases h.2
    | ofClass => exact Member.installs_onClass rfl (.construct signature) other
  | .method word optional signature =>
    rw [script]
    split
    · rename_i hconstructor
      simp only [Bool.and_eq_true, decide_eq_true_eq, beq_iff_eq] at hconstructor
      obtain ⟨rfl, rfl⟩ := hconstructor
      exact Member.installs_onClass rfl (.constructor optional signature) other
    · rename_i hconstructor
      refine iff_of_false (hnone _) fun h => hconstructor ?_
      cases h.2
      rfl
  | .static inner =>
    rw [script]
    split
    -- A static member of a class is a member of its object, which is opened first.
    · rename_i hholder
      subst hholder
      have hinner := inner.installs_script .ofObject name own other
      simp only [Noted.bind_pure_eq, List.mem_cons, or_and_right, exists_or, exists_eq_left, hinner]
      rw [or_iff_right (show ¬ (Edit.object name).Installs other from id)]
      refine and_congr_right fun _ => ⟨.ofCompanion, fun h => ?_⟩
      cases h with
      | ofCompanion h => exact h
      | static hne => exact absurd rfl hne
    · rename_i hholder
      rw [inner.installs_script holder name own other]
      refine and_congr_right fun _ => ⟨.static hholder, fun h => ?_⟩
      cases h with
      | ofCompanion => exact absurd rfl hholder
      | static _ h => exact h

/-- Members give a constructor to the class of their holder only, and do so if one of them does. -/
theorem Member.installs_scripts (holder : Holder) (name : Identifier) (own : List Identifier)
    (members : List Member) (other : Identifier) :
    (∃ edit ∈ (scripts holder name own members).value, edit.Installs other)
      ↔ other = name ∧ ∃ member ∈ members, member.Installs name own holder := by
  induction members with
  | nil => simp [scripts]
  | cons member rest ih =>
    have hvalue : (scripts holder name own (member :: rest)).value
        = (member.script holder name own).value ++ (scripts holder name own rest).value := rfl
    simp only [hvalue, List.mem_append, or_and_right, exists_or, ih, member.installs_script,
      List.mem_cons, exists_eq_left, and_or_left]

/-- Interfaces have no constructors. -/
theorem Member.not_installs_ofInterface {name : Identifier} {own : List Identifier}
    (member : Member) : ¬ member.Installs name own .ofInterface := by
  intro h
  generalize hholder : Holder.ofInterface = holder at h
  induction h with
  | static _ _ ih => exact ih hholder
  | construct | constructor | companion | ofCompanion => cases hholder

/-- To open a class with a header gives it no constructor. -/
theorem installs_classScript (holder : Holder) (name : String) (typeParameters : List TypeParameter)
    (parents : List TypeExpr) (members : List Member) (own : List Identifier) (other : Identifier) :
    (∃ edit ∈ (classScript holder name typeParameters parents members own).value,
      edit.Installs other)
      ↔ other = ⟨name⟩ ∧ ∃ member ∈ members, member.Installs ⟨name⟩ own holder := by
  have hvalue : (classScript holder name typeParameters parents members own).value
      = .onClass ⟨name⟩
          (.header (TypeParameter.identifiers typeParameters) (toScalaAll parents).value)
        :: (Member.scripts holder ⟨name⟩ own members).value := rfl
  simp only [hvalue, List.mem_cons, or_and_right, exists_or, exists_eq_left,
    Member.installs_scripts]
  -- The header leaves a trait a trait.
  exact or_iff_right fun h => by cases h.2

/-- The script of a declaration gives a class a constructor exactly if the declaration does. -/
theorem Declaration.installs_script (own : List Identifier) (declaration : Declaration)
    (name : Identifier) :
    (∃ edit ∈ (declaration.script own).value, edit.Installs name)
      ↔ declaration.Installs own name := by
  have hnone : ∀ entry : Entry, ¬ (∃ edit ∈ [Edit.here entry], edit.Installs name) := by
    rintro entry ⟨edit, hedit, hinstalls⟩
    cases List.mem_singleton.mp hedit
    exact hinstalls
  have hscripts := declaration.scripts_script own
  generalize declaration.script own = script at hscripts ⊢
  cases hscripts with
  | field hplain =>
    refine iff_of_false (hnone _) fun h => ?_
    cases h
    cases hplain
  | function declared signature => exact iff_of_false (hnone _) fun h => by cases h
  | comment text hkept => exact iff_of_false (hnone _) fun h => by cases h <;> cases hkept
  | object declared members =>
    have hscripts := Member.installs_scripts .ofObject ⟨declared⟩ own members name
    simp only [Noted.bind_pure_eq, List.mem_cons, or_and_right, exists_or, exists_eq_left, hscripts]
    rw [or_iff_right (show ¬ (Edit.object ⟨declared⟩).Installs name from id)]
    constructor
    · rintro ⟨rfl, member, hmember, hinstalls⟩
      exact .variable hmember hinstalls
    · rintro (_ | ⟨hmember, hinstalls⟩)
      exact ⟨rfl, _, hmember, hinstalls⟩
  | «class» hclass =>
    rw [installs_classScript]
    cases hclass with
    -- Interfaces and aliases open a class, and give it nothing.
    | «interface» | «alias» =>
      refine iff_of_false ?_ fun h => by cases h
      rintro ⟨-, member, -, hinstalls⟩
      exact member.not_installs_ofInterface hinstalls
    | «class» =>
      constructor
      · rintro ⟨rfl, member, hmember, hinstalls⟩
        exact .class hmember hinstalls
      · rintro (⟨hmember, hinstalls⟩ | _)
        exact ⟨rfl, _, hmember, hinstalls⟩
  | «namespace» =>
    refine iff_of_false ?_ fun h => by cases h
    rintro ⟨edit, hedit, -⟩
    cases hedit

/-! ### The classes of a package -/

namespace Body

/-- The package of a name is what the view of it shows. -/
theorem package_packageOrNew (body : Body) (name : Identifier) :
    Definition.package (body.packageOrNew name)
      = (body.view ⟨.package, some name⟩).getD (.package (.named name)) := by
  rw [view, packageOrNew]
  cases hfound : body.indexOf? ⟨.package, some name⟩ with
  | none => rfl
  | some index =>
    obtain ⟨definition, hd, -⟩ := package?_of_indexOf? hfound
    rw [Option.bind_some, Option.bind_some, hd, get?_of_package? hd]
    rfl

/-- Bodies that show the same package hold the same one. -/
theorem packageOrNew_of_view {first second : Body} {name : Identifier}
    (h : first.view ⟨.package, some name⟩ = second.view ⟨.package, some name⟩) :
    first.packageOrNew name = second.packageOrNew name := by
  have hboth := first.package_packageOrNew name
  rw [h, ← second.package_packageOrNew name] at hboth
  exact Definition.package.inj hboth

/-- To fill a package is to change the view of it, and no other. -/
theorem view_fillPackage (body : Body) (name : Identifier) (isNamespace : Bool) (inner : Body)
    (label : Label) :
    (body.fillPackage name isNamespace inner).view label
      = if label = ⟨.package, some name⟩ then
          some (.package ⟨(body.packageOrNew name).name,
            (body.packageOrNew name).isNamespace || isNamespace, inner⟩)
        else body.view label := by
  have hview := (body.opens_openPackage name).view_modify
    (label_mapPackage (f := fun definition =>
      { definition with isNamespace := definition.isNamespace || isNamespace, body := inner })
      fun _ => rfl)
    (fun definition => by cases definition <;> rfl) label
  have hlabel : (Definition.package (.named name)).label = ⟨.package, some name⟩ := rfl
  rw [fillPackage, hview, hlabel]
  by_cases heq : label = ⟨.package, some name⟩
  · subst heq
    rw [if_pos rfl, if_pos rfl, ← body.package_packageOrNew name]
    rfl
  · rw [if_neg heq, if_neg heq]

/-- A path leads on from the package of its first name. -/
theorem packageAt_cons (name : Identifier) (rest : List Identifier) (body : Body) :
    body.packageAt (name :: rest) = (body.packageOrNew name).body.packageAt rest := by
  rw [packageAt]

/-- An empty body has empty packages only. -/
theorem packageAt_empty (path : List Identifier) : empty.packageAt path = .empty := by
  induction path with
  | nil => rfl
  | cons first rest ih =>
    rw [packageAt_cons]
    exact ih

/-- What a package is filled with is what it has then, and other packages are as before. -/
theorem packageOrNew_fillPackage (body : Body) (name : Identifier) (isNamespace : Bool)
    (inner : Body) (other : Identifier) :
    ((body.fillPackage name isNamespace inner).packageOrNew other).body
      = if other = name then inner else (body.packageOrNew other).body := by
  by_cases heq : other = name
  · subst heq
    have hpackage := (body.fillPackage other isNamespace inner).package_packageOrNew other
    rw [view_fillPackage, if_pos rfl, Option.getD_some] at hpackage
    rw [if_pos rfl, Definition.package.inj hpackage]
  · rw [if_neg heq, packageOrNew_of_view]
    rw [view_fillPackage, if_neg fun hlabel => heq (Option.some.inj (congrArg Label.name hlabel))]

/-- A path in two parts leads on from where the first part leads. -/
theorem packageAt_append (path more : List Identifier) (body : Body) :
    body.packageAt (path ++ more) = (body.packageAt path).packageAt more := by
  induction path generalizing body with
  | nil => rfl
  | cons name rest ih => rw [List.cons_append, packageAt_cons, packageAt_cons, ih]

/-- What is done in the innermost package of a path is done in the packages inside that one. In all
others, no class and no object changes. -/
theorem packageAt_inPackages (isNamespace : Bool) (f : Body → Noted Body)
    (path inside : List Identifier) (body : Body) :
    (∃ more, inside = path ++ more ∧ (body.inPackages isNamespace f path).value.packageAt inside
        = (f (body.packageAt path)).value.packageAt more)
      ∨ ¬ path <+: inside ∧ ∀ label : Label, label.kind ≠ .package →
        ((body.inPackages isNamespace f path).value.packageAt inside).view label
          = (body.packageAt inside).view label := by
  induction path generalizing body inside with
  | nil =>
    refine .inl ⟨inside, rfl, ?_⟩
    rw [inPackages_nil]
    rfl
  | cons first rest ih =>
    rw [inPackages_cons]
    cases inside with
    -- The package of the path is inside this one, where only that package is filled.
    | nil =>
      refine .inr ⟨fun hprefix => List.cons_ne_nil _ _ (List.prefix_nil.mp hprefix), ?_⟩
      intro label hkind
      rw [packageAt, packageAt, view_fillPackage,
        if_neg fun hlabel => hkind (congrArg Label.kind hlabel)]
    -- Below this package, it counts whether the way goes through the first of the path.
    | cons other more =>
      simp only [packageAt_cons, packageOrNew_fillPackage, List.cons_prefix_cons]
      by_cases heq : other = first
      · subst heq
        rw [if_pos rfl]
        rcases ih more (body.packageOrNew other).body with ⟨behind, rfl, hinner⟩ | ⟨hnot, hviews⟩
        · exact .inl ⟨behind, rfl, hinner⟩
        · exact .inr ⟨fun h => hnot h.2, hviews⟩
      · rw [if_neg heq]
        exact .inr ⟨fun h => heq h.1.symm, fun _ _ => rfl⟩

/-- Imports into a package and those inside it are none into a package elsewhere. -/
theorem target_ne_of_elsewhere {imports : List Import} {target path inside : List Identifier}
    (hstarts : ∀ found ∈ imports, target ++ path <+: found.target) (hnot : ¬ path <+: inside) :
    ∀ found ∈ imports, found.target ≠ target ++ inside := by
  intro found hfound htarget
  have hstart := hstarts found hfound
  rw [htarget] at hstart
  exact hnot ((List.prefix_append_right_inj target).mp hstart)

end Body

namespace Declaration

variable {declaration : Declaration}

/-- A declaration other than a namespace is one import. -/
theorem imports_eq (hnamespace : declaration.isNamespace = false) (target : List Identifier)
    (later : List Declaration) (body : Body) :
    declaration.imports target later body
      = [⟨target, declaration, declaration.ownParameters later body⟩] := by
  cases declaration with
  | «namespace» path declarations => cases hnamespace
  | _ => rfl

/-- A declaration other than a namespace leaves the packages as they are. -/
theorem packageAt_addTo (hnamespace : declaration.isNamespace = false) (later : List Declaration)
    (body : Body) (first : Identifier) (rest : List Identifier) :
    (declaration.addTo later body).value.packageAt (first :: rest)
      = body.packageAt (first :: rest) := by
  have hview := Body.view_package_applyAll
    (declaration.script (declaration.ownParameters later body)).value body first
  rw [declaration.addTo_eq later body hnamespace, Noted.applyTo, Body.packageAt_cons,
    Body.packageAt_cons, Body.packageOrNew_of_view hview]

end Declaration

/-! ### What imports do to a package -/

/-- A relation between the bodies of the package under a path, before and behind some imports, that
is kept along a translation. It holds where no import goes into the package and only the packages in
it change, it goes on from imports to those that come next, and it holds of the edits of a
declaration. -/
structure Tracks (full : List Identifier) (relation : List Import → Body → Body → Prop) : Prop where
  still {imports : List Import} {before after : Body} :
    (∀ found ∈ imports, found.target ≠ full) →
    (∀ label : Label, label.kind ≠ .package → after.view label = before.view label) →
    relation imports before after
  append {front back : List Import} {first second third : Body} :
    relation front first second → relation back second third →
    relation (front ++ back) first third
  script (declaration : Declaration) (own : List Identifier) (body : Body) :
    relation [⟨full, declaration, own⟩] body
      (Edit.applyAll (declaration.script own).value body)

namespace Tracks

variable {full : List Identifier} {relation : List Import → Body → Body → Prop}

/-- What is done in the innermost package of a path is kept track of in that package and in those
inside it, and no other package notices. -/
theorem inPackages (h : Tracks full relation) {f : Body → Noted Body}
    {record : Body → List Import} (isNamespace : Bool) (target path : List Identifier)
    (hstarts : ∀ inner, ∀ found ∈ record inner, target ++ path <+: found.target)
    (hf : ∀ inner more, target ++ path ++ more = full →
      relation (record inner) (inner.packageAt more) ((f inner).value.packageAt more))
    {inside : List Identifier} (hfull : target ++ inside = full) (body : Body) :
    relation (record (body.packageAt path)) (body.packageAt inside)
      ((body.inPackages isNamespace f path).value.packageAt inside) := by
  rcases body.packageAt_inPackages isNamespace f path inside with
    ⟨more, rfl, hinner⟩ | ⟨hnot, hviews⟩
  · rw [← List.append_assoc] at hfull
    rw [hinner, Body.packageAt_append]
    exact hf _ more hfull
  · exact h.still (hfull ▸ Body.target_ne_of_elsewhere (hstarts _) hnot) hviews

/-- A declaration other than a namespace edits its package, and the packages in it stay as they
are. -/
theorem addTo_of_script (h : Tracks full relation) {declaration : Declaration}
    (hnamespace : declaration.isNamespace = false) (later : List Declaration)
    {target inside : List Identifier} (hfull : target ++ inside = full) (body : Body) :
    relation (declaration.imports target later body) (body.packageAt inside)
      ((declaration.addTo later body).value.packageAt inside) := by
  rw [declaration.imports_eq hnamespace]
  cases inside with
  | nil =>
    rw [List.append_nil] at hfull
    rw [declaration.addTo_eq later body hnamespace, Noted.applyTo, Body.packageAt, Body.packageAt,
      hfull]
    exact h.script declaration _ body
  | cons first rest =>
    rw [declaration.packageAt_addTo hnamespace]
    refine h.still (List.forall_mem_singleton.mpr fun heq => ?_) fun _ _ => rfl
    exact List.cons_ne_nil first rest (List.self_eq_append_right.mp (heq.trans hfull.symm))

mutual

/-- What is kept along a translation is kept by one declaration. -/
theorem addTo (h : Tracks full relation) (later : List Declaration) (declaration : Declaration)
    {target inside : List Identifier} (hfull : target ++ inside = full) (body : Body) :
    relation (declaration.imports target later body) (body.packageAt inside)
      ((declaration.addTo later body).value.packageAt inside) := by
  match declaration with
  | .namespace path declarations =>
    rw [Declaration.addTo, Declaration.imports]
    exact h.inPackages true target (path.map Identifier.mk)
      (fun inner => prefix_target_all declarations inner)
      (fun inner more hmore => h.addDeclarations declarations hmore inner) hfull body
  | .variable _ _ | .function _ _ | .interface _ _ _ _ | .alias _ _ _ | .class _ _ _ _ _
  | .unsupported _ => exact h.addTo_of_script rfl later hfull body

/-- It is kept by declarations in order. -/
theorem addDeclarations (h : Tracks full relation) (declarations : List Declaration)
    {target inside : List Identifier} (hfull : target ++ inside = full) (body : Body) :
    relation (importsAll target declarations body) (body.packageAt inside)
      ((Facade.addDeclarations declarations body).value.packageAt inside) := by
  match declarations with
  | [] =>
    rw [Facade.addDeclarations, importsAll]
    exact h.still (List.forall_mem_nil _) fun _ _ => rfl
  | declaration :: rest =>
    rw [Facade.addDeclarations, importsAll]
    exact h.append (h.addTo rest declaration hfull body)
      (h.addDeclarations rest hfull (declaration.addTo rest body).value)

end

/-- What is kept along a translation holds between an empty body and each package of a facade. -/
theorem toPackage (h : Tracks full relation) (document : Document) (path : DottedName) :
    relation (document.imports path) .empty
      ((document.toPackage path).value.body.packageAt full) := by
  have hall := h.inPackages false [] path.segments
    (fun inner => prefix_target_all document.declarations inner)
    (fun inner more hmore => h.addDeclarations document.declarations hmore inner)
    (List.nil_append full) .empty
  rwa [Body.packageAt_empty, Body.packageAt_empty] at hall

end Tracks

/-- Declarations make the classes that their imports give a constructor, and no others. -/
theorem tracks_isClass (target : List Identifier) (name : Identifier) :
    Tracks target fun imports before after =>
      after.IsClass name ↔ before.IsClass name ∨ Installed imports target name where
  still hnone hviews := by
    refine (Body.IsClass.of_view (hviews _ Kind.noConfusion)).trans (or_iff_left ?_).symm
    rintro ⟨found, hfound, htarget, -⟩
    exact hnone found hfound htarget
  append hfront hback := by
    rw [hback, hfront, installed_append, or_assoc]
  script declaration own body := by
    rw [Body.isClass_applyAll, Declaration.installs_script]
    simp [Installed]

/-! ### The classes of a facade -/

/-- A trail leads to what stands under the names of its packages. -/
theorem Package.Leads.packageAt {outer inner : Package} {trail : List Package}
    (h : outer.Leads trail inner) (hsound : outer.body.Sound) :
    outer.body.packageAt (trail.map Package.name) = inner.body := by
  induction h with
  | here package => rfl
  | @into outer next inner trail hin _ ih =>
    obtain ⟨index, hindex⟩ := List.getElem?_of_mem hin
    have hfound := hsound.linked.indexOf?_label hindex rfl
    have hnext : outer.body.packageOrNew next.name = next := by
      rw [Body.packageOrNew, show (⟨.package, some next.name⟩ : Label)
        = (Definition.package next).label from rfl, hfound, Option.bind_some, Body.package?]
      rw [show outer.body.get? index = some (.package next) from hindex]
      rfl
    rw [List.map_cons, Body.packageAt_cons, hnext]
    exact ih (hsound.package hindex)

/-- In a linked body, a class that is there is the one that is seen under its name. -/
theorem Body.Linked.isClass_iff {body : Body} (h : body.Linked) {definition : ClassDefinition}
    (hin : .class definition ∈ body.items) :
    body.IsClass definition.name ↔ definition.isTrait = false := by
  obtain ⟨index, hindex⟩ := List.getElem?_of_mem hin
  have hfound := h.indexOf?_label hindex rfl
  have hview : body.view ⟨.class, some definition.name⟩
      = some (Definition.class definition).unlinked := by
    rw [Body.view, show (⟨.class, some definition.name⟩ : Label)
      = (Definition.class definition).label from rfl, hfound, Option.bind_some]
    rw [show body.get? index = some (.class definition) from hindex]
    rfl
  rw [IsClass, hview]
  constructor
  · rintro ⟨found, heq, htrait⟩
    cases heq
    exact htrait
  · exact fun htrait => ⟨{ definition with companion := none }, rfl, htrait⟩

/-- A name of a class is that of one in the body. -/
theorem Body.IsClass.exists_class {body : Body} {name : Identifier} (h : body.IsClass name) :
    ∃ definition, .class definition ∈ body.items ∧ definition.name = name := by
  obtain ⟨shown, hview, -⟩ := h
  obtain ⟨found, hfound, hshown⟩ := Option.map_eq_some_iff.mp hview
  obtain ⟨index, hindex, hd⟩ := Option.bind_eq_some_iff.mp hfound
  obtain ⟨definition, hclass, hname⟩ := class?_of_indexOf? hindex
  exact ⟨definition, List.mem_of_getElem? (get?_of_class? hclass), hname⟩

/-- What is installed anywhere is a class there, and nothing else is. -/
theorem Document.isClass_iff (document : Document) (path : DottedName) (target : List Identifier)
    (name : Identifier) :
    ((document.toPackage path).value.body.packageAt target).IsClass name
      ↔ Installed (document.imports path) target name := by
  have hall := (tracks_isClass target name).toPackage document path
  exact hall.trans (or_iff_right (Body.not_isClass_empty name))

/-- The source of a facade is the text of a tree. In a package of the facade, which stands in that
tree, a class that was given a constructor by an import into the package is written as a class and
stands for a global value, and any other is written as a trait. Whatever is given a constructor is
there. -/
theorem classes_of_packages {text : String} {document : Document}
    (htext : Document.ofText text = .ok document) (output : String) (layout : Layout) :
    (document.translate (.ofText output) layout).code = displayBlocks layout.indent 0
        ((document.toPackage (.ofText output)).value.blocks layout.header [])
      ∧ ∀ trail package, (document.toPackage (.ofText output)).value.Leads trail package →
        PackageBody ((document.toPackage (.ofText output)).value.blocks layout.header [])
            (package.inside layout.header (namespacesOf trail))
          ∧ (∀ name, Installed (document.imports (.ofText output)) (trail.map Package.name) name →
            ∃ definition, .class definition ∈ package.body.items ∧ definition.name = name)
          ∧ ∀ definition, .class definition ∈ package.body.items →
            (definition.isTrait = false ↔
              Installed (document.imports (.ofText output)) (trail.map Package.name)
                definition.name)
            ∧ ∃ head inner,
              .template head inner ∈ package.inside layout.header (namespacesOf trail)
                ∧ head.name = definition.name
                ∧ head.keyword = (if definition.isTrait then .trait else .class)
                ∧ head.annotations = if definition.isTrait then ["@js.native"]
                  else ["@js.native", globalAnnotation (namespacesOf trail) definition.name] := by
  have hnamed := Package.isNamed_of_everywhere (document.everywhere_ofText htext output)
  have hsound := document.sound_toPackage (.ofText output)
  refine ⟨Package.render_eq _ layout, fun trail package hleads => ?_⟩
  -- The facade's body and what was installed into it agree at every place, this one among them.
  have hiff := document.isClass_iff (.ofText output) (trail.map Package.name)
  rw [hleads.packageAt hsound] at hiff
  refine ⟨(Package.packageBody_iff rfl hnamed).mpr ⟨trail, package, hleads, rfl⟩, ?_, ?_⟩
  · exact fun name hinstalled => ((hiff name).mpr hinstalled).exists_class
  · intro definition hin
    have hblock := Package.mem_inside hin rfl layout.header (namespacesOf trail)
    rw [Definition.blocks_class] at hblock
    refine ⟨?_, _, _, hblock (List.mem_singleton.mpr rfl), rfl, rfl, rfl⟩
    rw [← (hleads.contains.sound hsound).linked.isClass_iff hin]
    exact hiff definition.name

/-- A variable that constructs an interface, which is declared behind it. -/
def constructedInterface : Document where
  declarations := [.namespace ["N"] [
    .variable "P" (some (.object [.construct ⟨[], [⟨"x", false, some (.named ["T"] [])⟩],
      some (.named ["P"] [.named ["T"] []])⟩])),
    .interface "P" [⟨"T", none, none⟩] [] []]]
  lost := []

/-- The text of the variable and the interface. -/
theorem ofText_constructedInterface :
    Document.ofText
        "namespace N \x7b var P: \x7b new(x: T): P<T> \x7d; interface P<T> \x7b \x7d \x7d"
      = .ok constructedInterface := by
  with_unfolding_all rfl

/-- The class of its facade. -/
def constructedClass : ClassDefinition :=
  ⟨⟨"P"⟩, [⟨"T"⟩], [.object], false, some 0,
    ⟨[.method ⟨.constructor, [], [⟨⟨"x"⟩, ⟨.single ⟨"T"⟩, []⟩, false⟩], .unit⟩], 0⟩⟩

/-- The facade of the variable and the interface. -/
def constructedPackage : Package :=
  ⟨⟨"N"⟩, true, ⟨[.object ⟨⟨"P"⟩, some 1, .empty⟩, .class constructedClass], 0⟩⟩

/-- The variable is an import that gives the interface a constructor, so it is written as a class.
-/
theorem classes_of_packages_companion :
    ∃ trail, (constructedInterface.toPackage (.ofText "p")).value.Leads trail constructedPackage
      ∧ .class constructedClass ∈ constructedPackage.body.items
      ∧ Installed (constructedInterface.imports (.ofText "p")) (trail.map Package.name) ⟨"P"⟩
      ∧ ∃ head inner, .template head inner ∈ constructedPackage.inside true (namespacesOf trail)
        ∧ head.name = ⟨"P"⟩ ∧ head.keyword = .class
        ∧ head.annotations = ["@js.native", "@JSGlobal(\"N.P\")"] := by
  have hleads : (constructedInterface.toPackage (.ofText "p")).value.Leads
      [⟨⟨"p"⟩, false, ⟨[.package constructedPackage], 0⟩⟩, constructedPackage] constructedPackage :=
    .into (List.mem_singleton.mpr rfl) (.into (List.mem_singleton.mpr rfl) (.here _))
  have hclass : .class constructedClass ∈ constructedPackage.body.items :=
    List.mem_cons_of_mem _ List.mem_cons_self
  obtain ⟨-, -, hall⟩ :=
    (classes_of_packages ofText_constructedInterface "p" .standard).2 _ _ hleads
  obtain ⟨hiff, head, inner, htemplate, hname, hkeyword, hannotations⟩ := hall _ hclass
  exact ⟨_, hleads, hclass, hiff.mp rfl, head, inner, htemplate, hname, hkeyword, hannotations⟩

/-- A class without a constructor. -/
def classWithoutConstructor : Document where
  declarations := [.class "C" [] none [] [.property "x" false (some (.primitive .number))]]
  lost := []

/-- A class that is declared as a class may be a trait. -/
theorem classes_of_packages_trait :
    ∃ text document, Document.ofText text = .ok document
      ∧ (∃ found ∈ document.imports .root, found.target = []
        ∧ ∃ typeParameters parent interfaces members,
          found.declaration = .class "C" typeParameters parent interfaces members)
      ∧ ∃ definition, .class definition ∈ (document.toPackage .root).value.body.items
        ∧ definition.name = ⟨"C"⟩ ∧ definition.isTrait = true :=
  ⟨"declare class C \x7b x: number; \x7d", classWithoutConstructor, by with_unfolding_all rfl,
    ⟨_, List.mem_singleton.mpr rfl, rfl, _, _, _, _, rfl⟩, _, List.mem_singleton.mpr rfl, rfl, rfl⟩

end Facade
