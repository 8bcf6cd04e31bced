import Facade.Proofs.Translation.Containers
import Facade.Proofs.Translation.Spelling
import Facade.Translation.Text

/-!
# The objects of a package

Objects of a facade have different names in each package, and their names are words, so they are
written differently. The source of a package has one object more if the package has fields or
methods of its own. That object has a name that nobody chose for it, `Globals` or the name of the
namespace, and it is written next to the others whatever they are called. So two objects of one
package have the same name exactly if that name is taken: `objects_of_packages`, for every source
and every package in it.
-/

set_option autoImplicit false

namespace Facade

/-! ### Objects of bodies and of blocks -/

/-- The name of an object. -/
def Definition.objectName? : Definition → Option Identifier
  | .object definition => some definition.name
  | _ => none

/-- The name of an object that is written. -/
def Block.objectName? : Block → Option Identifier
  | .template head _ => if head.keyword = .object then some head.name else none
  | _ => none

/-- The names of the objects that stand directly among blocks, in order. -/
def objectNames (blocks : List Block) : List Identifier :=
  blocks.filterMap Block.objectName?

namespace Package

/-- The names of the objects of a package, in order. -/
def objectNames (package : Package) : List Identifier :=
  package.body.items.filterMap Definition.objectName?

/-- Whether the package has fields or methods of its own. -/
def hasGlobals (package : Package) : Bool :=
  package.body.items.any Definition.isGlobal

/-- The name of the object that gathers the fields and methods of the package, if it has any. -/
def gatheringNames (path : List String) (package : Package) : List Identifier :=
  if package.hasGlobals then [gatheringName path package.name] else []

end Package

/-! ### The objects that are written -/

/-- The objects among blocks in two parts are those of each. -/
theorem objectNames_append (front back : List Block) :
    objectNames (front ++ back) = objectNames front ++ objectNames back :=
  List.filterMap_append

/-- Of the blocks of a definition, only that of an object is an object. -/
theorem objectNames_blocks {definition : Definition}
    (hnamed : ∀ package, definition = .package package → package.name.isEmpty = false)
    (header : Bool) (path : List String) :
    objectNames (definition.blocks header path) = definition.objectName?.toList := by
  cases definition with
  | comment text => simp [Definition.blocks, objectNames, Definition.objectName?, Block.objectName?]
  | package package =>
    rw [Definition.blocks, Package.blocks_of_named (hnamed package rfl)]
    rfl
  | «class» definition =>
    rw [Definition.blocks_class]
    -- A class or a trait is opened by a word of its own.
    cases htrait : definition.isTrait <;> simp [objectNames, Block.objectName?,
      ClassDefinition.head, Definition.objectName?]
  | object definition =>
    rw [Definition.blocks_object]
    rfl
  | field definition =>
    simp [Definition.blocks, objectNames, Definition.objectName?, Block.objectName?]
  | method definition =>
    rw [Definition.blocks]
    cases definition.pieces? <;> rfl

/-- The objects that are written for the rest of a package: those that are there, and the one that
gathers fields and methods where the first of them stands. -/
theorem objectNames_packageBlocks {items : List Definition}
    (hnamed : ∀ package, .package package ∈ items → package.name.isEmpty = false)
    (header : Bool) (path : List String) (name : Identifier) (all : List Definition)
    (previous : Option Bool) (gathered : Bool) :
    (objectNames (packageBlocks header path name all previous gathered items)).Perm
      ((if !gathered && items.any Definition.isGlobal then [gatheringName path name] else [])
        ++ items.filterMap Definition.objectName?) := by
  induction items generalizing previous gathered with
  | nil =>
    rw [packageBlocks]
    simp [objectNames]
  | cons definition rest ih =>
    have hrest := ih fun package hin => hnamed package (List.mem_cons_of_mem _ hin)
    have hblank : ∀ condition : Bool, objectNames (if condition then [.blank] else []) = [] := by
      intro condition
      cases condition <;> rfl
    rw [packageBlocks]
    cases hglobal : definition.isGlobal with
    -- The first field or method makes the object that gathers all of them.
    | true =>
      have hnone : definition.objectName? = none := by
        cases definition <;> first | rfl | cases hglobal
      rw [List.filterMap_cons_none hnone]
      cases gathered with
      | true => simpa using hrest previous true
      | false =>
        have hgathered := hrest (some definition.isBlock) true
        simp only [Bool.not_true, Bool.false_and, Bool.false_eq_true, if_false, List.nil_append]
          at hgathered
        simp only [Bool.and_false, Bool.false_eq_true, if_false, if_true, objectNames_append,
          hblank, List.nil_append, Bool.not_false, List.any_cons, hglobal, Bool.true_or,
          Bool.and_true]
        exact hgathered.cons _
    -- Anything else is written where it stands, and may come in front of that object.
    | false =>
      have hpackage : ∀ package, definition = .package package → package.name.isEmpty = false :=
        fun package heq => hnamed package (heq ▸ List.mem_cons_self)
      have hblocks := objectNames_blocks hpackage header path
      have hbehind := hrest (some definition.isBlock) gathered
      simp only [Bool.false_and, Bool.false_eq_true, if_false, objectNames_append, hblank, hblocks,
        List.nil_append, List.any_cons, hglobal, Bool.false_or, Bool.or_false]
      cases hobject : definition.objectName? with
      | none =>
        rw [List.filterMap_cons_none hobject]
        exact hbehind
      | some object =>
        rw [List.filterMap_cons_some hobject]
        exact (hbehind.cons object).trans List.perm_middle.symm

/-- The objects that are written for a package. -/
theorem Package.objectNames_inside {package : Package} (hnamed : package.IsNamed) (header : Bool)
    (path : List String) :
    (Facade.objectNames (package.inside header path)).Perm
      (package.gatheringNames path ++ package.objectNames) := by
  have hinner : ∀ next, .package next ∈ package.body.items → next.name.isEmpty = false :=
    fun next hin => hnamed [next] next (.into hin (.here next)) next (List.mem_singleton.mpr rfl)
  have hcontents :=
    objectNames_packageBlocks hinner header path package.name package.body.items none false
  unfold inside
  split
  · have hheader : ∀ more, Facade.objectNames (headerBlocks header more) = [] := by
      intro more
      cases header <;> cases more <;> rfl
    rw [objectNames_append, hheader, List.nil_append]
    exact hcontents
  · have hend : ∀ condition : Bool,
        Facade.objectNames (if condition then [] else [.blank]) = [] := by
      intro condition
      cases condition <;> rfl
    rw [objectNames_append, hend, List.append_nil]
    exact hcontents

/-! ### The objects of a facade -/

/-- A package that a trail leads to is a container. -/
theorem Package.Leads.contains {outer inner : Package} {trail : List Package}
    (h : outer.Leads trail inner) : outer.body.Contains inner.body := by
  induction h with
  | here package => exact .self package.body
  | into hin _ ih => exact .inside hin rfl ih

/-- The packages on a trail stand in bodies of the facade. -/
theorem Package.Leads.mem_contains {outer inner : Package} {trail : List Package}
    (h : outer.Leads trail inner) : ∀ next ∈ trail, ∃ body, outer.body.Contains body
      ∧ .package next ∈ body.items := by
  induction h with
  | here package => exact fun _ hin => absurd hin List.not_mem_nil
  | @into outer next inner trail hin _ ih =>
    refine List.forall_mem_cons.mpr ⟨⟨outer.body, .self _, hin⟩, fun found hfound => ?_⟩
    obtain ⟨body, hbody, hfound⟩ := ih found hfound
    exact ⟨body, .inside hin rfl hbody, hfound⟩

/-- If every package of a facade has a name, so has every package on a trail. -/
theorem Package.isNamed_of_everywhere {package : Package} {member : Identifier → Prop}
    (h : package.body.Everywhere (Definition.Spelled (fun name => name.isEmpty = false) member)) :
    package.IsNamed := by
  intro trail inner hleads next hnext
  obtain ⟨body, hbody, hin⟩ := hleads.mem_contains next hnext
  exact (Body.everywhere_iff.mp (hbody.everywhere h) _ hin).1

/-- Objects of a linked body have different names. -/
theorem Package.nodup_objectNames {package : Package} (h : package.body.Linked) :
    package.objectNames.Nodup := by
  rw [objectNames, List.nodup_iff_pairwise_ne, List.pairwise_filterMap, List.pairwise_iff_getElem]
  intro i j hi hj hlt first hfirst second hsecond heq
  subst heq
  have hlabel : ∀ {definition : Definition}, definition.objectName? = some first →
      definition.isContainer = true ∧ definition.label = ⟨.object, some first⟩ := by
    intro definition hname
    cases definition <;> cases hname
    exact ⟨rfl, rfl⟩
  have hsame := h.unique i j _ _ (List.getElem?_eq_getElem hi) (List.getElem?_eq_getElem hj)
    (hlabel hfirst).1 ((hlabel hfirst).2.trans (hlabel hsecond).2.symm)
  exact absurd hsame (Nat.ne_of_lt hlt)

/-- A word is not empty. -/
theorem Identifier.IsWord.isEmpty {name : Identifier} (h : name.IsWord) : name.isEmpty = false :=
  beq_eq_false_iff_ne.mpr h.nonempty

/-- The facade of a document that is read, under any output path, has words for the names of its
objects, and its packages are not without a name. -/
theorem Document.everywhere_ofText {text : String} {document : Document}
    (htext : Document.ofText text = .ok document) (output : String) :
    (document.toPackage (.ofText output)).value.body.Everywhere
      (Definition.Spelled (fun name => name.isEmpty = false) fun _ => True) :=
  Document.spelled_toPackage (Document.formed_ofText htext)
    (fun name hname => beq_eq_false_iff_ne.mpr (DottedName.of_mem_ofText name hname).1)
    (fun _ hword => hword.isEmpty) (fun _ _ => trivial) fun _ _ _ _ _ _ _ => trivial

/-- The source of a facade is the text of a tree. What stands at the top of the tree, or between the
braces of a package in it, is what is written for a package of the facade: its objects, which are
written under different names, and an object that gathers its fields and methods, if it has any. Two
of them are written under the same name exactly if the package has fields or methods and an object
under the name of the one that gathers them. -/
theorem objects_of_packages {text : String} {document : Document}
    (htext : Document.ofText text = .ok document) (output : String) (layout : Layout) :
    (document.translate (.ofText output) layout).code = displayBlocks layout.indent 0
        ((document.toPackage (.ofText output)).value.blocks layout.header [])
      ∧ ∀ body, PackageBody ((document.toPackage (.ofText output)).value.blocks layout.header [])
          body →
        ∃ trail package, (document.toPackage (.ofText output)).value.Leads trail package
          ∧ body = package.inside layout.header (namespacesOf trail)
          ∧ (objectNames body).Perm
              (package.gatheringNames (namespacesOf trail) ++ package.objectNames)
          ∧ (package.objectNames.map Identifier.display).Nodup
          ∧ (((objectNames body).map Identifier.display).Nodup
              ↔ ¬ (package.hasGlobals = true
                ∧ (gatheringName (namespacesOf trail) package.name).display
                  ∈ package.objectNames.map Identifier.display)) := by
  have heverywhere := document.everywhere_ofText htext output
  have hnamed := Package.isNamed_of_everywhere heverywhere
  refine ⟨Package.render_eq _ layout, fun body hbody => ?_⟩
  obtain ⟨trail, package, hleads, rfl⟩ := (Package.packageBody_iff rfl hnamed).mp hbody
  have hperm :=
    Package.objectNames_inside (hleads.isNamed hnamed) layout.header (namespacesOf trail)
  -- Objects have different names, and different words are displayed differently.
  have hnodup : (package.objectNames.map Identifier.display).Nodup := by
    have hword : ∀ name ∈ package.objectNames, name.IsWord := by
      intro name hname
      obtain ⟨definition, hd, hobject⟩ := List.mem_filterMap.mp hname
      have hspelled := (Body.everywhere_iff.mp (hleads.contains.everywhere heverywhere) _ hd).1
      cases definition <;> cases hobject
      exact hspelled
    have hlinked := (hleads.contains.sound (document.sound_toPackage _)).linked
    rw [List.nodup_iff_pairwise_ne, List.pairwise_map]
    refine List.Pairwise.imp_of_mem (fun hfirst hsecond hne heq => hne ?_)
      (Package.nodup_objectNames hlinked)
    exact (Identifier.display_inj (hword _ hfirst) (hword _ hsecond)).mp heq
  refine ⟨trail, package, hleads, rfl, hperm, hnodup, ?_⟩
  -- So only the name of the object that gathers the others can be there twice.
  rw [(hperm.map Identifier.display).nodup_iff, List.map_append, Package.gatheringNames]
  cases package.hasGlobals with
  | true => simp [hnodup]
  | false => simpa using hnodup

/-- A namespace with an object of its own name, and a field. -/
def namespaceInItself : Document where
  declarations := [.namespace ["N"] [
    .variable "N" (some (.object [.property "x" false (some (.primitive .number))])),
    .variable "y" (some (.primitive .number))]]
  lost := []

/-- The text of that namespace. -/
theorem ofText_namespaceInItself :
    Document.ofText "namespace N \x7b var N: \x7b x: number \x7d; var y: number; \x7d"
      = .ok namespaceInItself := by
  with_unfolding_all rfl

/-- The package of that namespace has two objects of its name, and it has fields and an object under
the name of the one that gathers them. -/
theorem objects_of_packages_namespace :
    ∃ body, PackageBody ((namespaceInItself.toPackage (.ofText "p")).value.blocks false []) body
      ∧ objectNames body = [⟨"N"⟩, ⟨"N"⟩]
      ∧ ∃ trail package, (namespaceInItself.toPackage (.ofText "p")).value.Leads trail package
        ∧ body = package.inside false (namespacesOf trail)
        ∧ (objectNames body).Perm
            (package.gatheringNames (namespacesOf trail) ++ package.objectNames)
        ∧ (package.objectNames.map Identifier.display).Nodup
        ∧ (((objectNames body).map Identifier.display).Nodup
            ↔ ¬ (package.hasGlobals = true
              ∧ (gatheringName (namespacesOf trail) package.name).display
                ∈ package.objectNames.map Identifier.display)) := by
  have hbody : PackageBody ((namespaceInItself.toPackage (.ofText "p")).value.blocks false []) _ :=
    .inside (List.mem_singleton.mpr rfl)
      (.inside (List.mem_cons_of_mem _ (List.mem_cons_self)) (.self _))
  exact ⟨_, hbody, rfl, (objects_of_packages ofText_namespaceInItself "p" ⟨2, false⟩).2 _ hbody⟩

/-- An object that is called like the one that gathers fields and methods outside of namespaces, and
a field. -/
def namedGlobals : Document where
  declarations := [
    .variable "Globals" (some (.object [.property "x" false (some (.primitive .number))])),
    .variable "y" (some (.primitive .number))]
  lost := []

/-- Two objects of one package may be written under the same name. -/
theorem objects_of_packages_clash :
    ∃ text document output body, Document.ofText text = .ok document
      ∧ PackageBody ((document.toPackage (.ofText output)).value.blocks false []) body
      ∧ ¬ ((objectNames body).map Identifier.display).Nodup :=
  ⟨"declare var Globals: \x7b x: number; \x7d; declare var y: number;", namedGlobals, "", _,
    by with_unfolding_all rfl, .self _, by decide +kernel⟩

end Facade
