import Facade.Proofs.Definition.Source

/-!
# The packages of a facade and of its source

A package is reached from the facade around it through the packages on the way, its trail
(`Package.Leads`). In the source of the facade, it stands between the braces of the packages of its
trail, one inside the other. `Package.inside` is what is written there, and
`Package.packageBody_iff` says that there are no other braces: what stands in some package of the
source is the inside of a package that a trail leads to, and each of those stands somewhere.

Every definition of a package is written in it, fields and methods in the object that gathers them
and all others as they are (`Package.mem_inside`).
-/

set_option autoImplicit false

namespace Facade

/-! ### Trails -/

/-- The packages to go into, one after the other, on the way from a package to one inside it. -/
inductive Package.Leads : Package → List Package → Package → Prop where
  | here (package : Package) : package.Leads [] package
  | into {outer next inner : Package} {trail : List Package} :
      .package next ∈ outer.body.items → next.Leads trail inner → outer.Leads (next :: trail) inner

/-- The namespaces on a trail, by their names. -/
def namespacesOf (trail : List Package) : List String :=
  (trail.filter Package.isNamespace).map fun package => package.name.raw

/-- The first namespace on a trail is the outermost. -/
theorem namespacesOf_cons (package : Package) (trail : List Package) :
    namespacesOf (package :: trail)
      = innerPath [] package.name package.isNamespace ++ namespacesOf trail := by
  cases hnamespace : package.isNamespace <;> simp [namespacesOf, innerPath, hnamespace]

/-- Going into a package adds its name to the namespaces, if it is one. -/
theorem innerPath_append (path : List String) (name : Identifier) (isNamespace : Bool) :
    path ++ innerPath [] name isNamespace = innerPath path name isNamespace := by
  cases isNamespace <;> simp [innerPath]

/-- Every package on a trail has a name. Only the package at its start may be without. -/
def Package.IsNamed (package : Package) : Prop :=
  ∀ trail inner, package.Leads trail inner → ∀ next ∈ trail, next.name.isEmpty = false

/-! ### What stands in a package of the source -/

/-- The second list of blocks is the first, or stands in a package in it, however deep. -/
inductive PackageBody : List Block → List Block → Prop where
  | self (blocks : List Block) : PackageBody blocks blocks
  | inside {blocks inner body : List Block} {name : Identifier} :
      .package name inner ∈ blocks → PackageBody inner body → PackageBody blocks body

/-- What is written inside a package whose contents are in namespaces. -/
def Package.inside (header : Bool) (path : List String) (package : Package) : List Block :=
  let items := package.body.items
  let contents := packageBlocks header path package.name items none false items
  if package.name.isEmpty then headerBlocks header (!items.isEmpty) ++ contents
  else .blank :: contents ++ if items.isEmpty then [] else [.blank]

/-- A package without a name is written as what is in it. -/
theorem Package.blocks_of_isEmpty {package : Package} (h : package.name.isEmpty = true)
    (header : Bool) (path : List String) :
    package.blocks header path = package.inside header path := by
  obtain ⟨name, isNamespace, ⟨items, madeUp⟩⟩ := package
  rw [Package.blocks, Package.inside, if_pos h, if_pos h]

/-- A package with a name is written as its braces around what is in it. -/
theorem Package.blocks_of_named {package : Package} (h : package.name.isEmpty = false)
    (header : Bool) (path : List String) :
    package.blocks header path = [.package package.name
      (package.inside header (innerPath path package.name package.isNamespace))] := by
  obtain ⟨name, isNamespace, ⟨items, madeUp⟩⟩ := package
  have hnot : ¬ name.isEmpty = true := by rw [h]; exact Bool.false_ne_true
  rw [Package.blocks, Package.inside, if_neg hnot, if_neg hnot]

/-- The blocks of a package are empty lines, the object that gathers its fields and methods, and
the blocks of its other definitions. -/
theorem mem_packageBlocks {header : Bool} {path : List String} {name : Identifier}
    {all items : List Definition} {previous : Option Bool} {gathered : Bool} {block : Block} :
    block ∈ packageBlocks header path name all previous gathered items →
      block = .blank ∨ block = gatheringBlock path name all
        ∨ ∃ definition ∈ items, definition.isGlobal = false
            ∧ block ∈ definition.blocks header path := by
  induction items generalizing previous gathered with
  | nil =>
    intro hin
    rw [packageBlocks] at hin
    cases hin
  | cons definition rest ih =>
    -- Whatever was written for the first definition, the rest is covered by the induction.
    have hrest : ∀ {previous gathered},
        block ∈ packageBlocks header path name all previous gathered rest →
        block = .blank ∨ block = gatheringBlock path name all
          ∨ ∃ other ∈ definition :: rest, other.isGlobal = false
              ∧ block ∈ other.blocks header path := by
      intro previous gathered hin
      rcases ih hin with hblank | hgathering | ⟨other, hother, hblock⟩
      · exact .inl hblank
      · exact .inr (.inl hgathering)
      · exact .inr (.inr ⟨other, List.mem_cons_of_mem _ hother, hblock⟩)
    intro hin
    rw [packageBlocks] at hin
    split at hin
    · exact hrest hin
    -- An empty line, what the definition itself makes, and the rest.
    · rw [List.mem_append, List.mem_append] at hin
      rcases hin with (hin | hin) | hin
      · split at hin
        · exact .inl (List.mem_singleton.mp hin)
        · cases hin
      · split at hin
        · exact .inr (.inl (List.mem_singleton.mp hin))
        · rename_i hglobal
          exact .inr (.inr ⟨definition, List.mem_cons_self, Bool.eq_false_iff.mpr hglobal, hin⟩)
      · exact hrest hin

/-- All definitions but fields and methods are written where they are. -/
theorem subset_packageBlocks {header : Bool} {path : List String} {name : Identifier}
    {all items : List Definition} {previous : Option Bool} {gathered : Bool}
    {definition : Definition} (hin : definition ∈ items) (hglobal : definition.isGlobal = false) :
    definition.blocks header path
      ⊆ packageBlocks header path name all previous gathered items := by
  induction items generalizing previous gathered with
  | nil => cases hin
  | cons first rest ih =>
    rw [packageBlocks]
    rcases List.mem_cons.mp hin with rfl | hrest
    · simp only [hglobal, Bool.false_and, Bool.false_eq_true, if_false]
      exact List.subset_append_of_subset_left _ (List.subset_append_right _ _)
    · split
      · exact ih hrest
      · exact List.subset_append_of_subset_right _ (ih hrest)

namespace Package

variable {header : Bool} {path : List String} {package : Package}

/-- What is written for a definition other than a field or a method stands in its package. -/
theorem mem_inside {definition : Definition} (hin : definition ∈ package.body.items)
    (hglobal : definition.isGlobal = false) (header : Bool) (path : List String) :
    definition.blocks header path ⊆ package.inside header path := by
  have hcontents : definition.blocks header path ⊆ packageBlocks header path package.name
      package.body.items none false package.body.items := subset_packageBlocks hin hglobal
  unfold inside
  split
  · exact List.subset_append_of_subset_right _ hcontents
  · exact List.subset_append_of_subset_left _ (List.subset_cons_of_subset _ hcontents)

/-- A package in the source is a package of the facade. -/
theorem package_of_mem_inside {name : Identifier} {inner : List Block}
    (hnamed : package.IsNamed) (hin : .package name inner ∈ package.inside header path) :
    ∃ next, .package next ∈ package.body.items ∧ next.name.isEmpty = false
      ∧ inner = next.inside header (innerPath path next.name next.isNamespace) := by
  -- What stands around the contents is no package.
  have hcontents : .package name inner ∈ packageBlocks header path package.name
      package.body.items none false package.body.items := by
    unfold inside at hin
    split at hin
    · rcases List.mem_append.mp hin with hheader | hcontents
      · unfold headerBlocks at hheader
        split at hheader
        · split at hheader <;> simp at hheader
        · cases hheader
      · exact hcontents
    · rcases List.mem_append.mp hin with hfront | hback
      · exact (List.mem_cons.mp hfront).resolve_left Block.noConfusion
      · split at hback <;> simp at hback
  rcases mem_packageBlocks hcontents with hblank | hgathering | ⟨definition, hd, -, hblock⟩
  · cases hblank
  · cases hgathering
  -- Of the definitions, only a package is written as one.
  · cases definition with
    | package next =>
      have hnext : next.name.isEmpty = false :=
        hnamed [next] next (.into hd (.here next)) next (List.mem_singleton.mpr rfl)
      rw [Definition.blocks, blocks_of_named hnext, List.mem_singleton] at hblock
      cases hblock
      exact ⟨next, hd, hnext, rfl⟩
    | comment text => simp [Definition.blocks] at hblock
    | «class» definition => simp [Definition.blocks_class] at hblock
    | object definition => simp [Definition.blocks_object] at hblock
    | field definition => simp [Definition.blocks] at hblock
    | method definition => simp [Definition.blocks] at hblock

/-- The packages of a package whose packages have names are of that sort. -/
theorem IsNamed.next (h : package.IsNamed) {next : Package}
    (hin : .package next ∈ package.body.items) : next.IsNamed :=
  fun trail inner hleads found hfound =>
    h (next :: trail) inner (.into hin hleads) found (List.mem_cons_of_mem _ hfound)

/-- So are those at the end of a trail. -/
theorem Leads.isNamed {trail : List Package} {inner : Package} (h : package.Leads trail inner)
    (hnamed : package.IsNamed) : inner.IsNamed := by
  induction h with
  | here package => exact hnamed
  | into hin _ ih => exact ih (hnamed.next hin)

/-- What stands in some package of the source is the inside of a package of the facade. -/
theorem leads_of_packageBody {body : List Block} (hnamed : package.IsNamed)
    (h : PackageBody (package.inside header path) body) :
    ∃ trail inner, package.Leads trail inner
      ∧ body = inner.inside header (path ++ namespacesOf trail) := by
  generalize hblocks : package.inside header path = blocks at h
  induction h generalizing package path with
  | self blocks =>
    refine ⟨[], package, .here package, ?_⟩
    rw [← hblocks, show namespacesOf [] = [] from rfl, List.append_nil]
  | inside hin _ ih =>
    subst hblocks
    obtain ⟨next, hnext, -, rfl⟩ := package_of_mem_inside hnamed hin
    obtain ⟨trail, inner, hleads, hbody⟩ := ih (hnamed.next hnext) rfl
    refine ⟨next :: trail, inner, .into hnext hleads, ?_⟩
    rw [hbody, namespacesOf_cons, ← List.append_assoc, innerPath_append]

/-- The inside of every package of the facade stands in the source. -/
theorem packageBody_of_leads {trail : List Package} {inner : Package} (hnamed : package.IsNamed)
    (h : package.Leads trail inner) :
    PackageBody (package.inside header path)
      (inner.inside header (path ++ namespacesOf trail)) := by
  induction h generalizing path with
  | here package =>
    rw [show namespacesOf [] = [] from rfl, List.append_nil]
    exact .self _
  | @into outer next inner trail hin _ ih =>
    have hnext : next.name.isEmpty = false :=
      hnamed [next] next (.into hin (.here next)) next (List.mem_singleton.mpr rfl)
    have hblock := mem_inside hin rfl header path
    rw [Definition.blocks, blocks_of_named hnext] at hblock
    refine .inside (hblock (List.mem_singleton.mpr rfl)) ?_
    rw [namespacesOf_cons, ← List.append_assoc, innerPath_append]
    exact ih (hnamed.next hin)

/-- In the source of a facade, what stands at the top or in some package is the inside of a package
that a trail leads to. -/
theorem packageBody_iff (hroot : package.name.isEmpty = true) (hnamed : package.IsNamed)
    {body : List Block} :
    PackageBody (package.blocks header []) body ↔ ∃ trail inner, package.Leads trail inner
      ∧ body = inner.inside header (namespacesOf trail) := by
  rw [blocks_of_isEmpty hroot]
  constructor
  · intro h
    simpa using leads_of_packageBody hnamed h
  · rintro ⟨trail, inner, hleads, rfl⟩
    have hbody : PackageBody (package.inside header [])
        (inner.inside header ([] ++ namespacesOf trail)) := packageBody_of_leads hnamed hleads
    rwa [List.nil_append] at hbody

end Package

end Facade
