import Facade.Proofs.Definition.Sites

/-!
# Where the fields and methods of a package stand

A package writes its fields and methods where the first of them stands, in one pass that gathers
them there and passes over the others later. `gatherGlobals` puts them in that place beforehand, and
`Package.gather` does so with what is in a package: `Package.blocks_gather` says that the tree does
not change. `gathering_only_moves` says it for a package anywhere in a facade, and that its fields
and methods stand in one object, in their order, and nowhere else.
-/

set_option autoImplicit false

namespace Facade

/-! ### Gathering beforehand -/

/-- Definitions with the fields and methods among them directly behind the first of these. -/
def gatherGlobals : List Definition → List Definition
  | [] => []
  | definition :: rest =>
    if definition.isGlobal then
      definition :: (rest.filter Definition.isGlobal
        ++ rest.filter fun other => !other.isGlobal)
    else definition :: gatherGlobals rest

/-- A package with its fields and methods directly behind the first of these. -/
def Package.gather (package : Package) : Package :=
  package.withItems (gatherGlobals package.body.items)

/-- The fields and methods keep their order. -/
theorem filter_isGlobal_gatherGlobals (items : List Definition) :
    (gatherGlobals items).filter Definition.isGlobal = items.filter Definition.isGlobal := by
  induction items with
  | nil => rfl
  | cons definition rest ih =>
    rw [gatherGlobals]
    cases hglobal : definition.isGlobal with
    | true => simp [hglobal, List.filter_filter]
    | false => simp [hglobal, ih]

/-- Only fields and methods have lines of their own in the object that gathers them. -/
theorem flatMap_leafBlocks_filter (items : List Definition) :
    (items.filter Definition.isGlobal).flatMap Definition.leafBlocks
      = items.flatMap Definition.leafBlocks := by
  induction items with
  | nil => rfl
  | cons definition rest ih =>
    cases hglobal : definition.isGlobal with
    | true => simp [hglobal, ih]
    | false => simp [hglobal, ih, leafBlocks_of_not_isGlobal hglobal]

/-- To gather beforehand does not change the order of those lines. -/
theorem flatMap_leafBlocks_gatherGlobals (items : List Definition) :
    (gatherGlobals items).flatMap Definition.leafBlocks = items.flatMap Definition.leafBlocks := by
  rw [← flatMap_leafBlocks_filter, filter_isGlobal_gatherGlobals, flatMap_leafBlocks_filter]

section

variable (header : Bool) (path : List String) (name : Identifier)

/-- Once the fields and methods are written, they may as well be gone. -/
theorem packageBlocks_filter (all : List Definition) (previous : Option Bool)
    (items : List Definition) :
    packageBlocks header path name all previous true
        (items.filter fun definition => !definition.isGlobal)
      = packageBlocks header path name all previous true items := by
  induction items generalizing previous with
  | nil => rfl
  | cons definition rest ih =>
    rw [packageBlocks]
    cases hglobal : definition.isGlobal with
    | true => simp [hglobal, ih]
    | false => simp [hglobal, ih, packageBlocks]

/-- It makes no difference whether the fields and methods are gathered beforehand. -/
theorem packageBlocks_gatherGlobals (all : List Definition) (previous : Option Bool)
    (items : List Definition) :
    packageBlocks header path name all previous false (gatherGlobals items)
      = packageBlocks header path name all previous false items := by
  induction items generalizing previous with
  | nil => rfl
  | cons definition rest ih =>
    rw [gatherGlobals]
    cases hglobal : definition.isGlobal with
    | true =>
      -- Behind the first of them, the others are passed over wherever they are.
      have hrest (previous : Option Bool) : packageBlocks header path name all previous true
          (rest.filter Definition.isGlobal ++ rest.filter fun other => !other.isGlobal)
            = packageBlocks header path name all previous true rest := by
        rw [← packageBlocks_filter, List.filter_append, List.filter_filter, List.filter_filter,
          ← packageBlocks_filter _ _ _ _ _ rest]
        simp
      simp only [if_true]
      rw [packageBlocks, packageBlocks]
      simp [hglobal, hrest]
    | false =>
      simp only [Bool.false_eq_true, if_false]
      rw [packageBlocks, packageBlocks]
      simp [hglobal, ih]

end

/-- To gather beforehand leaves nothing out. -/
theorem isEmpty_gatherGlobals (items : List Definition) :
    (gatherGlobals items).isEmpty = items.isEmpty := by
  cases items with
  | nil => rfl
  | cons definition rest =>
    rw [gatherGlobals]
    split <;> rfl

/-- A package has the same tree if its fields and methods are gathered beforehand. -/
theorem Package.blocks_gather (package : Package) (header : Bool) (path : List String) :
    package.gather.blocks header path = package.blocks header path := by
  have hbody (path : List String) (name : Identifier) (items : List Definition) :
      packageBlocks header path name (gatherGlobals items) none false (gatherGlobals items)
        = packageBlocks header path name items none false items := by
    rw [packageBlocks_congr fun _ _ => flatMap_leafBlocks_gatherGlobals items,
      packageBlocks_gatherGlobals]
  obtain ⟨name, isNamespace, ⟨items, madeUp⟩⟩ := package
  simp only [gather, withItems, blocks, hbody, isEmpty_gatherGlobals]

/-! ### Packages in a facade -/

/-- Where a package is: it is the facade itself, or is inside layers in the package that is. -/
inductive PackageSite where
  | top
  | inside (name : Identifier) (isNamespace : Bool) (before after : List Definition) (madeUp : Nat)
      (layers : List Layer)

/-- The layers around a package, the outermost first. -/
def PackageSite.layers : PackageSite → List Layer
  | .top => []
  | .inside name isNamespace before after madeUp layers =>
    ⟨.package name isNamespace, before, after, madeUp⟩ :: layers

/-- The facade with a package in it. -/
def PackageSite.facade : PackageSite → Package → Package
  | .top, package => package
  | .inside name isNamespace before after madeUp layers, package =>
    ⟨name, isNamespace, ⟨before ++ enclose layers (.package package) :: after, madeUp⟩⟩

/-- A facade is a package inside of its layers. -/
theorem PackageSite.package_facade (site : PackageSite) (package : Package) :
    Definition.package (site.facade package) = enclose site.layers (.package package) := by
  cases site <;> rfl

/-- The rows of a facade are those of a package inside of its layers. -/
theorem PackageSite.rows_facade (site : PackageSite) (package : Package) (header : Bool) :
    (site.facade package).rows header
      = (enclose site.layers (.package package)).rowsAt header 0 [] := by
  rw [Package.rows_eq_rowsAt, site.package_facade]

/-- The rows of a facade do not change if the fields and methods of a package in it are gathered
beforehand. -/
theorem PackageSite.rows_facade_gather (site : PackageSite) (package : Package) (header : Bool) :
    (site.facade package.gather).rows header = (site.facade package).rows header := by
  obtain ⟨front, back, hrows⟩ := exists_rows_enclose site.layers header 0 [] true
  rw [site.rows_facade, site.rows_facade, hrows _ rfl rfl, hrows _ rfl rfl, Definition.rowsAt,
    Definition.rowsAt, Definition.blocks, Definition.blocks, package.blocks_gather]

/-- The limit of a layout is about rows. -/
theorem Package.fits_congr {package other : Package} {layout : Layout}
    (h : package.rows layout.header = other.rows layout.header) :
    package.fits layout = other.fits layout := by
  rw [Bool.eq_iff_iff, package.fits_iff, other.fits_iff, h]

/-- A facade is written the same, and can be written the same, whether the fields and methods of a
package in it are gathered beforehand or not. If there are some, they stand in one object, each in
its place among them, and what is around that object depends on none of them. Only a constructor
without parameters has no line there. -/
theorem gathering_only_moves (site : PackageSite) (package : Package) (layout : Layout) :
    (site.facade package.gather).render layout = (site.facade package).render layout
      ∧ (site.facade package.gather).fits layout = (site.facade package).fits layout
      ∧ (package.body.items.any Definition.isGlobal = true → ∃ front back : List Row, ∀ items,
          List.Forall₂ Definition.SameUnlessGlobal package.body.items items →
          (site.facade (package.withItems items)).render layout
            = displayRows layout.indent
              (front ++ gatheringRows (levelsOf site.layers + package.shell.levels)
                (namespacesIn site.layers ++ package.shell.namespaces) package.name items ++ back))
      ∧ ∀ definition : Definition, definition.isGlobal = true → (definition.leafLine? = none
          ↔ ∃ method : Method, definition = .method method ∧ method.name.isConstructor = true
            ∧ method.parameters = []) := by
  have hrows := site.rows_facade_gather package layout.header
  refine ⟨?_, Package.fits_congr hrows, fun hany => ?_,
    fun definition => Definition.leafLine?_eq_none_iff⟩
  · rw [Package.render_eq_displayRows, hrows, ← Package.render_eq_displayRows]
  · obtain ⟨front, back, hgathering⟩ := exists_rows_gathering site.layers layout.header hany
    refine ⟨front, back, fun items hsame => ?_⟩
    rw [Package.render_eq_displayRows, site.rows_facade, hgathering items hsame]

/-- The object stands where the first field is, and the constructor has no line in it. -/
theorem gathering_only_moves_scattered :
    let items : List Definition := [.comment "x", .field ⟨⟨"a"⟩, .string⟩, .comment "y",
      .method ⟨⟨"<init>"⟩, [], [], .string⟩, .field ⟨⟨"b"⟩, .string⟩]
    let package : Package := ⟨⟨"lib"⟩, true, ⟨items, 0⟩⟩
    let site : PackageSite := .inside ⟨""⟩ false [.comment "z"] [] 0 []
    (site.facade package.gather).render .standard = (site.facade package).render .standard
      ∧ (∃ front back : List Row, (site.facade package).render .standard = displayRows 2 (front
          ++ [.line 1 "@js.native", .line 1 "@JSGlobal(\"lib\")",
            .line 1 "object lib extends js.Object \x7b", .line 2 "var a: String = js.native",
            .line 2 "var b: String = js.native", .line 1 "\x7d"] ++ back))
      ∧ Definition.leafLine? (.method ⟨⟨"<init>"⟩, [], [], .string⟩) = none := by
  intro items package site
  obtain ⟨hrender, -, hobject, hnone⟩ := gathering_only_moves site package .standard
  obtain ⟨front, back, hrows⟩ := hobject rfl
  have hlines : items.filterMap Definition.leafLine?
      = ["var a: String = js.native", "var b: String = js.native"] := by decide +kernel
  have hlevels : levelsOf site.layers + package.shell.levels = 1 := by decide +kernel
  have hpath : namespacesIn site.layers ++ package.shell.namespaces = ["lib"] := by decide +kernel
  have hname : Identifier.display ⟨"lib"⟩ = "lib" := by decide +kernel
  refine ⟨hrender, ⟨front, back, ?_⟩, (hnone _ rfl).mpr ⟨_, rfl, by decide +kernel, rfl⟩⟩
  have hpackage := hrows items (sameUnlessGlobal_refl _)
  rw [hlevels, hpath, gatheringRows, hlines, hname] at hpackage
  exact hpackage

end Facade
