import Facade.Definition.Margin
import Facade.Proofs.Definition.Source

/-!
# The margins of a facade

A facade is a list of rows, each of them empty or a content behind a margin, and the text of a tree
is the text of its rows: `Package.render_eq_displayRows`. A tree that stands at a base has lines at
every depth from there on down to its innermost lines and at no other, and `Package.levels` counts
these depths. So a facade fits its layout exactly if none of its rows has too wide a margin, which
is `Package.fits_iff`.
-/

set_option autoImplicit false

namespace Facade

/-! ### Rows -/

/-- A row of a source: an empty one, or a content at a depth. -/
inductive Row where
  | empty
  | line (depth : Nat) (content : String)

/-- The depth of a row that has a margin. -/
def Row.depth? : Row → Option Nat
  | .empty => none
  | .line depth _ => some depth

/-- A row as it is written. -/
def Row.display (indent : Nat) : Row → String
  | .empty => "\n"
  | .line depth content => displayLine indent depth content

/-- Rows one below the other. -/
def displayRows (indent : Nat) : List Row → String
  | [] => ""
  | row :: rest => row.display indent ++ displayRows indent rest

/-- The depths at which rows stand. -/
def rowDepths (rows : List Row) : List Nat :=
  rows.filterMap Row.depth?

mutual

/-- The rows of a block at a depth. -/
def Block.rows (depth : Nat) : Block → List Row
  | .blank => [.empty]
  | .line pieces => [.line depth (displayPieces pieces)]
  | .comment text => [.line depth (Comment.display text)]
  | .template head body =>
    head.annotations.map (Row.line depth) ++ .line depth (displayPieces head.pieces)
      :: blockRows (depth + 1) body ++ [.line depth "\x7d"]
  | .package name body =>
    .line depth ("package " ++ name.display ++ " \x7b") :: blockRows (depth + 1) body
      ++ [.line depth "\x7d"]

/-- The rows of blocks at a depth, one below the other. -/
def blockRows (depth : Nat) : List Block → List Row
  | [] => []
  | block :: rest => block.rows depth ++ blockRows depth rest

end

/-- The rows of a facade. -/
def Package.rows (header : Bool) (package : Package) : List Row :=
  blockRows 0 (package.blocks header [])

/-- The text of rows in two parts is the text of each. -/
@[simp] theorem displayRows_append (indent : Nat) (front back : List Row) :
    displayRows indent (front ++ back) = displayRows indent front ++ displayRows indent back := by
  induction front with
  | nil => simp [displayRows]
  | cons row rest ih => simp [displayRows, ih, String.append_assoc]

/-- Lines at a depth are written as such. -/
theorem displayRows_lines (indent depth : Nat) (contents : List String) :
    displayRows indent (contents.map (Row.line depth)) = displayLines indent depth contents := by
  induction contents with
  | nil => rfl
  | cons content rest ih => simp [displayRows, displayLines, Row.display, ih]

mutual

/-- The text of a block is that of its rows. -/
theorem Block.display_eq_displayRows (indent depth : Nat) (block : Block) :
    block.display indent depth = displayRows indent (block.rows depth) := by
  match block with
  | .blank => simp [Block.display, Block.rows, displayRows, Row.display]
  | .line pieces => simp [Block.display, Block.rows, displayRows, Row.display]
  | .comment text => simp [Block.display, Block.rows, displayRows, Row.display]
  | .template head body =>
    have ih := displayBlocks_eq_displayRows indent (depth + 1) body
    simp [Block.display, Block.rows, displayRows, Row.display, displayRows_lines, ih,
      String.append_assoc]
  | .package name body =>
    have ih := displayBlocks_eq_displayRows indent (depth + 1) body
    simp [Block.display, Block.rows, displayRows, Row.display, ih, String.append_assoc]

/-- The text of blocks is the text of their rows. -/
theorem displayBlocks_eq_displayRows (indent depth : Nat) (blocks : List Block) :
    displayBlocks indent depth blocks = displayRows indent (blockRows depth blocks) := by
  match blocks with
  | [] => simp [blockRows, displayRows]
  | block :: rest =>
    have ih := displayBlocks_eq_displayRows indent depth rest
    simp [blockRows, block.display_eq_displayRows indent depth, ih]

end

/-- A facade as Scala source is the text of its rows. -/
theorem Package.render_eq_displayRows (package : Package) (layout : Layout) :
    package.render layout = displayRows layout.indent (package.rows layout.header) := by
  rw [Package.render_eq, displayBlocks_eq_displayRows, Package.rows]

/-- No blocks have no rows. -/
@[simp] theorem blockRows_nil (depth : Nat) : blockRows depth [] = [] := by
  rw [blockRows]

/-- The rows of blocks are those of the first and then those of the others. -/
@[simp] theorem blockRows_cons (depth : Nat) (block : Block) (rest : List Block) :
    blockRows depth (block :: rest) = block.rows depth ++ blockRows depth rest := by
  rw [blockRows]

/-- The rows of blocks in two parts are those of each. -/
@[simp] theorem blockRows_append (depth : Nat) (front back : List Block) :
    blockRows depth (front ++ back) = blockRows depth front ++ blockRows depth back := by
  induction front with
  | nil => simp
  | cons block rest ih => simp [ih, List.append_assoc]

/-! ### The depths of rows -/

/-- Rows stand at as many depths as there are levels, from a base on, and at no other. -/
def Occupies (rows : List Row) (base levels : Nat) : Prop :=
  ∀ depth, depth ∈ rowDepths rows ↔ base ≤ depth ∧ depth < base + levels

namespace Occupies

variable {front back rows body : List Row} {base m n : Nat}

/-- No rows stand at no depth. -/
theorem nil (base : Nat) : Occupies [] base 0 := by
  intro depth
  simp only [rowDepths, List.filterMap_nil, List.not_mem_nil, false_iff]
  omega

/-- An empty row stands at none either. -/
theorem empty (base : Nat) : Occupies [.empty] base 0 := nil base

/-- A line stands at its depth alone. -/
theorem line (base : Nat) (content : String) : Occupies [.line base content] base 1 := by
  intro depth
  simp only [rowDepths, List.filterMap_cons, Row.depth?, List.filterMap_nil, List.mem_singleton]
  omega

/-- Of rows in two parts, those that go deeper count. -/
theorem append (hfront : Occupies front base m) (hback : Occupies back base n) :
    Occupies (front ++ back) base (max m n) := by
  intro depth
  have hf := hfront depth
  have hb := hback depth
  simp only [rowDepths, List.filterMap_append, List.mem_append] at hf hb ⊢
  rw [hf, hb]
  omega

/-- Lines at one depth stand there alone, if there are any. -/
theorem lines (base : Nat) (contents : List String) :
    ∃ n ≤ 1, Occupies (contents.map (Row.line base)) base n := by
  induction contents with
  | nil => exact ⟨0, Nat.zero_le _, nil base⟩
  | cons content rest ih =>
    obtain ⟨n, hn, hrest⟩ := ih
    exact ⟨max 1 n, by omega, (line base content).append hrest⟩

/-- Rows one level deeper, between rows that open and close them. -/
theorem framed {opening : List Row} (hopening : Occupies opening base 1)
    (hbody : Occupies body (base + 1) n) (closing : String) :
    Occupies (opening ++ body ++ [.line base closing]) base (n + 1) := by
  intro depth
  have ho := hopening depth
  have hb := hbody depth
  have hc := line base closing depth
  simp only [rowDepths, List.filterMap_append, List.mem_append] at ho hb hc ⊢
  rw [ho, hb, hc]
  omega

/-- A template stands at one more level than its body. -/
theorem template {blocks : List Block} (head : Head)
    (hbody : Occupies (blockRows (base + 1) blocks) (base + 1) n) :
    Occupies (blockRows base [.template head blocks]) base (n + 1) := by
  obtain ⟨m, hm, hannotations⟩ := lines base head.annotations
  have hopening := hannotations.append (line base (displayPieces head.pieces))
  rw [Nat.max_eq_right hm] at hopening
  simpa [Block.rows] using hopening.framed hbody "\x7d"

/-- So does a package. -/
theorem package {blocks : List Block} (name : Identifier)
    (hbody : Occupies (blockRows (base + 1) blocks) (base + 1) n) :
    Occupies (blockRows base [.package name blocks]) base (n + 1) := by
  simpa [Block.rows] using
    (line base ("package " ++ name.display ++ " \x7b")).framed hbody "\x7d"

/-- An empty row that may be there stands at no depth. -/
theorem blankIf (base : Nat) (condition : Bool) :
    Occupies (blockRows base (if condition then [.blank] else [])) base 0 := by
  cases condition with
  | true => simpa [Block.rows] using empty base
  | false => simpa using nil base

end Occupies

/-! ### The depths of definitions -/

/-- A definition without a body of its own has rows at its leaf levels. -/
theorem Definition.occupies_leafBlocks (definition : Definition) (base : Nat) :
    Occupies (blockRows base definition.leafBlocks) base definition.leafLevels := by
  cases definition with
  | field definition =>
    simpa [leafBlocks, leafLevels, Block.rows] using Occupies.line base _
  | method definition =>
    cases hconstructor : definition.name.isConstructor with
    | false =>
      simpa [leafBlocks, leafLevels, Method.pieces?, hconstructor, Block.rows]
        using Occupies.line base _
    | true =>
      by_cases hparameters : definition.parameters = []
      · simpa [leafBlocks, leafLevels, Method.pieces?, hconstructor, hparameters]
          using Occupies.nil base
      · simpa [leafBlocks, leafLevels, Method.pieces?, hconstructor, hparameters, Block.rows]
          using Occupies.line base _
  | _ => simpa [leafBlocks, leafLevels] using Occupies.nil base

/-- The levels of fields and methods that stand in one object. -/
def leavesLevels : List Definition → Nat
  | [] => 0
  | definition :: rest => max definition.leafLevels (leavesLevels rest)

/-- The levels of what a package does not gather in an object. -/
def ungatheredLevels (header : Bool) : List Definition → Nat
  | [] => 0
  | definition :: rest =>
    max (if definition.isGlobal then 0 else definition.levels header)
      (ungatheredLevels header rest)

/-- What is not gathered in an object has no leaf levels. -/
theorem leafLevels_of_not_isGlobal {definition : Definition} (h : definition.isGlobal = false) :
    definition.leafLevels = 0 := by
  cases definition <;> first | rfl | simp [Definition.isGlobal] at h

/-- What is in a package stands where it is, or in the object that gathers it. -/
theorem blockLevels_eq (header : Bool) (items : List Definition) :
    blockLevels header items = max (ungatheredLevels header items)
      (if items.any Definition.isGlobal then leavesLevels items + 1 else 0) := by
  induction items with
  | nil => rw [blockLevels]; rfl
  | cons definition rest ih =>
    rw [blockLevels, ih, ungatheredLevels, leavesLevels, List.any_cons]
    cases hglobal : definition.isGlobal with
    | true =>
      -- Without a field or a method in the rest there are no levels of such in it.
      have hrest : rest.any Definition.isGlobal = false → leavesLevels rest = 0 := by
        clear ih
        induction rest with
        | nil => exact fun _ => rfl
        | cons next rest ih =>
          intro h
          rw [List.any_cons, Bool.or_eq_false_iff] at h
          rw [leavesLevels, leafLevels_of_not_isGlobal h.1, ih h.2]
          rfl
      cases hany : rest.any Definition.isGlobal with
      | true => simp; omega
      | false => simp [hrest hany]; omega
    | false => simp [leafLevels_of_not_isGlobal hglobal, Nat.max_assoc]

/-- The object that gathers definitions stands at one more level than they do. -/
theorem occupies_gatheringBlock (path : List String) (name : Identifier) (items : List Definition)
    (base : Nat) :
    Occupies (blockRows base [gatheringBlock path name items]) base (leavesLevels items + 1) := by
  have hleaves : Occupies (blockRows (base + 1) (items.flatMap Definition.leafBlocks)) (base + 1)
      (leavesLevels items) := by
    induction items with
    | nil => simpa [leavesLevels] using Occupies.nil (base + 1)
    | cons definition rest ih =>
      rw [List.flatMap_cons, blockRows_append, leavesLevels]
      exact (definition.occupies_leafBlocks (base + 1)).append ih
  exact Occupies.template _ hleaves

/-- The header of a file stands at one level, if it is there. -/
theorem occupies_headerBlocks (header more : Bool) (base : Nat) :
    Occupies (blockRows base (headerBlocks header more)) base header.toNat := by
  cases header with
  | false => simpa [headerBlocks] using Occupies.nil base
  | true =>
    have himports := (Occupies.line base "import scala.scalajs.js").append
      ((Occupies.line base "import js.annotation._").append
        (Occupies.blankIf base more))
    simpa [headerBlocks, Block.rows, Piece.display] using himports

mutual

/-- The tree of a definition stands on its levels. -/
theorem Definition.occupies (header : Bool) (path : List String) (base : Nat)
    (definition : Definition) :
    Occupies (blockRows base (definition.blocks header path)) base (definition.levels header) := by
  match definition with
  | .comment text =>
    rw [Definition.blocks, Definition.levels]
    simpa [Block.rows] using Occupies.line base _
  | .package definition =>
    rw [Definition.blocks, Definition.levels]
    exact Package.occupies header path base definition
  | .class ⟨name, typeParameters, parents, isTrait, companion, ⟨items, madeUp⟩⟩ =>
    rw [Definition.blocks, Definition.levels]
    exact Occupies.template _ (occupies_itemBlocks header path (base + 1) items)
  | .object ⟨name, companion, ⟨items, madeUp⟩⟩ =>
    rw [Definition.blocks, Definition.levels]
    exact Occupies.template _ (occupies_itemBlocks header path (base + 1) items)
  | .field definition =>
    rw [Definition.blocks, Definition.levels]
    exact (Definition.field definition).occupies_leafBlocks base
  | .method definition =>
    rw [Definition.blocks, Definition.levels]
    exact (Definition.method definition).occupies_leafBlocks base

/-- The rows of a package stand at the levels of the package. -/
theorem Package.occupies (header : Bool) (path : List String) (base : Nat) (package : Package) :
    Occupies (blockRows base (package.blocks header path)) base (package.levels header) := by
  match package with
  | ⟨name, isNamespace, ⟨items, madeUp⟩⟩ =>
    have hbody (path : List String) (base : Nat) :
        Occupies (blockRows base (packageBlocks header path name items none false items)) base
          (blockLevels header items) := by
      have := occupies_packageBlocks header path name items none false base items
      rwa [Bool.not_false, Bool.true_and, ← blockLevels_eq] at this
    rw [Package.blocks, Package.levels]
    split
    · rw [blockRows_append]
      exact (occupies_headerBlocks header _ base).append (hbody path base)
    · refine Occupies.package name ?_
      have hblank : Occupies (blockRows (base + 1) [.blank]) (base + 1) 0 :=
        Occupies.blankIf (base + 1) true
      have hframed := hblank.append
        ((hbody (innerPath path name isNamespace) (base + 1)).append
          (Occupies.blankIf (base + 1) !items.isEmpty))
      rw [Nat.max_zero, Nat.zero_max] at hframed
      simpa using hframed

/-- The rest of a package stands on the levels of what is not gathered, and on those of the object
that gathers all others, if that is still to come. -/
theorem occupies_packageBlocks (header : Bool) (path : List String) (name : Identifier)
    (all : List Definition) (previous : Option Bool) (gathered : Bool) (base : Nat)
    (items : List Definition) :
    Occupies (blockRows base (packageBlocks header path name all previous gathered items)) base
      (max (ungatheredLevels header items)
        (if !gathered && items.any Definition.isGlobal then leavesLevels all + 1 else 0)) := by
  match items with
  | [] =>
    rw [packageBlocks]
    simpa [ungatheredLevels] using Occupies.nil base
  | definition :: rest =>
    have ih (previous : Option Bool) (gathered : Bool) :=
      occupies_packageBlocks header path name all previous gathered base rest
    have hblank := Occupies.blankIf base (blankBefore previous definition.isBlock)
    rw [packageBlocks, ungatheredLevels, List.any_cons]
    cases hglobal : definition.isGlobal with
    | true =>
      cases gathered with
      | true => simpa using ih previous true
      | false =>
        -- The object of all fields and methods stands here, so the rest has none to come.
        have hrest := ih (some definition.isBlock) true
        have hall := (hblank.append (occupies_gatheringBlock path name all base)).append hrest
        simpa [Nat.max_comm] using hall
    | false =>
      have hrest := ih (some definition.isBlock) gathered
      have hall := (hblank.append (definition.occupies header path base)).append hrest
      simpa [Nat.max_assoc] using hall

/-- The rows of a class or an object stand on the levels of what is in it. -/
theorem occupies_itemBlocks (header : Bool) (path : List String) (base : Nat)
    (items : List Definition) :
    Occupies (blockRows base (itemBlocks header path items)) base (itemLevels header items) := by
  match items with
  | [] =>
    rw [itemBlocks, itemLevels]
    simpa using Occupies.nil base
  | definition :: rest =>
    rw [itemBlocks, itemLevels, blockRows_append]
    exact (definition.occupies header path base).append
      (occupies_itemBlocks header path base rest)

end

/-- A facade fits its layout exactly if the margin of every row can be written. -/
theorem Package.fits_iff (package : Package) (layout : Layout) :
    package.fits layout = true
      ↔ ∀ depth ∈ rowDepths (package.rows layout.header),
          depth * layout.indent ≤ Layout.widestMargin := by
  have hrows := package.occupies layout.header [] 0
  rw [Package.fits, decide_eq_true_iff]
  constructor
  · intro hdeepest depth hdepth
    have hlt := ((hrows depth).mp hdepth).2
    exact Nat.le_trans (Nat.mul_le_mul_right _ (by omega)) hdeepest
  · intro hall
    cases hlevels : package.levels layout.header with
    -- Without levels there are no rows with a margin, and the limit is kept by none at all.
    | zero => simp
    | succ n => exact hall n ((hrows n).mpr ⟨Nat.zero_le _, by omega⟩)

end Facade
