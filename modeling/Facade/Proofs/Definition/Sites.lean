import Facade.Proofs.Definition.Margin
import Mathlib.Data.List.Forall2

/-!
# Where definitions are written

The tree of a facade is made with the namespaces around a definition as an argument, and its rows
with their depth as one. `Definition.rowsAt` does both, and remembers nothing; the page that a
facade is written on keeps depth and namespaces to itself. `write_stateless` says that the two write
the same, and that the page is left as it was found.

A definition is somewhere in a facade if there are layers around it, the packages, classes and
objects that it is in with everything else in these. `exists_rows_enclose` says what the layers make
of it: its own rows, as deep as there are layers with lines of their own, in the namespaces of the
layers that are packages with a name and are marked as namespaces, and around them rows that do not
depend on it. `exists_rows_gathering` says the same of the object that gathers the fields and
methods of a package: around it are rows that depend on none of these.
-/

set_option autoImplicit false

namespace Facade

open Facade.Text (joined)

/-- The rows of a definition at a depth, inside namespaces. -/
def Definition.rowsAt (header : Bool) (depth : Nat) (path : List String) (definition : Definition) :
    List Row :=
  blockRows depth (definition.blocks header path)

/-- Rows that stand between the lines that open a class or an object and the line that closes it. -/
def templateRows (depth : Nat) (opening : List String) (body : List Row) : List Row :=
  opening.map (Row.line depth) ++ body ++ [.line depth "\x7d"]

/-- The rows of a class or an object are those of its body between its lines. -/
theorem blockRows_template (depth : Nat) (head : Head) (body : List Block) :
    blockRows depth [.template head body]
      = templateRows depth (head.annotations ++ [displayPieces head.pieces])
          (blockRows (depth + 1) body) := by
  simp [Block.rows, templateRows]

/-! ### The contents of packages -/

/-- Only fields and methods have lines in the object that gathers them. -/
theorem leafBlocks_of_not_isGlobal {definition : Definition} (h : definition.isGlobal = false) :
    definition.leafBlocks = [] := by
  cases definition <;> first | rfl | cases h

section

variable {header : Bool} {path : List String} {name : Identifier}

/-- What is known in the middle of a package: whether the definition before was a block, and whether
the fields and methods are written. -/
structure Progress where
  previous : Option Bool
  gathered : Bool

/-- What is known behind a definition. -/
def Progress.next (progress : Progress) (definition : Definition) : Progress :=
  if definition.isGlobal && progress.gathered then progress
  else ⟨some definition.isBlock, progress.gathered || definition.isGlobal⟩

/-- What is known behind definitions. -/
def Progress.behind (progress : Progress) (definitions : List Definition) : Progress :=
  definitions.foldl Progress.next progress

/-- The contents of a package in two parts: the second goes on with what is known behind the
first. -/
theorem packageBlocks_append (all : List Definition) (progress : Progress)
    (front back : List Definition) :
    packageBlocks header path name all progress.previous progress.gathered (front ++ back)
      = packageBlocks header path name all progress.previous progress.gathered front
        ++ packageBlocks header path name all (progress.behind front).previous
          (progress.behind front).gathered back := by
  induction front generalizing progress with
  | nil => rw [packageBlocks]; rfl
  | cons definition rest ih =>
    rw [List.cons_append, packageBlocks, packageBlocks, Progress.behind, List.foldl_cons,
      ← Progress.behind]
    by_cases hskip : (definition.isGlobal && progress.gathered) = true
    · rw [if_pos hskip, if_pos hskip, Progress.next, if_pos hskip, ih]
    · rw [if_neg hskip, if_neg hskip, Progress.next, if_neg hskip, List.append_assoc,
        List.append_assoc, List.append_assoc,
        ← ih ⟨some definition.isBlock, progress.gathered || definition.isGlobal⟩]

/-- Only the object that gathers fields and methods depends on all of the definitions, and it is not
written if it was, or if nothing is to be gathered. -/
theorem packageBlocks_congr {all all' items : List Definition} {previous : Option Bool}
    {gathered : Bool} (h : gathered = false → items.any Definition.isGlobal = true →
      all.flatMap Definition.leafBlocks = all'.flatMap Definition.leafBlocks) :
    packageBlocks header path name all previous gathered items
      = packageBlocks header path name all' previous gathered items := by
  induction items generalizing previous gathered with
  | nil => rw [packageBlocks, packageBlocks]
  | cons definition rest ih =>
    rw [packageBlocks, packageBlocks]
    cases hglobal : definition.isGlobal with
    | true =>
      cases gathered with
      | true => exact ih fun hfalse => absurd hfalse (Bool.noConfusion ·)
      | false =>
        have hall := h rfl (by rw [List.any_cons, hglobal, Bool.true_or])
        simp only [Bool.and_false, Bool.false_eq_true, if_false, if_true, Bool.or_true]
        rw [gatheringBlock, gatheringBlock, hall,
          ih fun hfalse => absurd hfalse (Bool.noConfusion ·)]
    | false =>
      have hrest (previous : Option Bool) :
          packageBlocks header path name all previous gathered rest
          = packageBlocks header path name all' previous gathered rest :=
        ih fun hgathered hany => h hgathered (by rw [List.any_cons, hglobal, Bool.false_or, hany])
      simp only [Bool.false_and, Bool.false_eq_true, if_false, Bool.or_false, hrest]

end

/-- The contents of a class or an object in two parts are those of each. -/
theorem itemBlocks_append (header : Bool) (path : List String) (front back : List Definition) :
    itemBlocks header path (front ++ back)
      = itemBlocks header path front ++ itemBlocks header path back := by
  induction front with
  | nil => rw [itemBlocks]; rfl
  | cons definition rest ih =>
    rw [List.cons_append, itemBlocks, itemBlocks, ih, List.append_assoc]

/-! ### Layers -/

/-- What holds definitions, without what it holds. -/
inductive Shell where
  | package (name : Identifier) (isNamespace : Bool)
  | class (name : Identifier) (typeParameters : List Identifier) (parents : List ScalaType)
      (isTrait : Bool) (companion : Option Nat)
  | object (name : Identifier) (companion : Option Nat)

namespace Shell

/-- The definition with a body. -/
def close : Shell → Body → Definition
  | .package name isNamespace, body => .package ⟨name, isNamespace, body⟩
  | .class name typeParameters parents isTrait companion, body =>
    .class ⟨name, typeParameters, parents, isTrait, companion, body⟩
  | .object name companion, body => .object ⟨name, companion, body⟩

/-- How much deeper the body stands. A package without a name has no lines of its own. -/
def levels : Shell → Nat
  | .package name _ => if name.isEmpty then 0 else 1
  | _ => 1

/-- The namespace that the body is in: that of a package with a name that is marked as one. -/
def namespaces : Shell → List String
  | .package name isNamespace => if isNamespace && !name.isEmpty then [name.raw] else []
  | _ => []

/-- The tree of the body, inside namespaces. -/
def contents (header : Bool) (path : List String) : Shell → List Definition → List Block
  | .package name _, items => packageBlocks header path name items none false items
  | _, items => itemBlocks header path items

/-- What holds definitions is not gathered itself. -/
theorem isGlobal_close (shell : Shell) (body : Body) : (shell.close body).isGlobal = false := by
  cases shell <;> rfl

/-- It is a block. -/
theorem isBlock_close (shell : Shell) (body : Body) : (shell.close body).isBlock = true := by
  cases shell <;> rfl

/-- Around its body, a definition has rows that do not depend on it. -/
theorem exists_rows_close (shell : Shell) (header : Bool) (depth : Nat) (path : List String) :
    ∃ front back : List Row, ∀ items madeUp, items ≠ [] →
      (shell.close ⟨items, madeUp⟩).rowsAt header depth path
        = front ++ blockRows (depth + shell.levels)
            (shell.contents header (path ++ shell.namespaces) items) ++ back := by
  have htemplate : ∀ head : Head, ∃ front back : List Row, ∀ body : List Block,
      blockRows depth [.template head body] = front ++ blockRows (depth + 1) body ++ back :=
    fun head => ⟨_, _, fun body => blockRows_template depth head body⟩
  cases shell with
  | package name isNamespace =>
    -- A package without a name adds no line, only the header that may stand above its body.
    by_cases hname : name.isEmpty = true
    · refine ⟨blockRows depth (headerBlocks header true), [], fun items madeUp hitems => ?_⟩
      have hmore : (!items.isEmpty) = true := by simpa using hitems
      simp [Definition.rowsAt, close, Definition.blocks, Package.blocks, contents, levels,
        namespaces, hname, hmore]
    · refine ⟨[.line depth ("package " ++ name.display ++ " \x7b"), .empty],
        [.empty, .line depth "\x7d"], fun items madeUp hitems => ?_⟩
      have hpath : innerPath path name isNamespace
          = path ++ (Shell.package name isNamespace).namespaces := by
        cases isNamespace <;> simp [innerPath, namespaces, hname]
      simp [Definition.rowsAt, close, Definition.blocks, Package.blocks, contents, levels, hname,
        hitems, hpath, Block.rows]
  | «class» name typeParameters parents isTrait companion =>
    obtain ⟨front, back, hrows⟩ :=
      htemplate (ClassDefinition.head path name typeParameters parents isTrait)
    refine ⟨front, back, fun items madeUp _ => ?_⟩
    rw [Definition.rowsAt, close, Definition.blocks, hrows]
    simp [contents, levels, namespaces]
  | object name companion =>
    obtain ⟨front, back, hrows⟩ := htemplate (ObjectDefinition.head path name)
    refine ⟨front, back, fun items madeUp _ => ?_⟩
    rw [Definition.rowsAt, close, Definition.blocks, hrows]
    simp [contents, levels, namespaces]

end Shell

/-- What is around a definition in the package, the class or the object that it is in. -/
structure Layer where
  shell : Shell
  before : List Definition
  after : List Definition
  madeUp : Nat

/-- The package, the class or the object with a definition in it. -/
def Layer.around (layer : Layer) (definition : Definition) : Definition :=
  layer.shell.close ⟨layer.before ++ definition :: layer.after, layer.madeUp⟩

/-- A definition inside layers, the outermost first. -/
def enclose : List Layer → Definition → Definition
  | [], definition => definition
  | layer :: rest, definition => layer.around (enclose rest definition)

/-- How much deeper than the outermost layer a definition stands. -/
def levelsOf : List Layer → Nat
  | [] => 0
  | layer :: rest => layer.shell.levels + levelsOf rest

/-- The namespaces of layers, the outermost first. -/
def namespacesIn (layers : List Layer) : List String :=
  layers.flatMap fun layer => layer.shell.namespaces

/-- What is in a package, a class or an object is written in it, unless it is gathered. What stands
around it depends on nothing but whether it is a block. -/
theorem Layer.exists_blocks (layer : Layer) (header : Bool) (path : List String) (isBlock : Bool) :
    ∃ front back : List Block, ∀ definition : Definition, definition.isGlobal = false →
      definition.isBlock = isBlock →
      layer.shell.contents header path (layer.before ++ definition :: layer.after)
        = front ++ definition.blocks header path ++ back := by
  have hitems : ∃ front back : List Block, ∀ definition : Definition,
      itemBlocks header path (layer.before ++ definition :: layer.after)
        = front ++ definition.blocks header path ++ back :=
    ⟨itemBlocks header path layer.before, itemBlocks header path layer.after, fun definition => by
      rw [itemBlocks_append, itemBlocks, List.append_assoc]⟩
  cases hshell : layer.shell with
  | package name isNamespace =>
    let start : Progress := ⟨none, false⟩
    let all := layer.before ++ layer.after
    let progress := start.behind layer.before
    refine ⟨packageBlocks header path name all none false layer.before
        ++ (if blankBefore progress.previous isBlock then [.blank] else []),
      packageBlocks header path name all (some isBlock) progress.gathered layer.after,
      fun definition hglobal hblock => ?_⟩
    have hleaves : (layer.before ++ definition :: layer.after).flatMap Definition.leafBlocks
        = all.flatMap Definition.leafBlocks := by
      simp [all, leafBlocks_of_not_isGlobal hglobal]
    rw [Shell.contents, packageBlocks_congr (fun _ _ => hleaves),
      packageBlocks_append all start layer.before, packageBlocks]
    simp [hglobal, hblock, progress, start]
  | «class» | object =>
    obtain ⟨front, back, hblocks⟩ := hitems
    exact ⟨front, back, fun definition _ _ => hblocks definition⟩

/-- The rows around a definition are the same whatever the definition, as long as neither is
gathered and both are blocks or neither is. -/
theorem Layer.exists_rows (layer : Layer) (header : Bool) (depth : Nat) (path : List String)
    (isBlock : Bool) :
    ∃ front back : List Row, ∀ definition : Definition, definition.isGlobal = false →
      definition.isBlock = isBlock →
      (layer.around definition).rowsAt header depth path
        = front ++ definition.rowsAt header (depth + layer.shell.levels)
            (path ++ layer.shell.namespaces) ++ back := by
  obtain ⟨opening, closing, hclose⟩ := layer.shell.exists_rows_close header depth path
  obtain ⟨front, back, hblocks⟩ :=
    layer.exists_blocks header (path ++ layer.shell.namespaces) isBlock
  refine ⟨opening ++ blockRows (depth + layer.shell.levels) front,
    blockRows (depth + layer.shell.levels) back ++ closing, fun definition hglobal hblock => ?_⟩
  rw [Layer.around, hclose _ _ (by simp), hblocks definition hglobal hblock, blockRows_append,
    blockRows_append, Definition.rowsAt]
  simp only [List.append_assoc]

/-- Inside layers, a definition is written as it is for itself, only deeper, and inside the
namespaces of the layers. What stands around it depends on nothing but whether it is a block. -/
theorem exists_rows_enclose (layers : List Layer) (header : Bool) (depth : Nat) (path : List String)
    (isBlock : Bool) :
    ∃ front back : List Row, ∀ definition : Definition, definition.isGlobal = false →
      definition.isBlock = isBlock →
      (enclose layers definition).rowsAt header depth path
        = front ++ definition.rowsAt header (depth + levelsOf layers) (path ++ namespacesIn layers)
          ++ back := by
  induction layers generalizing depth path with
  | nil => exact ⟨[], [], fun definition _ _ => by simp [enclose, levelsOf, namespacesIn]⟩
  | cons layer rest ih =>
    obtain ⟨opening, closing, hlayer⟩ := layer.exists_rows header depth path
      (match rest with | [] => isBlock | _ :: _ => true)
    obtain ⟨front, back, hrest⟩ :=
      ih (depth + layer.shell.levels) (path ++ layer.shell.namespaces)
    refine ⟨opening ++ front, back ++ closing, fun definition hglobal hblock => ?_⟩
    rw [enclose, hlayer, hrest definition hglobal hblock]
    · simp [levelsOf, namespacesIn, Nat.add_assoc]
    -- What is inside of the layer is the definition, or another layer.
    · cases rest with
      | nil => exact hglobal
      | cons next rest => exact Shell.isGlobal_close _ _
    · cases rest with
      | nil => exact hblock
      | cons next rest => exact Shell.isBlock_close _ _

/-! ### The rows of classes, objects and gathered definitions -/

/-- The rows of definitions in a class or an object are those of each. -/
theorem blockRows_itemBlocks (header : Bool) (depth : Nat) (path : List String)
    (items : List Definition) :
    blockRows depth (itemBlocks header path items)
      = items.flatMap (Definition.rowsAt header depth path) := by
  induction items with
  | nil => rw [itemBlocks, blockRows_nil, List.flatMap_nil]
  | cons definition rest ih =>
    rw [itemBlocks, blockRows_append, ih, List.flatMap_cons, Definition.rowsAt]

/-- A class is annotated with its global, and a trait is not. -/
theorem Definition.exists_rowsAt_class (definition : ClassDefinition) :
    ∃ opening : String, ∀ (header : Bool) (depth : Nat) (path : List String),
      (Definition.class definition).rowsAt header depth path
        = templateRows depth
            ("@js.native" :: if definition.isTrait then ["trait " ++ opening]
              else globalAnnotation path definition.name :: ["class " ++ opening])
            (definition.body.items.flatMap (Definition.rowsAt header (depth + 1) path)) := by
  let head := ClassDefinition.head [] definition.name definition.typeParameters definition.parents
    definition.isTrait
  refine ⟨displayPieces head.pieces.tail, fun header depth path => ?_⟩
  rw [rowsAt, blocks_class, blockRows_template, blockRows_itemBlocks]
  cases htrait : definition.isTrait <;>
    simp [ClassDefinition.head, head, htrait, Head.pieces, Keyword.spelling, Piece.display]

/-- An object is annotated with its global. -/
theorem Definition.rowsAt_object (header : Bool) (depth : Nat) (path : List String)
    (definition : ObjectDefinition) :
    (Definition.object definition).rowsAt header depth path
      = templateRows depth ["@js.native", globalAnnotation path definition.name,
            "object " ++ definition.name.display ++ " extends js.Object \x7b"]
          (definition.body.items.flatMap (Definition.rowsAt header (depth + 1) path)) := by
  rw [rowsAt, blocks_object, blockRows_template, blockRows_itemBlocks]
  simp [ObjectDefinition.head, Head.pieces, Keyword.spelling, Piece.display, typeParameterPieces,
    String.append_assoc]

/-- The line of a field or a method. A constructor without parameters has none. -/
def Definition.leafLine? : Definition → Option String
  | .field definition => some (displayPieces definition.pieces)
  | .method definition => definition.pieces?.map displayPieces
  | _ => none

/-- The rows of the object that gathers the fields and methods of a package: it is annotated with
the namespaces, and is the global scope outside of them. -/
def gatheringRows (depth : Nat) (path : List String) (name : Identifier)
    (items : List Definition) : List Row :=
  templateRows depth
    ["@js.native",
      if path.isEmpty then "@JSGlobalScope" else "@JSGlobal(\"" ++ joined "." path ++ "\")",
      "object " ++ (if path.isEmpty then "Globals" else name.display) ++ " extends js.Object \x7b"]
    ((items.filterMap Definition.leafLine?).map (Row.line (depth + 1)))

/-- The only fields and methods without a line are constructors without parameters. -/
theorem Definition.leafLine?_eq_none_iff {definition : Definition}
    (h : definition.isGlobal = true) : definition.leafLine? = none
      ↔ ∃ method : Method, definition = .method method ∧ method.name.isConstructor = true
        ∧ method.parameters = [] := by
  cases definition with
  | field definition => simp [leafLine?]
  | method definition =>
    cases hconstructor : definition.name.isConstructor <;>
      simp [leafLine?, Method.pieces?, hconstructor]
  | comment | package | «class» | object => cases h

/-- The rows of fields and methods are their lines, at one depth. -/
theorem blockRows_leafBlocks (depth : Nat) (items : List Definition) :
    blockRows depth (items.flatMap Definition.leafBlocks)
      = (items.filterMap Definition.leafLine?).map (Row.line depth) := by
  induction items with
  | nil => simp
  | cons definition rest ih =>
    have hleaf : blockRows depth definition.leafBlocks
        = definition.leafLine?.toList.map (Row.line depth) := by
      cases definition with
      | method definition =>
        cases hpieces : definition.pieces? <;>
          simp [Definition.leafBlocks, Definition.leafLine?, hpieces, Block.rows]
      | _ => simp [Definition.leafBlocks, Definition.leafLine?, Block.rows]
    rw [List.flatMap_cons, blockRows_append, hleaf, ih, List.filterMap_cons]
    cases definition.leafLine? <;> simp

/-- The rows of the object that gathers them are its lines around theirs. -/
theorem blockRows_gatheringBlock (depth : Nat) (path : List String) (name : Identifier)
    (items : List Definition) :
    blockRows depth [gatheringBlock path name items] = gatheringRows depth path name items := by
  have hglobals : Identifier.display ⟨"Globals"⟩ = "Globals" := by decide +kernel
  rw [gatheringBlock, blockRows_template, blockRows_leafBlocks, gatheringRows]
  cases hpath : path.isEmpty <;>
    simp [gatheringHead, gatheringName, hpath, hglobals, Head.pieces, Keyword.spelling,
      Piece.display, typeParameterPieces, String.append_assoc]

/-- Two definitions in one place are the same, or both are gathered. -/
def Definition.SameUnlessGlobal (definition other : Definition) : Prop :=
  definition = other ∧ definition.isGlobal = false
    ∨ definition.isGlobal = true ∧ other.isGlobal = true

/-- Definitions are the same as themselves. -/
theorem sameUnlessGlobal_refl (items : List Definition) :
    List.Forall₂ Definition.SameUnlessGlobal items items := by
  refine List.forall₂_same.mpr fun definition _ => ?_
  cases hglobal : definition.isGlobal with
  | true => exact .inr ⟨hglobal, hglobal⟩
  | false => exact .inl ⟨rfl, hglobal⟩

section

variable (header : Bool) (path : List String) (name : Identifier)

/-- Behind the object that gathers them, nothing depends on the fields and methods. -/
theorem packageBlocks_gathered (all all' : List Definition) (previous : Option Bool)
    {items items' : List Definition}
    (h : List.Forall₂ Definition.SameUnlessGlobal items items') :
    packageBlocks header path name all previous true items'
      = packageBlocks header path name all' previous true items := by
  induction h generalizing previous with
  | nil => rw [packageBlocks, packageBlocks]
  | cons hsame _ ih =>
    rw [packageBlocks, packageBlocks]
    obtain ⟨rfl, hglobal⟩ | ⟨hglobal, hother⟩ := hsame
    · simp [hglobal, ih]
    · simp [hglobal, hother, ih]

/-- What stands around the object that gathers fields and methods depends on none of these. -/
theorem exists_blocks_gathering {items : List Definition}
    (hany : items.any Definition.isGlobal = true) (previous : Option Bool) :
    ∃ front back : List Block, ∀ all items', List.Forall₂ Definition.SameUnlessGlobal items items' →
      packageBlocks header path name all previous false items'
        = front ++ gatheringBlock path name all :: back := by
  induction items generalizing previous with
  | nil => cases hany
  | cons definition rest ih =>
    cases hglobal : definition.isGlobal with
    | true =>
      -- The object stands where the first definition is that it gathers; those behind it leave
      -- nothing where they stood.
      refine ⟨if blankBefore previous true then [.blank] else [],
        packageBlocks header path name [] (some true) true rest, fun all items' hsame => ?_⟩
      obtain ⟨other, rest', hother, hrest, rfl⟩ := List.forall₂_cons_left_iff.mp hsame
      obtain ⟨-, hfalse⟩ | ⟨-, hother⟩ := hother
      · rw [hglobal] at hfalse
        cases hfalse
      · have hblock : other.isBlock = true := by
          cases other <;> first | rfl | cases hother
        rw [packageBlocks]
        simp [hother, hblock, packageBlocks_gathered header path name all [] (some true) hrest]
    | false =>
      rw [List.any_cons, hglobal, Bool.false_or] at hany
      obtain ⟨front, back, hblocks⟩ := ih hany (some definition.isBlock)
      refine ⟨(if blankBefore previous definition.isBlock then [.blank] else [])
        ++ definition.blocks header path ++ front, back, fun all items' hsame => ?_⟩
      obtain ⟨other, rest', hother, hrest, rfl⟩ := List.forall₂_cons_left_iff.mp hsame
      obtain ⟨rfl, -⟩ | ⟨htrue, -⟩ := hother
      · rw [packageBlocks, hglobal]
        simp [hblocks all rest' hrest]
      · rw [hglobal] at htrue
        cases htrue

end

/-- A package with other definitions in it. -/
def Package.withItems (package : Package) (items : List Definition) : Package :=
  { package with body := { package.body with items } }

/-- A package with the definitions it has is the package. -/
theorem Package.withItems_items (package : Package) :
    package.withItems package.body.items = package := by
  obtain ⟨_, _, ⟨_, _⟩⟩ := package
  rfl

/-- A package without what is in it. -/
def Package.shell (package : Package) : Shell :=
  .package package.name package.isNamespace

/-- The fields and methods of a package are written in one object, inside the namespaces of the
package. What stands around it depends on none of these. -/
theorem exists_rows_gathering (layers : List Layer) (header : Bool) {package : Package}
    (hany : package.body.items.any Definition.isGlobal = true) :
    ∃ front back : List Row, ∀ items,
      List.Forall₂ Definition.SameUnlessGlobal package.body.items items →
      (enclose layers (.package (package.withItems items))).rowsAt header 0 []
        = front ++ gatheringRows (levelsOf layers + package.shell.levels)
            (namespacesIn layers ++ package.shell.namespaces) package.name items ++ back := by
  obtain ⟨outer, outerEnd, houter⟩ := exists_rows_enclose layers header 0 [] true
  obtain ⟨opening, closing, hclose⟩ :=
    package.shell.exists_rows_close header (levelsOf layers) (namespacesIn layers)
  obtain ⟨front, back, hblocks⟩ := exists_blocks_gathering header
    (namespacesIn layers ++ package.shell.namespaces) package.name hany none
  let rows := blockRows (levelsOf layers + package.shell.levels)
  refine ⟨outer ++ opening ++ rows front, rows back ++ closing ++ outerEnd, fun items hsame => ?_⟩
  have hitems : items ≠ [] := by
    rintro rfl
    rw [List.forall₂_nil_right_iff.mp hsame] at hany
    cases hany
  have hpackage : Definition.package (package.withItems items)
      = package.shell.close ⟨items, package.body.madeUp⟩ := rfl
  rw [houter _ rfl rfl, Nat.zero_add, List.nil_append, hpackage, hclose _ _ hitems]
  have hcontents :
      package.shell.contents header (namespacesIn layers ++ package.shell.namespaces) items
        = front
          ++ [gatheringBlock (namespacesIn layers ++ package.shell.namespaces) package.name items]
          ++ back := by
    rw [Package.shell, Shell.contents, ← Package.shell, hblocks items items hsame]
    simp
  rw [hcontents, blockRows_append, blockRows_append, blockRows_gatheringBlock]
  simp only [rows, List.append_assoc]

/-! ### What is written -/

/-- The rows of a facade are those of its package as a definition. -/
theorem Package.rows_eq_rowsAt (package : Package) (header : Bool) :
    package.rows header = (Definition.package package).rowsAt header 0 [] := by
  rw [Package.rows, Definition.rowsAt, Definition.blocks]

/-- To write a definition is to add the text of its rows, which are made with the depth and the
namespaces of the page as arguments, and the page is left at that depth and in these namespaces. A
facade is the text of its rows at the outermost level and outside of namespaces, and can be written
if the margin of each of them can. In the rows of a facade stand those of every definition in it
that is not gathered, inside the namespaces among the packages around it, and those of an object for
the fields and methods of every package that has some. A class and an object are annotated with the
namespaces and their own name, and a trait is not. -/
theorem write_stateless :
    (∀ (definition : Definition) (page : Page), definition.write page
        = { page with
            text := page.text ++ displayRows page.layout.indent
              (definition.rowsAt page.layout.header page.depth page.path) })
      ∧ (∀ (package : Package) (layout : Layout),
          package.render layout = displayRows layout.indent
            ((Definition.package package).rowsAt layout.header 0 [])
          ∧ (package.fits layout = true
            ↔ ∀ depth ∈ rowDepths ((Definition.package package).rowsAt layout.header 0 []),
                depth * layout.indent ≤ Layout.widestMargin))
      ∧ (∀ (layers : List Layer) (header isBlock : Bool), ∃ front back : List Row,
          ∀ definition : Definition, definition.isGlobal = false → definition.isBlock = isBlock →
            (enclose layers definition).rowsAt header 0 []
              = front ++ definition.rowsAt header (levelsOf layers) (namespacesIn layers) ++ back)
      ∧ (∀ (layers : List Layer) (header : Bool) (package : Package),
          package.body.items.any Definition.isGlobal = true → ∃ front back : List Row,
            (enclose layers (.package package)).rowsAt header 0 []
              = front ++ gatheringRows (levelsOf layers + package.shell.levels)
                  (namespacesIn layers ++ package.shell.namespaces) package.name package.body.items
                ++ back)
      ∧ (∀ definition : ClassDefinition, ∃ opening : String,
          ∀ (header : Bool) (depth : Nat) (path : List String),
            (Definition.class definition).rowsAt header depth path
              = templateRows depth
                  ("@js.native" :: if definition.isTrait then ["trait " ++ opening]
                    else globalAnnotation path definition.name :: ["class " ++ opening])
                  (definition.body.items.flatMap (Definition.rowsAt header (depth + 1) path)))
      ∧ ∀ (header : Bool) (depth : Nat) (path : List String) (definition : ObjectDefinition),
          (Definition.object definition).rowsAt header depth path
            = templateRows depth ["@js.native", globalAnnotation path definition.name,
                  "object " ++ definition.name.display ++ " extends js.Object \x7b"]
                (definition.body.items.flatMap (Definition.rowsAt header (depth + 1) path)) := by
  refine ⟨fun definition page => ?_, fun package layout => ?_, fun layers header isBlock => ?_,
    fun layers header package hany => ?_, Definition.exists_rowsAt_class, Definition.rowsAt_object⟩
  · rw [Definition.write_eq, Page.put, displayBlocks_eq_displayRows, Definition.rowsAt]
  · rw [← Package.rows_eq_rowsAt]
    exact ⟨package.render_eq_displayRows layout, package.fits_iff layout⟩
  · obtain ⟨front, back, hrows⟩ := exists_rows_enclose layers header 0 [] isBlock
    refine ⟨front, back, fun definition hglobal hblock => ?_⟩
    rw [hrows definition hglobal hblock, Nat.zero_add, List.nil_append]
  -- The items of the package itself are one case of items with the same gathered ones.
  · obtain ⟨front, back, hrows⟩ := exists_rows_gathering layers header hany
    have hpackage := hrows package.body.items (sameUnlessGlobal_refl _)
    rw [package.withItems_items] at hpackage
    exact ⟨front, back, hpackage⟩

/-- A package without a name is no namespace, even if it is marked as one, and one that is not
marked is none either. -/
theorem write_stateless_packages :
    let layer (name : String) (isNamespace : Bool) : Layer :=
      ⟨.package ⟨name⟩ isNamespace, [.comment "a"], [.field ⟨⟨"b"⟩, .string⟩], 0⟩
    let layers := [layer "" true, layer "lib" true, layer "plain" false, layer "" true]
    Row.line 2 "@JSGlobal(\"lib.C\")"
        ∈ (enclose layers (.class ⟨⟨"C"⟩, [], [], false, none, .empty⟩)).rowsAt true 0 []
      ∧ Row.line 3 "@JSGlobal(\"lib.ns\")"
        ∈ (enclose layers
            (.package ⟨⟨"ns"⟩, true, ⟨[.field ⟨⟨"c"⟩, .string⟩], 0⟩⟩)).rowsAt true 0 [] := by
  intro layer layers
  constructor
  · obtain ⟨front, back, hrows⟩ := write_stateless.2.2.1 layers true true
    obtain ⟨opening, hclass⟩ :=
      write_stateless.2.2.2.2.1 ⟨⟨"C"⟩, [], [], false, none, .empty⟩
    have hannotation : globalAnnotation (namespacesIn layers) ⟨"C"⟩ = "@JSGlobal(\"lib.C\")" := by
      decide +kernel
    have hlevels : levelsOf layers = 2 := by decide +kernel
    rw [hrows _ rfl rfl, hclass, hannotation, hlevels]
    simp [templateRows]
  · obtain ⟨front, back, hrows⟩ := write_stateless.2.2.2.1 layers true
      ⟨⟨"ns"⟩, true, ⟨[.field ⟨⟨"c"⟩, .string⟩], 0⟩⟩ rfl
    have hlevels : levelsOf layers = 2 := by decide +kernel
    have hpath : namespacesIn layers = ["lib"] := by decide +kernel
    rw [hrows, hlevels, hpath]
    have hns : (Identifier.isEmpty ⟨"ns"⟩) = false := by decide +kernel
    simp [gatheringRows, templateRows, Package.shell, Shell.levels, Shell.namespaces, hns, joined]

end Facade
