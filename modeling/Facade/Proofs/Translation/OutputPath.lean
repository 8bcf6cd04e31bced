import Facade.Proofs.Translation.Names
import Facade.Proofs.Translation.Objects
import Facade.Proofs.Translation.Steps

/-!
# Output paths

An output path only says where a facade goes. The packages of the path stand one inside the other
around what the document makes without a path (`Document.toPackage_eq`), and in the source their
braces stand around the same blocks (`Package.blocks_wrappedIn`): none of these packages is a
namespace, so nothing inside of them is named for them. `output_path_wraps` says both, for every
document that is read.

The imports of the JavaScript side are the only lines that depend on the layout. They are written
for packages without a name, and below the root there are none (`Definition.blocks_header`).
-/

set_option autoImplicit false

namespace Facade

/-! ### The packages of a path -/

namespace Body

/-- A body in packages, one inside the other, that are no namespaces. -/
def wrappedIn (path : List Identifier) (body : Body) : Body :=
  path.foldr (fun name inner => ⟨[.package ⟨name, false, inner⟩], 0⟩) body

/-- Without a path, the body is by itself. -/
@[simp] theorem wrappedIn_nil (body : Body) : body.wrappedIn [] = body := rfl

/-- The first name of a path is that of the outermost package. -/
@[simp] theorem wrappedIn_cons (name : Identifier) (rest : List Identifier) (body : Body) :
    body.wrappedIn (name :: rest) = ⟨[.package ⟨name, false, body.wrappedIn rest⟩], 0⟩ := rfl

/-- From nothing, the packages of a path are made around what is done in the innermost. -/
theorem inPackages_empty (f : Body → Noted Body) (path : List Identifier) :
    empty.inPackages false f path = ⟨(f empty).value.wrappedIn path, (f empty).warnings⟩ := by
  induction path with
  | nil => rw [inPackages_nil, wrappedIn_nil]
  | cons name rest ih =>
    have hnew : (empty.packageOrNew name).body = empty := rfl
    rw [inPackages_cons, hnew, ih]
    rfl

end Body

/-- The facade under an output path is the facade without one, in the packages of the path. -/
theorem Document.toPackage_eq (document : Document) (path : DottedName) :
    document.toPackage path
      = ⟨{ Package.root with
            body := (document.toPackage .root).value.body.wrappedIn path.segments },
          (document.toPackage .root).warnings⟩ := by
  have hroot : document.toPackage .root
      = ⟨{ Package.root with body := (addDeclarations document.declarations .empty).value },
          (addDeclarations document.declarations .empty).warnings ++ []⟩ := by
    rw [toPackage, show DottedName.root.segments = [] from rfl, Body.inPackages_nil]
    rfl
  rw [hroot, toPackage, Body.inPackages_empty]
  rfl

/-! ### Packages that are namespaces -/

/-- A package is a namespace. -/
def Definition.OfNamespace : Definition → Prop
  | .package definition => definition.isNamespace = true
  | _ => True

namespace Body

/-- To fill the package of a namespace marks it, also if it was there already. -/
theorem everywhere_fillNamespace {body : Body} (h : body.Everywhere Definition.OfNamespace)
    (name : Identifier) {inner : Body} (hinner : inner.Everywhere Definition.OfNamespace) :
    (body.fillPackage name true inner).Everywhere Definition.OfNamespace := by
  cases hfound : body.indexOf? ⟨.package, some name⟩ with
  | some index =>
    have hopened : body.openPackage name = (index, body) := by rw [openPackage_eq, hfound]
    obtain ⟨definition, hd, -⟩ := package?_of_indexOf? hfound
    rw [fillPackage, hopened]
    refine everywhere_modify h (get?_of_package? hd) (Bool.or_true _) fun found hbody => ?_
    cases hbody
    exact hinner
  | none =>
    rw [fillPackage_of_new (view_eq_none.mpr hfound), everywhere_iff, push,
      List.forall_mem_append, List.forall_mem_singleton]
    refine ⟨everywhere_iff.mp h, rfl, fun found hbody => ?_⟩
    cases hbody
    exact hinner

/-- The packages that a namespace goes into are all namespaces. -/
theorem everywhere_inNamespaces {f : Body → Noted Body}
    (hf : ∀ {inner : Body}, inner.Everywhere Definition.OfNamespace →
      (f inner).value.Everywhere Definition.OfNamespace)
    (path : List Identifier) {body : Body} (h : body.Everywhere Definition.OfNamespace) :
    (body.inPackages true f path).value.Everywhere Definition.OfNamespace := by
  induction path generalizing body with
  | nil =>
    rw [inPackages_nil]
    exact hf h
  | cons name rest ih =>
    rw [inPackages_cons]
    refine everywhere_fillNamespace h name (ih ?_)
    -- The package may be a new one, which is no namespace yet but has nothing in it either.
    rw [packageOrNew]
    cases hfound : body.indexOf? ⟨.package, some name⟩ with
    | none => exact everywhere_empty
    | some index =>
      obtain ⟨definition, hd, -⟩ := package?_of_indexOf? hfound
      rw [Option.bind_some, hd]
      exact h.inside (get?_of_package? hd) rfl

end Body

/-- No edit adds a package. -/
theorem Edit.fits_ofNamespace (edit : Edit) : edit.Fits Definition.OfNamespace := by
  have hentry : ∀ entry : Entry, entry.Fits Definition.OfNamespace := by
    intro entry fresh _ definition hd
    have hleaf := Entry.isContainer_of_mem_definitions hd
    cases definition with
    | package definition => simp [Definition.isContainer, Definition.body?] at hleaf
    | _ => trivial
  cases edit with
  | here entry => exact hentry entry
  | onClass name change => exact ⟨trivial, fun _ _ => trivial, fun entry _ => hentry entry⟩
  | object name => trivial
  | inObject name entry => exact ⟨trivial, hentry entry⟩

/-- All packages that declarations add are namespaces. -/
theorem along_ofNamespace : Along fun _ before after =>
    before.Everywhere Definition.OfNamespace → after.value.Everywhere Definition.OfNamespace where
  nil _ h := h
  cons hfirst hrest h := hrest (hfirst h)
  script _ _ _ h := Body.everywhere_applyAll h fun edit _ => edit.fits_ofNamespace
  inside _ _ _ hinner _ h := Body.everywhere_inNamespaces (hinner _) _ h

/-- Without an output path, all packages of a facade are namespaces. -/
theorem Document.ofNamespace_toPackage (document : Document) :
    (document.toPackage .root).value.body.Everywhere Definition.OfNamespace := by
  rw [toPackage, show DottedName.root.segments = [] from rfl, Body.inPackages_nil]
  exact along_ofNamespace.addDeclarations document.declarations .empty Body.everywhere_empty

/-! ### The source without its header -/

/-- The definition has a name if it is a package, and so have all packages in it. -/
def Definition.Named (definition : Definition) : Prop :=
  definition.SpelledThrough (fun name => name.isEmpty = false) fun _ => True

mutual

/-- The header is only written where a package without a name is. -/
theorem Definition.blocks_header (header : Bool) (path : List String) (definition : Definition)
    (h : definition.Named) :
    definition.blocks header path = definition.blocks false path := by
  match definition, h with
  | .comment text, _ => rw [Definition.blocks, Definition.blocks]
  | .package ⟨name, isNamespace, ⟨items, madeUp⟩⟩, ⟨hname, hinside⟩ =>
    have hnot : ¬ name.isEmpty = true := Bool.eq_false_iff.mp hname
    rw [Definition.blocks, Definition.blocks, Package.blocks, Package.blocks, if_neg hnot,
      if_neg hnot, packageBlocks_header header _ name items none false items
        (hinside _ rfl).spelledThrough]
  | .class ⟨name, typeParameters, parents, isTrait, companion, ⟨items, madeUp⟩⟩, ⟨_, hinside⟩ =>
    rw [Definition.blocks, Definition.blocks, itemBlocks_header header path items
      (hinside _ rfl).spelledThrough]
  | .object ⟨name, companion, ⟨items, madeUp⟩⟩, ⟨_, hinside⟩ =>
    rw [Definition.blocks, Definition.blocks, itemBlocks_header header path items
      (hinside _ rfl).spelledThrough]
  | .field definition, _ => rw [Definition.blocks, Definition.blocks]
  | .method definition, _ => rw [Definition.blocks, Definition.blocks]

/-- The imports are written in packages without a name only, so what is in packages with names has
none. -/
theorem packageBlocks_header (header : Bool) (path : List String) (name : Identifier)
    (all : List Definition) (previous : Option Bool) (gathered : Bool) (items : List Definition)
    (h : ∀ definition ∈ items, definition.Named) :
    packageBlocks header path name all previous gathered items
      = packageBlocks false path name all previous gathered items := by
  match items with
  | [] => rw [packageBlocks, packageBlocks]
  | definition :: rest =>
    rw [List.forall_mem_cons] at h
    have hrest : ∀ previous gathered, packageBlocks header path name all previous gathered rest
        = packageBlocks false path name all previous gathered rest :=
      fun previous gathered =>
        packageBlocks_header header path name all previous gathered rest h.2
    rw [packageBlocks, packageBlocks, definition.blocks_header header path h.1]
    simp only [hrest]

/-- Nor has what is in classes and objects. -/
theorem itemBlocks_header (header : Bool) (path : List String) (items : List Definition)
    (h : ∀ definition ∈ items, definition.Named) :
    itemBlocks header path items = itemBlocks false path items := by
  match items with
  | [] => rw [itemBlocks, itemBlocks]
  | definition :: rest =>
    rw [List.forall_mem_cons] at h
    rw [itemBlocks, itemBlocks, definition.blocks_header header path h.1,
      itemBlocks_header header path rest h.2]

end

/-- Outside of namespaces, the name of a package is not written into it. -/
theorem packageBlocks_outside (header : Bool) (name other : Identifier) (all : List Definition)
    (previous : Option Bool) (gathered : Bool) (items : List Definition) :
    packageBlocks header [] name all previous gathered items
      = packageBlocks header [] other all previous gathered items := by
  induction items generalizing previous gathered with
  | nil => rw [packageBlocks, packageBlocks]
  | cons definition rest ih =>
    rw [packageBlocks, packageBlocks, ih, ih (some definition.isBlock)]
    rfl

/-- Whatever has definitions in it is written as something. -/
theorem packageBlocks_eq_nil {path : List String} {name : Identifier} {all : List Definition}
    {items : List Definition} (h : ∀ definition ∈ items, definition.Named) :
    packageBlocks false path name all none false items = [] ↔ items = [] := by
  cases items with
  | nil => simp [packageBlocks]
  | cons definition rest =>
    have hnamed : definition.Named := h definition List.mem_cons_self
    have hne : definition.isGlobal = false → definition.blocks false path ≠ [] := by
      intro hglobal
      cases definition with
      | comment text => simp [Definition.blocks]
      | package package => rw [Definition.blocks, Package.blocks_of_named hnamed.1]; simp
      | «class» definition => simp [Definition.blocks_class]
      | object definition => simp [Definition.blocks_object]
      | field definition => cases hglobal
      | method definition => cases hglobal
    rw [packageBlocks]
    cases hglobal : definition.isGlobal with
    | true => simp
    | false => simp [hne hglobal]

/-! ### Blocks under a path -/

/-- Blocks in the braces of packages, one inside the other. An empty line stands in front of the
blocks of each, and another behind them if there are any. -/
def wrappedBlocks (path : List Identifier) (blocks : List Block) : List Block :=
  path.foldr (fun name inner =>
    [.package name (.blank :: inner ++ if inner.isEmpty then [] else [.blank])]) blocks

/-- Blocks below the imports of the JavaScript side, if those are wanted. An empty line stands in
between, if there are blocks. -/
def headedBlocks (header : Bool) (blocks : List Block) : List Block :=
  headerBlocks header (!blocks.isEmpty) ++ blocks

namespace Body

/-- All packages in the body have names. -/
def Named (body : Body) : Prop :=
  body.Everywhere (Definition.Spelled (fun name => name.isEmpty = false) fun _ => True)

/-- What is written for a body without a header and outside of namespaces. -/
def blocks (body : Body) : List Block :=
  packageBlocks false [] ⟨""⟩ body.items none false body.items

/-- If the names of a path are not empty, all packages still have names inside of it. -/
theorem named_wrappedIn {path : List Identifier} (hpath : ∀ name ∈ path, name.isEmpty = false)
    {body : Body} (h : body.Named) : (body.wrappedIn path).Named := by
  induction path with
  | nil => exact h
  | cons name rest ih =>
    rw [List.forall_mem_cons] at hpath
    refine everywhere_iff.mpr (List.forall_mem_singleton.mpr ⟨hpath.1, fun inner hinner => ?_⟩)
    cases hinner
    exact ih hpath.2

/-- The packages of a path are written around what is in the innermost. -/
theorem blocks_wrappedIn {path : List Identifier} (hpath : ∀ name ∈ path, name.isEmpty = false)
    {body : Body} (h : body.Named) :
    (body.wrappedIn path).blocks = wrappedBlocks path body.blocks := by
  induction path with
  | nil => rfl
  | cons name rest ih =>
    rw [List.forall_mem_cons] at hpath
    have hpackage : (body.wrappedIn (name :: rest)).blocks
        = Package.blocks false [] ⟨name, false, body.wrappedIn rest⟩ := by
      simp [blocks, packageBlocks, Definition.blocks, Definition.isGlobal, blankBefore]
    have hinner : packageBlocks false [] name (body.wrappedIn rest).items none false
        (body.wrappedIn rest).items = wrappedBlocks rest body.blocks := by
      rw [packageBlocks_outside false name ⟨""⟩, ← ih hpath.2, blocks]
    have hempty : (body.wrappedIn rest).items.isEmpty
        = (wrappedBlocks rest body.blocks).isEmpty := by
      rw [← hinner, Bool.eq_iff_iff, List.isEmpty_iff, List.isEmpty_iff,
        packageBlocks_eq_nil (named_wrappedIn hpath.2 h).spelledThrough]
    rw [hpackage, Package.blocks_of_named hpath.1, Package.inside,
      if_neg (Bool.eq_false_iff.mp hpath.1), hempty]
    show [Block.package name (.blank :: packageBlocks false [] name _ none false _ ++ _)] = _
    rw [hinner]
    rfl

end Body

/-- The root of a facade is written as the blocks of its body, below the header. -/
theorem Package.blocks_root {body : Body} (h : body.Named) (header : Bool) :
    Package.blocks header [] { root with body } = headedBlocks header body.blocks := by
  have hempty : body.items.isEmpty = body.blocks.isEmpty := by
    rw [Body.blocks, Bool.eq_iff_iff, List.isEmpty_iff, List.isEmpty_iff,
      packageBlocks_eq_nil h.spelledThrough]
  rw [Package.blocks_of_isEmpty rfl]
  show headerBlocks header (!body.items.isEmpty)
    ++ packageBlocks header [] ⟨""⟩ body.items none false body.items = _
  rw [packageBlocks_header header _ _ _ _ _ _ h.spelledThrough, hempty]
  rfl

/-! ### Text under a path -/

/-- A text in the braces of a package. An empty line stands in front of the text, and another behind
it if there is any. -/
def wrappedText (name : Identifier) (inner : String) : String :=
  "package " ++ name.display ++ " \x7b" ++ "\n" ++ "\n" ++ inner
    ++ (if inner = "" then "" else "\n") ++ "\x7d" ++ "\n"

/-- A text below the imports of the JavaScript side, if those are wanted. An empty line stands in
between, if there is any text. -/
def headedText (header : Bool) (text : String) : String :=
  (if header then "import scala.scalajs.js" ++ "\n" ++ "import js.annotation._" ++ "\n"
      ++ (if text = "" then "" else "\n")
    else "") ++ text

mutual

/-- Without an indent, it does not matter how deep a block stands. -/
theorem Block.display_flat (depth : Nat) (block : Block) :
    block.display 0 depth = block.display 0 0 := by
  match block with
  | .blank => rw [Block.display, Block.display]
  | .line pieces => rw [Block.display, Block.display]; rfl
  | .comment text => rw [Block.display, Block.display]; rfl
  | .template head body =>
    have hlines : ∀ annotations,
        displayLines 0 depth annotations = displayLines 0 0 annotations := by
      intro annotations
      induction annotations with
      | nil => rfl
      | cons content rest ih => rw [displayLines, displayLines, ih]; rfl
    rw [Block.display, Block.display, hlines, displayBlocks_flat (depth + 1),
      displayBlocks_flat (0 + 1)]
    rfl
  | .package name body =>
    rw [Block.display, Block.display, displayBlocks_flat (depth + 1), displayBlocks_flat (0 + 1)]
    rfl

/-- Without indentation, it does not matter how deep blocks stand. -/
theorem displayBlocks_flat (depth : Nat) (blocks : List Block) :
    displayBlocks 0 depth blocks = displayBlocks 0 0 blocks := by
  match blocks with
  | [] => rw [displayBlocks, displayBlocks]
  | block :: rest =>
    rw [displayBlocks, displayBlocks, block.display_flat depth, displayBlocks_flat depth rest]

end

/-- Every block is written as something. -/
theorem displayBlocks_eq_empty {indent depth : Nat} {blocks : List Block} :
    displayBlocks indent depth blocks = "" ↔ blocks = [] := by
  have hline : ∀ content, displayLine indent depth content ≠ "" := by
    intro content
    simp [displayLine]
  cases blocks with
  | nil => simp
  | cons block rest => cases block <;> simp [Block.display, hline]

/-- Without an indent, a package is the text of its blocks in braces. -/
theorem displayBlocks_wrapped (name : Identifier) (inner : List Block) :
    displayBlocks 0 0 [.package name (.blank :: inner ++ if inner.isEmpty then [] else [.blank])]
      = wrappedText name (displayBlocks 0 0 inner) := by
  have hempty : inner.isEmpty = true ↔ displayBlocks 0 0 inner = "" := by
    rw [List.isEmpty_iff, displayBlocks_eq_empty]
  have hblank : displayBlocks 0 0 (if inner.isEmpty then [] else [.blank])
      = if displayBlocks 0 0 inner = "" then "" else "\n" := by
    simp only [hempty]
    split <;> simp [Block.display]
  have hline : ∀ content, displayLine 0 0 content = content ++ "\n" := by
    intro content
    simp [displayLine]
  rw [displayBlocks_cons, displayBlocks_nil, Block.display, displayBlocks_flat (0 + 1),
    List.cons_append, displayBlocks_cons, displayBlocks_append, hblank, Block.display]
  -- Opened by `delta`: the equation lemma of a definition of string appends is slow to derive.
  delta wrappedText
  simp only [hline, String.append_assoc, String.append_empty]

/-- Without an indent, blocks in the packages of a path are their text in the packages of the
path. -/
theorem displayBlocks_wrappedBlocks (path : List Identifier) (blocks : List Block) :
    displayBlocks 0 0 (wrappedBlocks path blocks)
      = path.foldr wrappedText (displayBlocks 0 0 blocks) := by
  induction path with
  | nil => rfl
  | cons name rest ih =>
    rw [List.foldr_cons, ← ih]
    exact displayBlocks_wrapped name _

/-- Without an indent, blocks below the header are their text below the header. -/
theorem displayBlocks_headedBlocks (header : Bool) (blocks : List Block) :
    displayBlocks 0 0 (headedBlocks header blocks)
      = headedText header (displayBlocks 0 0 blocks) := by
  by_cases hblocks : blocks = []
  · cases header <;>
      simp [-String.reduceAppend, hblocks, headedBlocks, headerBlocks, headedText, Block.display,
        displayLine, Piece.display, String.append_assoc]
  · have htext : displayBlocks 0 0 blocks ≠ "" := by rwa [Ne, displayBlocks_eq_empty]
    cases header <;>
      simp [-String.reduceAppend, hblocks, htext, headedBlocks, headerBlocks, headedText,
        Block.display, displayLine, Piece.display, String.append_assoc]

/-- The packages of an output path stand one inside the other, each with nothing but the next in it,
and the innermost has what the document makes without a path; the warnings are the same, and in the
innermost all packages are namespaces. In the source, too, the packages of the path are put around
what is written without a path, whatever the layout is: below the header, the blocks of the facade
are the blocks without a path in the braces of the packages, and without an indent the text is the
text without a path in those braces. -/
theorem output_path_wraps {text : String} {document : Document}
    (htext : Document.ofText text = .ok document) (output : String) :
    document.toPackage (.ofText output)
        = ⟨{ Package.root with
              body := (document.toPackage .root).value.body.wrappedIn
                (DottedName.ofText output).segments },
            (document.toPackage .root).warnings⟩
      ∧ (∀ container, (document.toPackage .root).value.body.Contains container →
          ∀ package, .package package ∈ container.items → package.isNamespace = true)
      ∧ (∀ layout : Layout, (document.translate (.ofText output) layout).code
          = displayBlocks layout.indent 0 (headedBlocks layout.header
              (wrappedBlocks (DottedName.ofText output).segments
                ((document.toPackage .root).value.blocks false []))))
      ∧ ∀ header, (document.translate (.ofText output) ⟨0, header⟩).code
          = headedText header ((DottedName.ofText output).segments.foldr wrappedText
              (document.translate .root ⟨0, false⟩).code) := by
  have hpath : ∀ name ∈ (DottedName.ofText output).segments, name.isEmpty = false := by
    intro name hname
    exact beq_eq_false_iff_ne.mpr (DottedName.of_mem_ofText name hname).1
  have hnamed : (document.toPackage .root).value.body.Named := document.everywhere_ofText htext ""
  -- Only the root is without a name, so the header and its blocks come first in every facade.
  have hroot : (document.toPackage .root).value.blocks false []
      = (document.toPackage .root).value.body.blocks :=
    Package.blocks_root hnamed false
  have hblocks : ∀ header, (document.toPackage (.ofText output)).value.blocks header []
      = headedBlocks header (wrappedBlocks (DottedName.ofText output).segments
          ((document.toPackage .root).value.blocks false [])) := by
    intro header
    rw [document.toPackage_eq, Package.blocks_root (Body.named_wrappedIn hpath hnamed),
      Body.blocks_wrappedIn hpath hnamed, hroot]
  have hcode : ∀ layout : Layout, (document.translate (.ofText output) layout).code
      = displayBlocks layout.indent 0 (headedBlocks layout.header
          (wrappedBlocks (DottedName.ofText output).segments
            ((document.toPackage .root).value.blocks false []))) := by
    intro layout
    rw [← hblocks]
    exact Package.render_eq _ layout
  refine ⟨document.toPackage_eq _, fun container hcontainer package hpackage => ?_, hcode,
    fun header => ?_⟩
  · exact (Body.everywhere_iff.mp (hcontainer.everywhere document.ofNamespace_toPackage) _
      hpackage).1
  -- Without an indent a block is printed the same at any depth.
  · rw [hcode, displayBlocks_headedBlocks, displayBlocks_wrappedBlocks]
    have hflat : (document.translate .root ⟨0, false⟩).code
        = displayBlocks 0 0 ((document.toPackage .root).value.blocks false []) :=
      Package.render_eq _ ⟨0, false⟩
    rw [hflat]

/-- The namespace of an object of its own name, with a field, under a path of two names: without an
indent, its source is that without a path, in the braces of the two packages. -/
theorem output_path_wraps_namespace :
    Document.ofText "namespace N \x7b var N: \x7b x: number \x7d; var y: number; \x7d"
        = .ok namespaceInItself
      ∧ (namespaceInItself.translate (.ofText "out.put") ⟨0, true⟩).code
        = headedText true (wrappedText ⟨"out"⟩ (wrappedText ⟨"put"⟩
            (namespaceInItself.translate .root ⟨0, false⟩).code)) := by
  have hpath : (DottedName.ofText "out.put").segments = [⟨"out"⟩, ⟨"put"⟩] := by decide
  have hwraps := (output_path_wraps ofText_namespaceInItself "out.put").2.2.2 true
  rw [hpath] at hwraps
  exact ⟨ofText_namespaceInItself, hwraps⟩

end Facade
