import Facade.Definition.Render

/-!
# Scala source as a tree

A facade is written line by line, with the depth and the namespaces of the next line kept on the
page. What comes out is a tree: lines and comments, and blocks that stand between two braces.
`Block` is that tree, with the names in every line kept apart from the words around them, so that
statements about what is written need not take a text apart again.

`Definition.blocks` and `Package.blocks` make the tree of a definition. They are given the
namespaces around it and remember nothing, and `displayBlocks` is given the depth.
`Definition.write_eq` says that a page with a definition on it is the page with the text of its
tree, and stands at the depth and in the namespaces where it stood; `Package.render_eq` is the same
for a whole facade.
-/

set_option autoImplicit false

namespace Facade

open Facade.Text (joined)

/-! ### Lines -/

/-- A part of a line: words that are written as they are, or a name, which is written as Scala reads
it. -/
inductive Piece where
  | words (text : String)
  | name (name : Identifier)

/-- The text of a piece. -/
def Piece.display : Piece → String
  | .words text => text
  | .name identifier => identifier.display

/-- Pieces one behind the other. -/
def displayPieces : List Piece → String
  | [] => ""
  | piece :: rest => piece.display ++ displayPieces rest

/-- Runs of pieces, with the separator between neighbours. -/
def joinedPieces (separator : String) : List (List Piece) → List Piece
  | [] => []
  | [run] => run
  | run :: next :: rest => run ++ .words separator :: joinedPieces separator (next :: rest)

/-- No pieces have no text. -/
@[simp] theorem displayPieces_nil : displayPieces [] = "" := rfl

/-- The first piece comes first in the text. -/
@[simp] theorem displayPieces_cons (piece : Piece) (rest : List Piece) :
    displayPieces (piece :: rest) = piece.display ++ displayPieces rest := rfl

/-- Pieces behind pieces are texts behind texts. -/
@[simp] theorem displayPieces_append (front back : List Piece) :
    displayPieces (front ++ back) = displayPieces front ++ displayPieces back := by
  induction front with
  | nil => simp
  | cons piece rest ih => simp [ih, String.append_assoc]

/-- Runs of pieces are joined as their texts are. -/
theorem displayPieces_joinedPieces (separator : String) (runs : List (List Piece)) :
    displayPieces (joinedPieces separator runs) = joined separator (runs.map displayPieces) := by
  induction runs with
  | nil => rfl
  | cons run rest ih =>
    cases rest with
    | nil => rfl
    | cons next rest =>
      simp only [List.map_cons] at ih
      simp [joinedPieces, joined, ih, Piece.display, String.append_assoc]

/-- In particular names, each of which is a run of its own. -/
theorem displayPieces_names (separator : String) (names : List Identifier) :
    displayPieces (joinedPieces separator (names.map fun name => [.name name]))
      = joined separator (names.map Identifier.display) := by
  simp [displayPieces_joinedPieces, Function.comp_def, Piece.display]

/-! ### Types and parameters -/

/-- The names of a path, with dots between them. -/
def DottedName.pieces (path : DottedName) : List Piece :=
  joinedPieces "." (path.segments.map fun name => [.name name])

/-- The pieces of a path are the pieces of its text. -/
theorem DottedName.displayPieces_pieces (path : DottedName) :
    displayPieces path.pieces = path.display :=
  displayPieces_names "." path.segments

namespace ScalaType

/-- A path applied to types that are written already. -/
def piecesApplied (name : DottedName) : List (List Piece) → List Piece
  | [] => name.pieces
  | [element] =>
    if name = repeatedName then element ++ [.words "*"]
    else name.pieces ++ .words "[" :: element ++ [.words "]"]
  | arguments => name.pieces ++ .words "[" :: joinedPieces ", " arguments ++ [.words "]"]

mutual

/-- The pieces of a type. -/
def pieces : ScalaType → List Piece
  | ⟨name, arguments⟩ => piecesApplied name (piecesAll arguments)

/-- The pieces of types, one run for each. -/
def piecesAll : List ScalaType → List (List Piece)
  | [] => []
  | type :: rest => type.pieces :: piecesAll rest

end

/-- The pieces of a path that is applied to types have the text that it is printed with. -/
theorem displayPieces_piecesApplied (name : DottedName) (arguments : List (List Piece)) :
    displayPieces (piecesApplied name arguments)
      = displayApplied name (arguments.map displayPieces) := by
  match arguments with
  | [] => exact name.displayPieces_pieces
  | [element] =>
    simp only [piecesApplied, List.map_cons, List.map_nil, displayApplied]
    split <;> simp [Piece.display, name.displayPieces_pieces, String.append_assoc]
  | first :: second :: rest =>
    simp [piecesApplied, displayApplied, Piece.display, name.displayPieces_pieces,
      displayPieces_joinedPieces, String.append_assoc]

mutual

/-- The pieces of a type have the text that it is printed with. -/
theorem displayPieces_pieces (type : ScalaType) : displayPieces type.pieces = type.display := by
  match type with
  | ⟨name, arguments⟩ =>
    rw [pieces, display, displayPieces_piecesApplied, map_displayPieces_piecesAll]

/-- The same for types, run by run. -/
theorem map_displayPieces_piecesAll (types : List ScalaType) :
    (piecesAll types).map displayPieces = displayAll types := by
  match types with
  | [] => rfl
  | type :: rest =>
    rw [piecesAll, displayAll, List.map_cons, displayPieces_pieces, map_displayPieces_piecesAll]

end

end ScalaType

/-- Names in square brackets, or nothing for the empty list. -/
def typeParameterPieces : List Identifier → List Piece
  | [] => []
  | name :: rest =>
    .words "[" :: joinedPieces ", " ((name :: rest).map fun name => [.name name]) ++ [.words "]"]

/-- The pieces of type parameters have the text that they are printed with. -/
theorem displayPieces_typeParameterPieces (names : List Identifier) :
    displayPieces (typeParameterPieces names) = displayTypeParameterNames names := by
  cases names with
  | nil => rfl
  | cons name rest =>
    rw [typeParameterPieces, displayTypeParameterNames, displayPieces_append, displayPieces_cons,
      displayPieces_names]
    simp [Piece.display]

/-- A parameter: its name, its type, and its default if it may be left out. -/
def MethodParameter.pieces (parameter : MethodParameter) : List Piece :=
  .name parameter.name :: .words ": " :: parameter.type.pieces
    ++ if parameter.hasDefault then [.words " = ???"] else []

/-- The pieces of a parameter have the text that it is printed with. -/
theorem MethodParameter.displayPieces_pieces (parameter : MethodParameter) :
    displayPieces parameter.pieces = parameter.display := by
  cases hdefault : parameter.hasDefault <;>
    simp [pieces, display, hdefault, Piece.display, ScalaType.displayPieces_pieces,
      String.append_assoc]

/-- Parameters in parentheses. -/
def parameterPieces (parameters : List MethodParameter) : List Piece :=
  .words "(" :: joinedPieces ", " (parameters.map MethodParameter.pieces) ++ [.words ")"]

/-- The pieces of parameters have the text that they are printed with. -/
theorem displayPieces_parameterPieces (parameters : List MethodParameter) :
    displayPieces (parameterPieces parameters) = displayMethodParameters parameters := by
  have hmap : (parameters.map MethodParameter.pieces).map displayPieces
      = parameters.map MethodParameter.display := by
    rw [List.map_map]
    exact List.map_congr_left fun parameter _ => parameter.displayPieces_pieces
  simp [parameterPieces, displayMethodParameters, displayPieces_joinedPieces, hmap, Piece.display,
    String.append_assoc]

/-- The line of a field. -/
def Field.pieces (definition : Field) : List Piece :=
  .words "var " :: .name definition.name :: .words ": " :: definition.type.pieces
    ++ [.words " = js.native"]

/-- The line of a method or a constructor. A constructor without parameters has none. -/
def Method.pieces? (definition : Method) : Option (List Piece) :=
  if definition.name.isConstructor then
    if definition.parameters.isEmpty then none
    else some (.words "def this" :: parameterPieces definition.parameters ++ [.words " = this()"])
  else
    some (.words "def " :: .name definition.name :: typeParameterPieces definition.typeParameters
      ++ parameterPieces definition.parameters ++ .words ": " :: definition.result.pieces
      ++ [.words " = js.native"])

/-! ### Blocks -/

/-- The word that opens a template. -/
inductive Keyword where
  | trait
  | «class»
  | object
deriving DecidableEq

/-- How the word is written. -/
def Keyword.spelling : Keyword → String
  | .trait => "trait"
  | .class => "class"
  | .object => "object"

/-- What stands in front of the body of a trait, a class or an object: lines of annotations, and the
line that opens it. -/
structure Head where
  annotations : List String
  keyword : Keyword
  name : Identifier
  typeParameters : List Identifier
  parents : List ScalaType

/-- The line that opens a template. -/
def Head.pieces (head : Head) : List Piece :=
  .words (head.keyword.spelling ++ " ") :: .name head.name
    :: typeParameterPieces head.typeParameters ++ .words " extends "
    :: (if head.parents.isEmpty then [.words "js.Object"]
        else joinedPieces " with " (head.parents.map ScalaType.pieces)) ++ [.words " \x7b"]

/-- What stands in a source: an empty line, a line, a comment, or a block between braces. -/
inductive Block where
  | blank
  | line (pieces : List Piece)
  | comment (text : String)
  | template (head : Head) (body : List Block)
  | package (name : Identifier) (body : List Block)

/-- A line at a depth. -/
def displayLine (indent depth : Nat) (content : String) : String :=
  String.ofList (List.replicate (depth * indent) ' ') ++ content ++ "\n"

/-- Lines at a depth. -/
def displayLines (indent depth : Nat) : List String → String
  | [] => ""
  | content :: rest => displayLine indent depth content ++ displayLines indent depth rest

mutual

/-- The text of a block at a depth. -/
def Block.display (indent depth : Nat) : Block → String
  | .blank => "\n"
  | .line pieces => displayLine indent depth (displayPieces pieces)
  | .comment text => displayLine indent depth (Comment.display text)
  | .template head body =>
    displayLines indent depth head.annotations
      ++ displayLine indent depth (displayPieces head.pieces)
      ++ displayBlocks indent (depth + 1) body ++ displayLine indent depth "\x7d"
  | .package name body =>
    displayLine indent depth ("package " ++ name.display ++ " \x7b")
      ++ displayBlocks indent (depth + 1) body ++ displayLine indent depth "\x7d"

/-- The texts of blocks at a depth, one behind the other. -/
def displayBlocks (indent depth : Nat) : List Block → String
  | [] => ""
  | block :: rest => block.display indent depth ++ displayBlocks indent depth rest

end

/-- No blocks have no text. -/
@[simp] theorem displayBlocks_nil (indent depth : Nat) : displayBlocks indent depth [] = "" := by
  rw [displayBlocks]

/-- The first block comes first in the text. -/
@[simp] theorem displayBlocks_cons (indent depth : Nat) (block : Block) (rest : List Block) :
    displayBlocks indent depth (block :: rest)
      = block.display indent depth ++ displayBlocks indent depth rest := by
  rw [displayBlocks]

/-- Blocks behind blocks are texts behind texts. -/
@[simp] theorem displayBlocks_append (indent depth : Nat) (front back : List Block) :
    displayBlocks indent depth (front ++ back)
      = displayBlocks indent depth front ++ displayBlocks indent depth back := by
  induction front with
  | nil => simp
  | cons block rest ih => simp [ih, String.append_assoc]

/-! ### The tree of a definition -/

/-- The annotation of what stands for a value of the JavaScript side, inside namespaces. -/
def globalAnnotation (path : List String) (name : Identifier) : String :=
  if path.isEmpty then "@JSGlobal"
  else "@JSGlobal(\"" ++ joined "." path ++ "." ++ name.raw ++ "\")"

/-- The head of a class, or of a trait. -/
def ClassDefinition.head (path : List String) (name : Identifier)
    (typeParameters : List Identifier) (parents : List ScalaType) (isTrait : Bool) : Head where
  annotations := if isTrait then ["@js.native"] else ["@js.native", globalAnnotation path name]
  keyword := if isTrait then .trait else .class
  name
  typeParameters
  parents

/-- The head of an object. -/
def ObjectDefinition.head (path : List String) (name : Identifier) : Head :=
  ⟨["@js.native", globalAnnotation path name], .object, name, [], []⟩

/-- The name of the object that gathers the fields and methods of a package. -/
def gatheringName (path : List String) (name : Identifier) : Identifier :=
  if path.isEmpty then ⟨"Globals"⟩ else name

/-- The head of the object that gathers the fields and methods of a package. -/
def gatheringHead (path : List String) (name : Identifier) : Head where
  annotations :=
    ["@js.native",
      if path.isEmpty then "@JSGlobalScope" else "@JSGlobal(\"" ++ joined "." path ++ "\")"]
  keyword := .object
  name := gatheringName path name
  typeParameters := []
  parents := []

/-- The lines of a field or a method. -/
def Definition.leafBlocks : Definition → List Block
  | .field definition => [.line definition.pieces]
  | .method definition => (definition.pieces?.map Block.line).toList
  | _ => []

/-- The object that gathers the fields and methods of a package. -/
def gatheringBlock (path : List String) (name : Identifier) (items : List Definition) : Block :=
  .template (gatheringHead path name) (items.flatMap Definition.leafBlocks)

/-- The imports of the JavaScript side, if they are wanted, and an empty line if anything follows.
-/
def headerBlocks (header more : Bool) : List Block :=
  if header then
    .line [.words "import scala.scalajs.js"] :: .line [.words "import js.annotation._"]
      :: if more then [.blank] else []
  else []

/-- The namespaces around what is in a package. -/
def innerPath (path : List String) (name : Identifier) (isNamespace : Bool) : List String :=
  if isNamespace then path ++ [name.raw] else path

mutual

/-- The tree of a definition inside namespaces. -/
def Definition.blocks (header : Bool) (path : List String) : Definition → List Block
  | .comment text => [.comment text]
  | .package definition => definition.blocks header path
  | .class ⟨name, typeParameters, parents, isTrait, _, ⟨items, _⟩⟩ =>
    [.template (ClassDefinition.head path name typeParameters parents isTrait)
      (itemBlocks header path items)]
  | .object ⟨name, _, ⟨items, _⟩⟩ =>
    [.template (ObjectDefinition.head path name) (itemBlocks header path items)]
  | .field definition => [.line definition.pieces]
  | .method definition => (definition.pieces?.map Block.line).toList

/-- The tree of a package. A package without a name has no braces. -/
def Package.blocks (header : Bool) (path : List String) : Package → List Block
  | ⟨name, isNamespace, ⟨items, _⟩⟩ =>
    if name.isEmpty then
      headerBlocks header (!items.isEmpty)
        ++ packageBlocks header path name items none false items
    else
      [.package name (.blank
        :: packageBlocks header (innerPath path name isNamespace) name items none false items
        ++ if items.isEmpty then [] else [.blank])]

/-- The trees of the rest of a package, given all of its definitions. -/
def packageBlocks (header : Bool) (path : List String) (name : Identifier)
    (all : List Definition) (previous : Option Bool) (gathered : Bool) :
    List Definition → List Block
  | [] => []
  | definition :: rest =>
    if definition.isGlobal && gathered then
      packageBlocks header path name all previous gathered rest
    else
      (if blankBefore previous definition.isBlock then [.blank] else [])
        ++ (if definition.isGlobal then [gatheringBlock path name all]
            else definition.blocks header path)
        ++ packageBlocks header path name all (some definition.isBlock)
          (gathered || definition.isGlobal) rest

/-- The trees of the definitions in a class or an object. -/
def itemBlocks (header : Bool) (path : List String) : List Definition → List Block
  | [] => []
  | definition :: rest => definition.blocks header path ++ itemBlocks header path rest

end

/-- The tree of a class is a template around its definitions. -/
theorem Definition.blocks_class (header : Bool) (path : List String)
    (definition : ClassDefinition) :
    (Definition.class definition).blocks header path
      = [.template (ClassDefinition.head path definition.name definition.typeParameters
          definition.parents definition.isTrait)
          (itemBlocks header path definition.body.items)] := by
  obtain ⟨_, _, _, _, _, ⟨_, _⟩⟩ := definition
  rw [Definition.blocks]

/-- The tree of an object is a template around its definitions. -/
theorem Definition.blocks_object (header : Bool) (path : List String)
    (definition : ObjectDefinition) :
    (Definition.object definition).blocks header path
      = [.template (ObjectDefinition.head path definition.name)
          (itemBlocks header path definition.body.items)] := by
  obtain ⟨_, _, ⟨_, _⟩⟩ := definition
  rw [Definition.blocks]

/-! ### What is written is the text of the tree -/

namespace Page

/-- Writes blocks at the depth of the page. -/
def put (page : Page) (blocks : List Block) : Page :=
  { page with text := page.text ++ displayBlocks page.layout.indent page.depth blocks }

/-- To put blocks on a page leaves its layout. -/
@[simp] theorem layout_put (page : Page) (blocks : List Block) :
    (page.put blocks).layout = page.layout := rfl

/-- It leaves the depth of the page. -/
@[simp] theorem depth_put (page : Page) (blocks : List Block) :
    (page.put blocks).depth = page.depth := rfl

/-- It leaves the namespaces of the page. -/
@[simp] theorem path_put (page : Page) (blocks : List Block) :
    (page.put blocks).path = page.path := rfl

/-- To put no blocks leaves the page as it is. -/
@[simp] theorem put_nil (page : Page) : page.put [] = page := by
  simp [put]

/-- To put blocks and then others is to put them all. -/
theorem put_put (page : Page) (front back : List Block) :
    (page.put front).put back = page.put (front ++ back) := by
  simp [put, String.append_assoc]

/-- To write a line is to put it. -/
theorem line_eq_put (page : Page) (pieces : List Piece) :
    page.line (displayPieces pieces) = page.put [.line pieces] := by
  simp [line, put, margin, Block.display, displayLine, String.append_assoc]

/-- To write a comment is to put it. -/
theorem comment_eq_put (page : Page) (text : String) :
    page.line (Comment.display text) = page.put [.comment text] := by
  simp [line, put, margin, Block.display, displayLine, String.append_assoc]

/-- To write an empty line under a condition is to put it if the condition holds. -/
theorem blankIf_eq_put (condition : Bool) (page : Page) :
    page.blankIf condition = page.put (if condition then [.blank] else []) := by
  cases condition <;> simp [blankIf, blank, put, Block.display]

/-- To write a field is to put its line. -/
theorem field_eq_put (page : Page) (definition : Field) :
    page.field definition = page.put [.line definition.pieces] := by
  rw [← line_eq_put, field, Field.pieces]
  simp [Piece.display, ScalaType.displayPieces_pieces, String.append_assoc]

/-- To write a method is to put its line, if it has one. -/
theorem method_eq_put (page : Page) (definition : Method) :
    page.method definition = page.put (definition.pieces?.map Block.line).toList := by
  unfold method Method.pieces?
  split
  · split
    · simp
    · rw [Option.map_some, Option.toList_some, ← line_eq_put]
      simp [Piece.display, displayPieces_parameterPieces, String.append_assoc]
  · rw [Option.map_some, Option.toList_some, ← line_eq_put]
    simp [Piece.display, displayPieces_typeParameterPieces, displayPieces_parameterPieces,
      ScalaType.displayPieces_pieces, String.append_assoc]

/-- To write the fields and methods of a package is to put their lines. -/
theorem leaves_eq_put (items : List Definition) (page : Page) :
    leaves items page = page.put (items.flatMap Definition.leafBlocks) := by
  induction items generalizing page with
  | nil => simp [leaves]
  | cons definition rest ih =>
    cases definition <;>
      simp [leaves, ih, Definition.leafBlocks, field_eq_put, method_eq_put, put_put]

/-- A part of the page that puts blocks one level deeper, between the head and the end of a
template. -/
theorem template_eq_put (page : Page) (head : Head) (body : List Block) (part : Page → Page)
    (hpart : ∀ inner : Page, inner.layout = page.layout → inner.path = page.path →
      part inner = inner.put body) :
    ((((head.annotations.foldl line page).line (displayPieces head.pieces)).indented part).line
        "\x7d") = page.put [.template head body] := by
  -- The annotations change neither the layout nor the path, so `hpart` goes for the page below
  -- them.
  have hlines : ∀ (annotations : List String) (above : Page),
      annotations.foldl line above = ⟨above.layout, above.depth, above.path,
        above.text ++ displayLines above.layout.indent above.depth annotations⟩ := by
    intro annotations
    induction annotations with
    | nil => simp [displayLines]
    | cons content rest ih =>
      intro above
      rw [List.foldl_cons, ih]
      simp [line, margin, displayLines, displayLine, String.append_assoc]
  rw [hlines, indented, hpart]
  · simp [put, line, margin, enter, leave, Block.display, displayLine, String.append_assoc]
  · rfl
  · rfl

/-- To write the object that gathers fields and methods is to put its block. -/
theorem globals_eq_put (page : Page) (name : Identifier) (items : List Definition) :
    page.globals name items = page.put [gatheringBlock page.path name items] := by
  rw [gatheringBlock,
    ← template_eq_put page _ _ (leaves items) fun inner _ _ => leaves_eq_put items inner]
  have hglobals : Identifier.display ⟨"Globals"⟩ = "Globals" := by decide +kernel
  unfold globals gatheringHead gatheringName Head.pieces
  -- At the top there is nothing to be named for, and the object is a global scope.
  by_cases hpath : page.path = []
  · simp [line, hpath, Piece.display, Keyword.spelling, typeParameterPieces, hglobals]
  · simp [line, hpath, Piece.display, Keyword.spelling, typeParameterPieces, String.append_assoc]

/-- To write the imports of the JavaScript side is to put them, if they are wanted. -/
theorem header_eq_put (page : Page) (more : Bool) :
    page.header more = page.put (headerBlocks page.layout.header more) := by
  unfold header headerBlocks
  split
  · rw [blankIf_eq_put]
    have hfirst := line_eq_put page [.words "import scala.scalajs.js"]
    have hsecond := line_eq_put (page.put [.line [.words "import scala.scalajs.js"]])
      [.words "import js.annotation._"]
    simp only [displayPieces_cons, displayPieces_nil, Piece.display, String.append_empty]
      at hfirst hsecond
    rw [hfirst, hsecond, put_put, put_put]
    rfl
  · simp

/-- The annotation that a page gives to a value is that of its namespaces. -/
theorem globalAnnotation_eq (page : Page) (name : Identifier) :
    page.globalAnnotation name = Facade.globalAnnotation page.path name := rfl

/-- To write the head of a class is to write its annotations, line by line, and the line that opens
it. -/
theorem classHead_eq (page : Page) (name : Identifier) (typeParameters : List Identifier)
    (parents : List ScalaType) (isTrait : Bool) :
    page.classHead name typeParameters parents isTrait
      = ((ClassDefinition.head page.path name typeParameters parents isTrait).annotations.foldl line
          page).line (displayPieces
            (ClassDefinition.head page.path name typeParameters parents isTrait).pieces) := by
  have hmap : (parents.map ScalaType.pieces).map displayPieces
      = parents.map ScalaType.display := by
    rw [List.map_map]
    exact List.map_congr_left fun parent _ => parent.displayPieces_pieces
  unfold classHead ClassDefinition.head Head.pieces
  -- Only a class is annotated with its global, and parents come with a word in front of them.
  cases isTrait <;> by_cases hparents : parents = [] <;>
    simp [hparents, hmap, Piece.display, Keyword.spelling, displayPieces_typeParameterPieces,
      displayPieces_joinedPieces, String.append_assoc, globalAnnotation_eq, line]

/-- The same for the head of an object. -/
theorem objectHead_eq (page : Page) (name : Identifier) :
    page.objectHead name
      = ((ObjectDefinition.head page.path name).annotations.foldl line page).line
          (displayPieces (ObjectDefinition.head page.path name).pieces) := by
  simp [objectHead, ObjectDefinition.head, Head.pieces, Piece.display, Keyword.spelling,
    typeParameterPieces, globalAnnotation_eq, line, String.append_assoc]

/-- To write something in the braces of a package is to put the package around it. -/
theorem framed_eq_put (page : Page) (name : Identifier) (isEmpty : Bool) (body : List Block)
    (part : Page → Page)
    (hpart : ∀ inner : Page, inner.layout = page.layout → inner.path = page.path →
      part inner = inner.put body) :
    page.framed name isEmpty part
      = page.put [.package name (.blank :: body ++ if isEmpty then [] else [.blank])] := by
  simp only [framed, indented]
  rw [hpart, blankIf_eq_put]
  · cases isEmpty <;>
      simp [-String.reduceAppend, put, line, blank, margin, enter, leave, Block.display,
        displayLine, String.append_assoc]
  · rfl
  · rfl

/-- To write something inside a namespace is to put it, since the page leaves the namespace
again. -/
theorem inNamespace_eq_put (page : Page) (name : String) (blocks : List Block)
    (part : Page → Page)
    (hpart : part (page.enterNamespace name) = (page.enterNamespace name).put blocks) :
    page.inNamespace name part = page.put blocks := by
  rw [inNamespace, hpart]
  simp [put, enterNamespace, leaveNamespace]

end Page

mutual

/-- To write a definition is to put its tree on the page. -/
theorem Definition.write_eq (definition : Definition) (page : Page) :
    definition.write page = page.put (definition.blocks page.layout.header page.path) := by
  match definition with
  | .comment text => rw [Definition.write, Definition.blocks, Page.comment_eq_put]
  | .package definition => rw [Definition.write, Definition.blocks, Package.write_eq]
  | .class ⟨name, typeParameters, parents, isTrait, companion, ⟨items, madeUp⟩⟩ =>
    rw [Definition.write, Definition.blocks, Page.classHead_eq]
    refine Page.template_eq_put page _ _ _ fun inner hlayout hpath => ?_
    rw [writeItems_eq, hlayout, hpath]
  | .object ⟨name, companion, ⟨items, madeUp⟩⟩ =>
    rw [Definition.write, Definition.blocks, Page.objectHead_eq]
    refine Page.template_eq_put page _ _ _ fun inner hlayout hpath => ?_
    rw [writeItems_eq, hlayout, hpath]
  | .field definition => rw [Definition.write, Definition.blocks, Page.field_eq_put]
  | .method definition => rw [Definition.write, Definition.blocks, Page.method_eq_put]

/-- To write a package is to put its tree. -/
theorem Package.write_eq (package : Package) (page : Page) :
    package.write page = page.put (package.blocks page.layout.header page.path) := by
  match package with
  | ⟨name, isNamespace, ⟨items, madeUp⟩⟩ =>
    rw [Package.write, Package.blocks]
    split
    · rw [Page.header_eq_put, writeBlocks_eq, Page.put_put]
      rfl
    · cases isNamespace with
      | true =>
        refine Page.inNamespace_eq_put page name.raw _ _ (Page.framed_eq_put _ name _ _ _ ?_)
        intro inner hlayout hpath
        rw [writeBlocks_eq, hlayout, hpath]
        rfl
      | false =>
        refine Page.framed_eq_put page name _ _ _ fun inner hlayout hpath => ?_
        rw [writeBlocks_eq, hlayout, hpath]
        rfl

/-- To write the rest of a package is to put its trees. The page knows the line in front and whether
the object is written already, and so do these. -/
theorem writeBlocks_eq (name : Identifier) (all : List Definition) (previous : Option Bool)
    (gathered : Bool) (items : List Definition) (page : Page) :
    writeBlocks name all previous gathered items page
      = page.put (packageBlocks page.layout.header page.path name all previous gathered items) := by
  match items with
  | [] => rw [writeBlocks, packageBlocks, Page.put_nil]
  | definition :: rest =>
    rw [writeBlocks, packageBlocks]
    split
    · exact writeBlocks_eq name all previous gathered rest page
    · cases hglobal : definition.isGlobal with
      | true =>
        simp [Page.blankIf_eq_put, Page.globals_eq_put, writeBlocks_eq, Page.put_put]
      | false =>
        simp [Page.blankIf_eq_put, Definition.write_eq definition, writeBlocks_eq, Page.put_put]

/-- To write the definitions in a class or an object is to put their trees. -/
theorem writeItems_eq (items : List Definition) (page : Page) :
    writeItems items page = page.put (itemBlocks page.layout.header page.path items) := by
  match items with
  | [] => rw [writeItems, itemBlocks, Page.put_nil]
  | definition :: rest =>
    rw [writeItems, itemBlocks, Definition.write_eq definition, writeItems_eq, Page.put_put]
    rfl

end

/-- A facade as Scala source is the text of its tree. -/
theorem Package.render_eq (package : Package) (layout : Layout) :
    package.render layout = displayBlocks layout.indent 0 (package.blocks layout.header []) := by
  rw [Package.render, Package.write_eq]
  simp [Page.put, Page.blankPage]

end Facade
