import Facade.Definition.Basic
import Facade.Definition.Page

/-!
# Facades as Scala source

A definition is written line by line on a page. Classes and objects write their bodies one
definition after the other. A package writes blocks with empty lines between them, and gathers its
fields and methods in one object, where the first of them stands: Scala has no room for them
outside of classes and objects.

The text of a comment is written so that it cannot end the comment, nor open another in it, since
comments nest in Scala: `Comment.separate` puts a space between the two characters of every
delimiter.
-/

set_option autoImplicit false

namespace Facade

open Facade.Text (joined)

/-! ### Comments -/

/-- Puts a space between two characters wherever the one follows the other. -/
def Comment.separate (first second : Char) : List Char → List Char
  | c :: d :: rest =>
    if c = first && d = second then c :: ' ' :: d :: separate first second rest
    else c :: separate first second (d :: rest)
  | text => text

/-- A text without delimiters of comments. -/
def Comment.defuse (text : List Char) : List Char :=
  Comment.separate '*' '/' (Comment.separate '/' '*' text)

/-- A comment that holds a text. -/
def Comment.display (text : String) : String :=
  "/* ??? " ++ String.ofList (Comment.defuse text.toList) ++ " */"

/-! ### Fields and methods -/

/-- Names in square brackets, or nothing for the empty list. -/
def displayTypeParameterNames : List Identifier → String
  | [] => ""
  | name :: rest => "[" ++ joined ", " ((name :: rest).map Identifier.display) ++ "]"

/-- Whether a parameter is written with a default. One that may be left out is, unless it stands for
any number of arguments: that is never missing. -/
def MethodParameter.hasDefault (parameter : MethodParameter) : Bool :=
  parameter.optional && !parameter.type.isRepeated

/-- A parameter, with its default if it has one. -/
def MethodParameter.display (parameter : MethodParameter) : String :=
  parameter.name.display ++ ": " ++ parameter.type.display
    ++ if parameter.hasDefault then " = ???" else ""

/-- Parameters in parentheses. -/
def displayMethodParameters (parameters : List MethodParameter) : String :=
  "(" ++ joined ", " (parameters.map MethodParameter.display) ++ ")"

namespace Page

/-- Writes a field. -/
def field (page : Page) (definition : Field) : Page :=
  page.line ("var " ++ definition.name.display ++ ": " ++ definition.type.display ++ " = js.native")

/-- Writes a method or a constructor. A class has a constructor without parameters anyway, so that
is not written. -/
def method (page : Page) (definition : Method) : Page :=
  if definition.name.isConstructor then
    if definition.parameters.isEmpty then page
    else page.line ("def this" ++ displayMethodParameters definition.parameters ++ " = this()")
  else
    page.line ("def " ++ definition.name.display
      ++ displayTypeParameterNames definition.typeParameters
      ++ displayMethodParameters definition.parameters ++ ": " ++ definition.result.display
      ++ " = js.native")

/-- Writes fields and methods, and passes over all else. -/
def leaves : List Definition → Page → Page
  | [], page => page
  | .field definition :: rest, page => leaves rest (page.field definition)
  | .method definition :: rest, page => leaves rest (page.method definition)
  | _ :: rest, page => leaves rest page

/-- Writes the object that gathers the fields and methods of a package. It stands for the namespace
itself, or for the global scope outside of namespaces. -/
def globals (name : Identifier) (items : List Definition) (page : Page) : Page :=
  let page := page.line "@js.native"
  let page :=
    if page.path.isEmpty then
      (page.line "@JSGlobalScope").line "object Globals extends js.Object \x7b"
    else
      (page.line ("@JSGlobal(\"" ++ joined "." page.path ++ "\")")).line
        ("object " ++ name.display ++ " extends js.Object \x7b")
  (page.indented (leaves items)).line "\x7d"

/-- Writes the imports of the JavaScript side, if the layout asks for them, and an empty line if
anything follows. -/
def header (more : Bool) (page : Page) : Page :=
  if page.layout.header then
    ((page.line "import scala.scalajs.js").line "import js.annotation._").blankIf more
  else page

/-- Writes the lines in front of the body of a class. -/
def classHead (page : Page) (name : Identifier) (typeParameters : List Identifier)
    (parents : List ScalaType) (isTrait : Bool) : Page :=
  let page := page.line "@js.native"
  let page := if isTrait then page else page.line (page.globalAnnotation name)
  page.line ((if isTrait then "trait " else "class ") ++ name.display
    ++ displayTypeParameterNames typeParameters ++ " extends "
    ++ (if parents.isEmpty then "js.Object" else joined " with " (parents.map ScalaType.display))
    ++ " \x7b")

/-- Writes the lines in front of the body of an object. -/
def objectHead (page : Page) (name : Identifier) : Page :=
  let page := page.line "@js.native"
  let page := page.line (page.globalAnnotation name)
  page.line ("object " ++ name.display ++ " extends js.Object \x7b")

/-- Writes the body of a package between the lines that open and close it. -/
def framed (name : Identifier) (isEmpty : Bool) (body : Page → Page) (page : Page) : Page :=
  let page := (page.line ("package " ++ name.display ++ " \x7b")).blank
  ((page.indented body).blankIf !isEmpty).line "\x7d"

end Page

/-! ### Packages, classes and objects -/

/-- Whether the definition belongs into the object that gathers those of its package. -/
def Definition.isGlobal : Definition → Bool
  | .field _ => true
  | .method _ => true
  | _ => false

/-- Whether the definition keeps an empty line between itself and its neighbours. -/
def Definition.isBlock : Definition → Bool
  | .comment _ => false
  | _ => true

/-- Whether an empty line stands between a definition and the one before it, if there is one. -/
def blankBefore (previous : Option Bool) (isBlock : Bool) : Bool :=
  match previous with
  | none => false
  | some previous => isBlock || previous

mutual

/-- Writes a definition. -/
def Definition.write : Definition → Page → Page
  | .comment text, page => page.line (Comment.display text)
  | .package definition, page => definition.write page
  | .class ⟨name, typeParameters, parents, isTrait, _, ⟨items, _⟩⟩, page =>
    ((page.classHead name typeParameters parents isTrait).indented fun page =>
      writeItems items page).line "\x7d"
  | .object ⟨name, _, ⟨items, _⟩⟩, page =>
    ((page.objectHead name).indented fun page => writeItems items page).line "\x7d"
  | .field definition, page => page.field definition
  | .method definition, page => page.method definition

/-- Writes a package. The root is written without a frame, below the imports. -/
def Package.write : Package → Page → Page
  | ⟨name, isNamespace, ⟨items, _⟩⟩, page =>
    -- The root is the package without a name.
    if name.isEmpty then writeBlocks name items none false items (page.header !items.isEmpty)
    else
      let framed := Page.framed name items.isEmpty fun page =>
        writeBlocks name items none false items page
      if isNamespace then page.inNamespace name.raw framed else framed page

/-- Writes the rest of a package as blocks, given all of its definitions. Remembers whether the
definition before was a block, and whether the fields and methods are written. -/
def writeBlocks (name : Identifier) (all : List Definition) (previous : Option Bool)
    (gathered : Bool) : List Definition → Page → Page
  | [], page => page
  | definition :: rest, page =>
    if definition.isGlobal && gathered then writeBlocks name all previous gathered rest page
    else
      let page := page.blankIf (blankBefore previous definition.isBlock)
      -- The first field or method stands for all of them, wherever the others are.
      let page := if definition.isGlobal then page.globals name all else definition.write page
      writeBlocks name all (some definition.isBlock) (gathered || definition.isGlobal) rest page

/-- Writes the body of a class or an object. -/
def writeItems : List Definition → Page → Page
  | [], page => page
  | definition :: rest, page => writeItems rest (definition.write page)

end

/-- A facade as Scala source. -/
def Package.render (package : Package) (layout : Layout) : String :=
  (package.write (.blankPage layout)).text

end Facade
