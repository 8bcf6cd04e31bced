import Facade.Definition.ScalaType

/-!
# The page that a facade is written on

A `Page` is the text written so far, together with what the next line depends on: how deep it is
nested, and which namespaces of the JavaScript side it is in. `indented` and `inNamespace` write a
part of the page one level deeper and come up again behind it; `leave_enter` and
`leaveNamespace_enterNamespace` say that coming up undoes going down.
-/

set_option autoImplicit false

namespace Facade

open Facade.Text (joined)

/-- How a facade is laid out: the spaces for each level of nesting, and whether the imports of the
JavaScript side stand on top. -/
structure Layout where
  indent : Nat
  header : Bool
deriving DecidableEq

/-- Two spaces for each level, and imports on top. -/
def Layout.standard : Layout := ⟨2, true⟩

/-- A text in the making. -/
structure Page where
  layout : Layout
  depth : Nat
  /-- The namespaces around the next line, the outermost first. -/
  path : List String
  text : String

namespace Page

/-- A page with nothing on it. -/
def blankPage (layout : Layout) : Page := ⟨layout, 0, [], ""⟩

/-- The spaces in front of a line. -/
def margin (page : Page) : String :=
  String.ofList (List.replicate (page.depth * page.layout.indent) ' ')

/-- Writes a line. -/
def line (page : Page) (content : String) : Page :=
  { page with text := page.text ++ page.margin ++ content ++ "\n" }

/-- Leaves a line empty. -/
def blank (page : Page) : Page :=
  { page with text := page.text ++ "\n" }

/-- Leaves a line empty under a condition. -/
def blankIf (condition : Bool) (page : Page) : Page :=
  if condition then page.blank else page

/-- Goes one level deeper. -/
def enter (page : Page) : Page :=
  { page with depth := page.depth + 1 }

/-- Comes one level up. -/
def leave (page : Page) : Page :=
  { page with depth := page.depth - 1 }

/-- Goes into a namespace. -/
def enterNamespace (name : String) (page : Page) : Page :=
  { page with path := page.path ++ [name] }

/-- Comes out of a namespace. -/
def leaveNamespace (page : Page) : Page :=
  { page with path := page.path.dropLast }

/-- Writes a part of the page one level deeper. -/
def indented (part : Page → Page) (page : Page) : Page :=
  (part page.enter).leave

/-- Writes a part of the page inside a namespace. -/
def inNamespace (name : String) (part : Page → Page) (page : Page) : Page :=
  (part (page.enterNamespace name)).leaveNamespace

/-- What is entered is left again. -/
@[simp] theorem leave_enter (page : Page) : page.enter.leave = page := rfl

/-- So is a namespace. -/
@[simp] theorem leaveNamespace_enterNamespace (name : String) (page : Page) :
    (page.enterNamespace name).leaveNamespace = page := by
  simp [enterNamespace, leaveNamespace]

/-- The annotation of what stands for a value of the JavaScript side: the path of that value, which
is not written for a global value under its own name. -/
def globalAnnotation (page : Page) (name : Identifier) : String :=
  if page.path.isEmpty then "@JSGlobal"
  else "@JSGlobal(\"" ++ joined "." page.path ++ "." ++ name.raw ++ "\")"

end Page

end Facade
