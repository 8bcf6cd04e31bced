import Facade.Definition.Render
import Facade.Translation.Document

/-!
# From text to text

The whole way of a declaration file: it is read, its declarations become a facade, and the facade is
rendered. Only reading can fail; whatever is lost after that is noted.
-/

set_option autoImplicit false

namespace Facade

/-- A facade as Scala source, with what was lost on the way to it: dots of rest parameters, while
reading, and all other losses. -/
structure Translation where
  code : String
  warnings : List Warning
  lost : List LostRest

/-- Translates a document under an output path. -/
def Document.translate (document : Document) (path : DottedName) (layout : Layout) :
    Translation :=
  let facade := document.toPackage path
  ⟨facade.value.render layout, facade.warnings, document.lost⟩

/-- Translates the text of a declaration file under an output path. -/
def translate (text : String) (path : DottedName) (layout : Layout) :
    Except SyntaxError Translation :=
  match Document.ofText text with
  | .ok document => .ok (document.translate path layout)
  | .error error => .error error

end Facade
