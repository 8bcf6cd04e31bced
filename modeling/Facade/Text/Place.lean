import Facade.Text.Utf8

/-!
# Lines and columns

A place in a text as people count it: lines from one, columns from one, a column per character.
Only the line feed ends a line; a carriage return is a character like any other. `Place.ofByte`
finds the place of a byte offset by walking the characters before it, so an offset past the end
stands for the end.
-/

set_option autoImplicit false

namespace Facade.Text

/-- A line and a column, both counted from one. -/
structure Place where
  line : Nat
  column : Nat
deriving DecidableEq

namespace Place

/-- Where every text starts. -/
def first : Place := ⟨1, 1⟩

/-- The place behind a character that stands at this place. -/
def after (place : Place) (c : Char) : Place :=
  if c = '\n' then ⟨place.line + 1, 1⟩ else ⟨place.line, place.column + 1⟩

/-- The place behind a run of characters that starts at this place. -/
def afterAll (place : Place) (run : List Char) : Place :=
  run.foldl after place

/-- The place of a byte offset of a text. -/
def ofByte (text : List Char) (offset : Nat) : Place :=
  first.afterAll (upToByte offset text)

/-- A message about what stands at the place. -/
def report (place : Place) (message : String) : String :=
  "parse error at " ++ toString place.line ++ ":" ++ toString place.column ++ ": " ++ message

/-- Behind two runs of characters is the place behind the second, from that behind the first on. -/
@[simp] theorem afterAll_append (place : Place) (s t : List Char) :
    place.afterAll (s ++ t) = (place.afterAll s).afterAll t :=
  List.foldl_append

end Place

end Facade.Text
