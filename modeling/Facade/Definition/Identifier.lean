import Facade.Text.Joined
import Facade.Text.Letter

/-!
# Names in facades

An `Identifier` is a name as it is in JavaScript, whatever its characters. `Identifier.display`
writes it for Scala: as it is if it is plain there, and between backquotes otherwise. A backquoted
name cannot hold a backquote, so each becomes an underscore, and only a name that holds one is
changed for good; `Identifier.ofDisplay` reads any other back.

A `DottedName` is a path of identifiers. The empty path is the root of all packages.
-/

set_option autoImplicit false

namespace Facade

open Facade.Text

/-- A name, by its characters. -/
structure Identifier where
  raw : String
deriving DecidableEq

namespace Identifier

/-- The words that Scala reserves. -/
def reserved : List String :=
  ["abstract", "case", "catch", "class", "def", "do", "else", "enum", "export", "extends",
   "false", "final", "finally", "for", "forSome", "given", "if", "implicit", "import", "lazy",
   "macro", "match", "new", "null", "object", "override", "package", "private", "protected",
   "return", "sealed", "super", "then", "this", "throw", "trait", "true", "try", "type", "val",
   "var", "while", "with", "yield", "_"]

/-- The name of the methods through which a value itself is called. -/
def apply : Identifier := ⟨"apply"⟩

/-- The name of constructors. No word is spelled like it, but a string may be. -/
def constructor : Identifier := ⟨"<init>"⟩

/-- Whether the name is that of constructors. -/
def isConstructor (name : Identifier) : Bool :=
  name == constructor

/-- Whether the name is empty. -/
def isEmpty (name : Identifier) : Bool :=
  name.raw == ""

/-- Whether the characters are those of a word. -/
def isWord : List Char → Bool
  | [] => false
  | first :: rest => startsWord first && rest.all continuesWord

/-- Whether Scala takes the name as it is. -/
def isPlain (name : Identifier) : Bool :=
  isWord name.raw.toList && !reserved.contains name.raw

/-- Stands in for a backquote. -/
def withoutBackquote (c : Char) : Char :=
  if c = '`' then '_' else c

/-- The name as Scala reads it. -/
def display (name : Identifier) : String :=
  if name.isPlain then name.raw
  else "`" ++ String.ofList (name.raw.toList.map withoutBackquote) ++ "`"

/-- The characters between a backquote at the front and one at the end, if there are any. -/
def betweenBackquotes? : List Char → Option (List Char)
  | '`' :: rest =>
    if rest.length ≥ 2 && rest.getLast? == some '`' then some rest.dropLast else none
  | _ => none

/-- Reads a name as it is written in Scala. -/
def ofDisplay (text : String) : Identifier :=
  match betweenBackquotes? text.toList with
  | some inner => ⟨String.ofList inner⟩
  | none => ⟨text⟩

end Identifier

/-- A path of names from the root of all packages. -/
structure DottedName where
  segments : List Identifier
deriving DecidableEq

namespace DottedName

/-- The empty path. -/
def root : DottedName := ⟨[]⟩

/-- Whether the path is empty. -/
def isRoot (name : DottedName) : Bool :=
  name.segments.isEmpty

/-- A path of one name. -/
def single (name : Identifier) : DottedName := ⟨[name]⟩

/-- The path one name further. -/
def dot (path : DottedName) (name : Identifier) : DottedName :=
  ⟨path.segments ++ [name]⟩

/-- The path without its last name, and that name. The root has none. -/
def split? (path : DottedName) : Option (DottedName × Identifier) :=
  path.segments.getLast?.map fun last => (⟨path.segments.dropLast⟩, last)

/-- The parts of a text between its dots. -/
def parts : List Char → List (List Char)
  | [] => [[]]
  | c :: rest =>
    if c = '.' then [] :: parts rest
    else match parts rest with
      | [] => [[c]]
      | part :: more => (c :: part) :: more

/-- Reads a path. Blank space around a name does not count, and neither do empty names. -/
def ofText (text : String) : DottedName :=
  ⟨(((parts text.toList).map trimBlanks).filter (· ≠ [])).map fun part => ⟨String.ofList part⟩⟩

/-- The path as Scala reads it. -/
def display (path : DottedName) : String :=
  joined "." (path.segments.map Identifier.display)

/-- The last name of a path is split off again. -/
@[simp] theorem split?_dot (path : DottedName) (name : Identifier) :
    (path.dot name).split? = some (path, name) := by
  simp [split?, dot]

end DottedName

end Facade
