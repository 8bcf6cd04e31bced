import Facade.Settings.Toml.Moment

/-!
# Reading TOML

Keys, values and lines of TOML. Settings are written in pairs and table headers with strings,
integers, booleans, arrays and inline tables as values; floats, dates and times are read as well,
since they may stand where nothing looks at them.

`Toml.lines?` reads a whole text, line by line; what the pairs and headers of the lines mean
together is for `Facade.Settings` to say. An inline table is read as a whole, so its keys are known
not to be in each other's way: `Toml.apart` says what that means.
-/

set_option autoImplicit false

namespace Facade

/-- A value. The entries of an inline table have keys that may be dotted. -/
inductive Toml.Value where
  | string (text : String)
  | integer (n : Int)
  | real (value : Toml.Real)
  | boolean (b : Bool)
  | moment (moment : Toml.Moment)
  | array (items : List Toml.Value)
  | table (entries : List (List String × Toml.Value))

/-- A line that says something: a pair, the header of a table, or that of an element of an array of
tables. -/
inductive Toml.Line where
  | pair (key : List String) (value : Toml.Value)
  | table (key : List String)
  | element (key : List String)

namespace Toml

/-! ### Keys -/

/-- The characters of keys without quotes. -/
def isBare (c : Char) : Bool :=
  c.isAlphanum || c == '_' || c == '-'

/-- Reads one part of a key. -/
def simpleKey : Reader String := fun text =>
  match text with
  | '"' :: rest => (basicString rest).map fun (chars, rest) => (String.ofList chars, rest)
  | '\'' :: rest => (literalString rest).map fun (chars, rest) => (String.ofList chars, rest)
  | _ =>
    let bare := text.takeWhile isBare
    if bare.isEmpty then none else some (String.ofList bare, text.dropWhile isBare)

/-- Keys may have so many parts, and arrays and inline tables may be nested this deep. -/
def maxDepth : Nat := 79

/-- Reads a key of at most so many parts, with dots between them and blanks around each. -/
def keyWithin : Nat → Reader (List String)
  | 0, _ => none
  | n + 1, text => do
    let (part, rest) ← simpleKey (skipBlanks text)
    match skipBlanks rest with
    | '.' :: rest =>
      let (more, rest) ← keyWithin n rest
      return (part :: more, rest)
    | rest => return ([part], rest)

/-- Reads a key. -/
def key : Reader (List String) :=
  keyWithin maxDepth

/-! ### Values -/

/-- Reads a key, an equals sign and a value. -/
def pair (value : Reader Value) : Reader (List String × Value) := fun text => do
  let (key, rest) ← key text
  match rest with
  | '=' :: rest =>
    let (value, rest) ← value (skipBlanks rest)
    return ((key, value), rest)
  | _ => none

/-- Reads the items of an array, behind its opening bracket or a comma. Takes at most as many items
as the text has characters. -/
def arrayItems (value : Reader Value) : Nat → Reader (List Value)
  | 0, _ => none
  | n + 1, text =>
    match skipLines .space text with
    -- An array may end behind a comma, which an inline table may not.
    | ']' :: rest => some ([], rest)
    | text => do
      let (first, rest) ← value text
      match skipLines .space rest with
      | ',' :: rest =>
        let (more, rest) ← arrayItems value n rest
        return (first :: more, rest)
      | ']' :: rest => return ([first], rest)
      | _ => none

/-- Reads the entries of an inline table, behind its opening brace or a comma. Takes at most as many
entries as the text has characters. -/
def tableEntries (value : Reader Value) : Nat → Reader (List (List String × Value))
  | 0, _ => none
  | n + 1, text => do
    let (first, rest) ← pair value text
    match skipBlanks rest with
    | ',' :: rest =>
      let (more, rest) ← tableEntries value n rest
      return (first :: more, rest)
    | '}' :: rest => return ([first], rest)
    | _ => none

/-- Whether no key is another one or the beginning of another: what has a value takes no second one,
and no parts of its own. -/
def apart : List (List String) → Bool
  | [] => true
  | key :: rest =>
    rest.all (fun other => !key.isPrefixOf other && !other.isPrefixOf key) && apart rest

/-- Reads a value without a level of its own. -/
def scalar : Reader Value
  | 't' :: 'r' :: 'u' :: 'e' :: rest => some (.boolean true, rest)
  | 'f' :: 'a' :: 'l' :: 's' :: 'e' :: rest => some (.boolean false, rest)
  | text =>
    -- A date and a float start like an integer, so integers are tried last.
    match string text, moment text, real text with
    | some (text, rest), _, _ => some (.string text, rest)
    | none, some (moment, rest), _ => some (.moment moment, rest)
    | none, none, some (value, rest) => some (.real value, rest)
    | none, none, none => (integer text).map fun (n, rest) => (.integer n, rest)

/-- Reads a value that has at most so many levels of arrays and inline tables. -/
def valueWithin : Nat → Reader Value
  | 0, text => scalar text
  | depth + 1, text =>
    match text with
    | '[' :: rest =>
      (arrayItems (valueWithin depth) text.length rest).map fun (items, rest) =>
        (.array items, rest)
    | '{' :: rest =>
      match skipBlanks rest with
      | '}' :: rest => some (.table [], rest)
      | rest =>
        match tableEntries (valueWithin depth) text.length rest with
        | some (entries, rest) =>
          if apart (entries.map (·.1)) then some (.table entries, rest) else none
        | none => none
    | _ => scalar text

/-! ### Lines -/

/-- Reads a header or a pair, with the end of its line. -/
def line : Reader Line
  | '[' :: '[' :: rest => do
    let (key, rest) ← key rest
    match rest with
    | ']' :: ']' :: rest => return (.element key, ← afterLine? rest)
    | _ => none
  | '[' :: rest => do
    let (key, rest) ← key rest
    match rest with
    | ']' :: rest => return (.table key, ← afterLine? rest)
    | _ => none
  | text => do
    let ((key, value), rest) ← pair (valueWithin maxDepth) text
    return (.pair key value, ← afterLine? rest)

/-- Reads lines to the end of the text, at most so many. -/
def linesWithin : Nat → List Char → Option (List Line)
  | 0, _ => none
  | n + 1, text =>
    match skipLines .space text with
    | [] => some []
    | text => do
      let (first, rest) ← line text
      return first :: (← linesWithin n rest)

/-- Reads all lines of a text, which may start with a byte order mark. -/
def lines? (text : String) : Option (List Line) :=
  let chars :=
    match text.toList with
    | '\uFEFF' :: rest => rest
    | chars => chars
  linesWithin (chars.length + 1) chars

end Toml

end Facade
