/-!
# Blank space and strings of TOML

The readers of the smallest parts of TOML. A reader takes what it reads off the front of a list of
characters and answers with the value and the rest, or with nothing. Blank space, comments and line
ends are skipped by functions that cannot fail; strings come in four kinds, with one or three
quotes, double or single.
-/

set_option autoImplicit false

namespace Facade.Toml

/-- A reader takes a value off the front of a text, or fails. -/
abbrev Reader (α : Type) := List Char → Option (α × List Char)

/-! ### Blank space -/

/-- Whether a character is a space or a tab. -/
def isBlank (c : Char) : Bool :=
  c == ' ' || c == '\t'

/-- A text without the spaces and tabs in front. -/
def skipBlanks (text : List Char) : List Char :=
  text.dropWhile isBlank

/-- The text behind a line feed, which a carriage return may precede. -/
def afterNewline? : List Char → Option (List Char)
  | '\n' :: rest => some rest
  | '\r' :: '\n' :: rest => some rest
  | _ => none

/-- Control characters other than the tab may stand nowhere but at the end of a line. -/
def isText (c : Char) : Bool :=
  c == '\t' || (0x20 ≤ c.toNat && c.toNat ≠ 0x7F)

/-- The text behind a comment, if one stands here. -/
def skipComment : List Char → List Char
  | '#' :: rest => rest.dropWhile isText
  | text => text

/-- The text behind blanks, a comment, and the end of the line or of the text. -/
def afterLine? (text : List Char) : Option (List Char) :=
  match skipComment (skipBlanks text) with
  | [] => some []
  | rest => afterNewline? rest

/-- What a walk over blanks, comments and line ends is inside of. -/
inductive Gap where
  | space
  | comment

/-- The text behind any blanks, comments and line ends. -/
def skipLines : Gap → List Char → List Char
  | _, [] => []
  | .space, '\r' :: '\n' :: rest => skipLines .space rest
  | .space, c :: rest =>
    if isBlank c || c == '\n' then skipLines .space rest
    else if c == '#' then skipLines .comment rest
    else c :: rest
  | .comment, '\r' :: '\n' :: rest => skipLines .space rest
  | .comment, c :: rest =>
    if c == '\n' then skipLines .space rest
    else if isText c then skipLines .comment rest
    else c :: rest

/-! ### Strings -/

/-- The value of a digit in a base. -/
def digit? (base : Nat) (c : Char) : Option Nat :=
  let value :=
    if c.isDigit then c.toNat - '0'.toNat
    else if 'a' ≤ c && c ≤ 'f' then c.toNat - 'a'.toNat + 10
    else if 'A' ≤ c && c ≤ 'F' then c.toNat - 'A'.toNat + 10
    else base
  if value < base then some value else none

/-- The number that the values of digits in a base make up. -/
def numeral (base : Nat) (digits : List Nat) : Nat :=
  digits.foldl (fun n digit => n * base + digit) 0

/-- The character that hexadecimal digits stand for. -/
def codePoint? (digits : List Char) : Option Char :=
  match digits.mapM (digit? 16) with
  | none => none
  | some values =>
    if (numeral 16 values).isValidChar then some (Char.ofNat (numeral 16 values)) else none

/-- The character that a letter behind a backslash stands for. -/
def escape? : Char → Option Char
  | 'b' => some '\x08'
  | 't' => some '\t'
  | 'n' => some '\n'
  | 'f' => some '\x0c'
  | 'r' => some '\r'
  | '"' => some '"'
  | '\\' => some '\\'
  | _ => none

/-- Puts a character in front of what a reader took. -/
def prepend (c : Char) : Option (List Char × List Char) → Option (List Char × List Char)
  | none => none
  | some (text, rest) => some (c :: text, rest)

/-- Puts a character in front of what a reader took, if there is one. -/
def prepend? : Option Char → Option (List Char × List Char) → Option (List Char × List Char)
  | none, _ => none
  | some c, taken => prepend c taken

/-- Reads a string in double quotes, behind the first of them. -/
def basicString : Reader (List Char)
  | '"' :: rest => some ([], rest)
  | '\\' :: 'u' :: a :: b :: c :: d :: rest =>
    prepend? (codePoint? [a, b, c, d]) (basicString rest)
  | '\\' :: 'U' :: a :: b :: c :: d :: e :: f :: g :: h :: rest =>
    prepend? (codePoint? [a, b, c, d, e, f, g, h]) (basicString rest)
  | '\\' :: c :: rest => prepend? (escape? c) (basicString rest)
  | c :: rest => if isText c && c != '\\' then prepend c (basicString rest) else none
  | [] => none

/-- Reads a string in single quotes, behind the first of them. -/
def literalString : Reader (List Char)
  | '\'' :: rest => some ([], rest)
  | c :: rest => if isText c then prepend c (literalString rest) else none
  | [] => none

/-- Whether a backslash in front of the text ends its line. -/
def endsLine (text : List Char) : Bool :=
  (afterNewline? (skipBlanks text)).isSome

/-- Reads a string in three double quotes, behind the first three. Up to two quotes may stand before
the last three. A backslash at the end of a line takes away all blanks and line ends behind it;
`trimming` is on as long as it does. -/
def multilineBasicString (trimming : Bool) : Reader (List Char)
  | '"' :: '"' :: '"' :: '"' :: '"' :: rest => some (['"', '"'], rest)
  | '"' :: '"' :: '"' :: '"' :: rest => some (['"'], rest)
  | '"' :: '"' :: '"' :: rest => some ([], rest)
  | '\r' :: '\n' :: rest =>
    if trimming then multilineBasicString true rest
    else prepend '\n' (multilineBasicString false rest)
  | '\\' :: 'u' :: a :: b :: c :: d :: rest =>
    prepend? (codePoint? [a, b, c, d]) (multilineBasicString false rest)
  | '\\' :: 'U' :: a :: b :: c :: d :: e :: f :: g :: h :: rest =>
    prepend? (codePoint? [a, b, c, d, e, f, g, h]) (multilineBasicString false rest)
  | '\\' :: c :: rest =>
    if endsLine (c :: rest) then
      if c == '\r' then multilineBasicString true (c :: rest) else multilineBasicString true rest
    else prepend? (escape? c) (multilineBasicString false rest)
  | c :: rest =>
    if c == '\n' || isBlank c then
      if trimming then multilineBasicString true rest
      else prepend c (multilineBasicString false rest)
    else if isText c && c != '\\' then prepend c (multilineBasicString false rest)
    else none
  | [] => none

/-- Reads a string in three single quotes, behind the first three. Up to two quotes may stand before
the last three. -/
def multilineLiteralString : Reader (List Char)
  | '\'' :: '\'' :: '\'' :: '\'' :: '\'' :: rest => some (['\'', '\''], rest)
  | '\'' :: '\'' :: '\'' :: '\'' :: rest => some (['\''], rest)
  | '\'' :: '\'' :: '\'' :: rest => some ([], rest)
  | '\r' :: '\n' :: rest => prepend '\n' (multilineLiteralString rest)
  | c :: rest => if c == '\n' || isText c then prepend c (multilineLiteralString rest) else none
  | [] => none

/-- A text without a line end at its front, which does not belong to a string in three quotes. -/
def dropNewline (text : List Char) : List Char :=
  (afterNewline? text).getD text

/-- Reads a string of any of the four kinds. -/
def string : Reader String := fun text =>
  let taken :=
    match text with
    | '"' :: '"' :: '"' :: rest => multilineBasicString false (dropNewline rest)
    | '"' :: rest => basicString rest
    | '\'' :: '\'' :: '\'' :: rest => multilineLiteralString (dropNewline rest)
    | '\'' :: rest => literalString rest
    | _ => none
  taken.map fun (chars, rest) => (String.ofList chars, rest)

end Facade.Toml
