import Facade.Proofs.Text.Slice
import Facade.Token.Scan

/-!
# A scanner that checks what it cuts

The scanner walks over a text by an offset in bytes, and looks at what is left of the text by
cutting it there. A cut that does not fall between two characters, or lies outside of the text, is
a failure that no caller can handle, and so is a loop that does not end. Here every cut is checked
(`slice?`) and every loop counts its rounds (`loop`); `none` stands for either failure.

`tokenize` answers a list of cells, one for each token and one for the end of the text.
-/

set_option autoImplicit false

namespace Facade.Checked

open Facade.Text

/-! ### Checks -/

/-- The part of a text between two offsets, which have to be in order and on boundaries. -/
def slice? (text : List Char) (start stop : Nat) : Option (List Char) :=
  if start ≤ stop ∧ IsBoundary text start ∧ IsBoundary text stop then some (slice text start stop)
  else none

-- The letter takes two bytes, and no cut falls between them.
example : slice? ['é', 'a'] 1 3 = none := by decide

/-- Goes round until the body answers, but not more often than a number of times. -/
def loop {m : Type → Type} [Monad m] {σ α : Type} (stuck : m α) (body : σ → m (σ ⊕ α)) :
    Nat → σ → m α
  | 0, _ => stuck
  | rounds + 1, state => do
    match ← body state with
    | .inl next => loop stuck body rounds next
    | .inr answer => pure answer

/-! ### The scanner -/

section

variable (text : List Char)

/-- What is left of the text. -/
def rest? (pos : Nat) : Option (List Char) :=
  slice? text pos (byteLength text)

/-- The next character. -/
def peek? (pos : Nat) : Option (Option Char) :=
  (rest? text pos).map List.head?

/-- The character behind the next. -/
def second? (pos : Nat) : Option (Option Char) :=
  (rest? text pos).map fun rest => rest.tail.head?

/-- Walks over one character that passes a test. -/
def advanceOne (test : Char → Bool) (pos : Nat) : Option (Nat ⊕ Nat) := do
  match ← peek? text pos with
  | some c => return if test c then .inl (pos + c.utf8Size) else .inr pos
  | none => return .inr pos

/-- Walks over the characters that pass a test. -/
def advanceWhile (test : Char → Bool) : Nat → Option Nat :=
  loop none (advanceOne text test) (text.length + 1)

/-- The offset of the first end of a comment. -/
def findClose : List Char → Option Nat
  | [] => none
  | '*' :: '/' :: _ => some 0
  | c :: rest => (findClose rest).map (c.utf8Size + ·)

/-- Walks over one blank character, or one comment. -/
def skipOne (pos : Nat) : Option (Nat ⊕ Except ScanError Nat) := do
  match ← peek? text pos with
  | none => return .inr (.ok pos)
  | some c =>
    if isBlank c || c == '\uFEFF' then
      return .inl (pos + c.utf8Size)
    else if c = '/' ∧ (← second? text pos) = some '/' then
      return .inl (← advanceWhile text (· != '\n') pos)
    else if c = '/' ∧ (← second? text pos) = some '*' then
      match findClose (← rest? text (pos + 2)) with
      | some behind => return .inl (pos + 2 + behind + 2)
      | none => return .inr (.error ⟨.unclosedComment, pos⟩)
    else
      return .inr (.ok pos)

/-- Walks over blank space and comments. -/
def skipTrivia : Nat → Option (Except ScanError Nat) :=
  loop none (skipOne text) (text.length + 1)

/-- Takes one character of a string, or an escape. -/
def readOne (quote : Char) (start : Nat) :
    Nat × List Char → Option ((Nat × List Char) ⊕ Except ScanError (List Char × Nat))
  | (pos, chars) => do
    match ← peek? text pos with
    | none => return .inr (.error ⟨.unclosedString, start⟩)
    | some c =>
      if c = '\\' then
        match ← peek? text (pos + 1) with
        | some escaped =>
          return .inl (pos + 1 + escaped.utf8Size, chars ++ Cursor.unescape escaped)
        | none => return .inr (.error ⟨.unclosedString, start⟩)
      else if c = '\n' then return .inr (.error ⟨.unclosedString, start⟩)
      else if c = quote then return .inr (.ok (chars, pos + c.utf8Size))
      else return .inl (pos + c.utf8Size, chars ++ [c])

/-- Reads a string behind its opening quote. -/
def readString (quote : Char) (start pos : Nat) : Option (Except ScanError (List Char × Nat)) :=
  loop none (readOne text quote start) (text.length + 1) (pos, [])

/-- Whether the next character is a digit. -/
def digitAt? (pos : Nat) : Option Bool := do
  return (← peek? text pos).any Char.isDigit

/-- Walks over a point and the digits behind it, if there are any. -/
def readFraction (pos : Nat) : Option Nat := do
  if (← peek? text pos) = some '.' ∧ (← second? text pos).any Char.isDigit then
    advanceWhile text Char.isDigit (pos + 1)
  else return pos

/-- Walks over a sign, if there is one. -/
def readSign (pos : Nat) : Option Nat := do
  let sign ← peek? text pos
  return if sign = some '+' ∨ sign = some '-' then pos + 1 else pos

/-- Walks over an exponent, or goes back to where it starts if it has no digits. -/
def readExponent (pos : Nat) : Option Nat := do
  let first ← peek? text pos
  if first = some 'e' ∨ first = some 'E' then
    let behind ← readSign text (pos + 1)
    if (← digitAt? text behind) then advanceWhile text Char.isDigit behind else return pos
  else return pos

/-- Walks over a number. -/
def passNumber (start : Nat) : Option Nat := do
  let rest ← rest? text start
  if ['0', 'x'] <+: rest ∨ ['0', 'X'] <+: rest then
    advanceWhile text Cursor.isHexDigit (start + 2)
  else
    let pos ← advanceWhile text Char.isDigit start
    readExponent text (← readFraction text pos)

/-- Reads a number. -/
def readNumber (start : Nat) : Option (List Char × Nat) := do
  let pos ← passNumber text start
  return (← slice? text start pos, pos)

/-- Reads a word. -/
def readWord (start : Nat) : Option (List Char × Nat) := do
  let pos ← advanceWhile text continuesWord start
  return (← slice? text start pos, pos)

end

/-- A token as a list of tokens keeps it that has one more for the end of the text. -/
structure Cell where
  kind : Option Lexeme
  start : Nat
  stop : Nat

/-- The cell of a token. -/
def Cell.ofToken (token : Token) : Cell :=
  ⟨some token.lexeme, token.start, token.stop⟩

/-- The cell of the end of a text. -/
def Cell.atEnd (stop : Nat) : Cell :=
  ⟨none, stop, stop⟩

/-- Takes the token that starts with a character. -/
def readToken (text : List Char) (start : Nat) (c : Char) :
    Option (Except ScanError (Lexeme × Nat)) := do
  if c = '"' ∨ c = '\'' then
    return (← readString text c start (start + c.utf8Size)).map fun (chars, pos) =>
      (.string (String.ofList chars), pos)
  else if c.isDigit ∨ (c = '.' ∧ (← second? text start).any Char.isDigit) then
    let (chars, pos) ← readNumber text start
    return .ok (.number (String.ofList chars), pos)
  else if startsWord c then
    let (chars, pos) ← readWord text start
    return .ok (Cursor.wordLexeme (String.ofList chars), pos)
  else
    match Mark.leading? (← rest? text start) with
    | some mark => return .ok (.mark mark, start + byteLength mark.chars)
    | none => return .error ⟨.strayCharacter c, start⟩

/-- Skips blank space and comments, and takes one token. -/
def nextToken (text : List Char) (pos : Nat) : Option (Except ScanError (Cell × Nat)) := do
  match ← skipTrivia text pos with
  | .error error => return .error error
  | .ok start =>
    match ← peek? text start with
    | none => return .ok (.atEnd start, start)
    | some c =>
      return (← readToken text start c).map fun (lexeme, pos) => (⟨some lexeme, start, pos⟩, pos)

/-- Takes one more token, and ends behind the end of the text. -/
def tokenizeOne (text : List Char) :
    Nat × List Cell → Option ((Nat × List Cell) ⊕ Except ScanError (List Cell))
  | (pos, cells) => do
    match ← nextToken text pos with
    | .error error => return .inr (.error error)
    | .ok (cell, pos) =>
      return if cell.kind = none then .inr (.ok (cells ++ [cell])) else .inl (pos, cells ++ [cell])

/-- All tokens of a text, with the end of the text behind them. -/
def tokenize (text : List Char) : Option (Except ScanError (List Cell)) :=
  loop none (tokenizeOne text) (text.length + 1) (0, [])

end Facade.Checked
