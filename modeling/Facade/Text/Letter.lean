import Facade.Text.LetterTable

/-!
# The characters of words and of blank space

Which characters are letters, which may continue a word, and which are blank, over all of Unicode.
A word, in declarations as in facades, starts with a letter, `_` or `$`, and goes on with those
and with numbers of every kind. ASCII is decided without a look at the tables.
`continuesWord_of_startsWord` says that a word's first character could also stand later in it.
-/

set_option autoImplicit false

namespace Facade.Text

/-- A character with the property `Alphabetic`. -/
def isLetter (c : Char) : Bool :=
  if c.toNat < 0x80 then c.isAlpha else alphabeticRanges.has c

/-- A character of the general category N. -/
def isNumeral (c : Char) : Bool :=
  if c.toNat < 0x80 then c.isDigit else numericRanges.has c

/-- The characters a word may start with. -/
def startsWord (c : Char) : Bool :=
  isLetter c || c == '_' || c == '$'

/-- The characters a word may go on with. -/
def continuesWord (c : Char) : Bool :=
  isLetter c || isNumeral c || c == '_' || c == '$'

/-- A character with the property `White_Space`: 25 characters, the line feed and the carriage
return among them. -/
def isBlank (c : Char) : Bool :=
  let n := c.toNat
  (9 ≤ n && n ≤ 13) || n == 0x20 || n == 0x85 || n == 0xA0 || n == 0x1680
    || (0x2000 ≤ n && n ≤ 0x200A) || n == 0x2028 || n == 0x2029 || n == 0x202F
    || n == 0x205F || n == 0x3000

/-- A text without the blank characters at its two ends. -/
def trimBlanks (text : List Char) : List Char :=
  ((text.dropWhile isBlank).reverse.dropWhile isBlank).reverse

/-- What starts a word may also continue it. -/
theorem continuesWord_of_startsWord {c : Char} (h : startsWord c = true) :
    continuesWord c = true := by
  simp only [startsWord, continuesWord, Bool.or_eq_true] at h ⊢
  rcases h with (h | h) | h
  · exact .inl (.inl (.inl h))
  · exact .inl (.inr h)
  · exact .inr h

end Facade.Text
