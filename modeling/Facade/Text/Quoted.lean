import Facade.Text.PrintableTable

/-!
# Quoted texts

The form in which a text is shown between double quotes. Five control characters and the two
characters that would be misread get a short escape; whatever does not print by itself, or would
draw onto the character before it, is shown by its code point in braces. `Quoted.encode_append`
says that the form is built character by character, so what one character needs never depends on
its neighbours.
-/

set_option autoImplicit false

namespace Facade.Text.Quoted

/-- Characters that are shown by their code point: unless it is plain ASCII, a character must
print by itself, must leave a mark and must not extend the one before it. -/
def needsCodePoint (c : Char) : Bool :=
  if 0x20 ≤ c.toNat && c.toNat < 0x7F then false
  else extendingRanges.has c || unprintableRanges.has c || ignorableRanges.has c

/-- The code point in lower-case hexadecimal digits, as `\u` and braces. -/
def codePoint (c : Char) : List Char :=
  ['\\', 'u', '{'] ++ Nat.toDigits 16 c.toNat ++ ['}']

/-- How one character is shown. -/
def encodeChar (c : Char) : List Char :=
  match c with
  | '"' => ['\\', '"']
  | '\\' => ['\\', '\\']
  | '\t' => ['\\', 't']
  | '\r' => ['\\', 'r']
  | '\n' => ['\\', 'n']
  | '\x00' => ['\\', '0']
  | c => if needsCodePoint c then codePoint c else [c]

/-- How a run of characters is shown, without the quotes around it. -/
def encode (text : List Char) : List Char :=
  text.flatMap encodeChar

/-- Texts one behind the other are quoted one behind the other. -/
@[simp] theorem encode_append (s t : List Char) : encode (s ++ t) = encode s ++ encode t :=
  List.flatMap_append

end Facade.Text.Quoted

namespace Facade.Text

/-- A text between double quotes, with everything that would be misread escaped. -/
def quoted (text : String) : String :=
  String.ofList ('"' :: Quoted.encode text.toList ++ ['"'])

end Facade.Text
