import Facade.Settings.Toml.Text

/-!
# Numbers of TOML

Integers and floats. An integer has 64 bits with a sign. A float stays the decimal that is written,
because no setting takes one; what matters is only whether it is one, and for that it must not be
greater than all floats of 64 bits. `exceedsFloats` decides this without ever computing a power of
ten that is much longer than the decimal itself.
-/

set_option autoImplicit false

namespace Facade.Toml

/-! ### Digits -/

/-- Reads further digits of a number in a base. An underscore may stand between two digits. -/
def moreDigits (base : Nat) : List Char → List Nat × List Char
  | [] => ([], [])
  | ['_'] => ([], ['_'])
  | '_' :: c :: rest =>
    match digit? base c with
    | some d =>
      let (more, rest) := moreDigits base rest
      (d :: more, rest)
    | none => ([], '_' :: c :: rest)
  | c :: rest =>
    match digit? base c with
    | some d =>
      let (more, rest) := moreDigits base rest
      (d :: more, rest)
    | none => ([], c :: rest)

/-- Reads digits in a base. -/
def digits (base : Nat) : Reader (List Nat)
  | [] => none
  | c :: rest =>
    (digit? base c).map fun d =>
      let (more, rest) := moreDigits base rest
      (d :: more, rest)

/-- Reads the digits of a decimal number, which starts with zero only if it is zero. -/
def wholeDigits : Reader (List Nat)
  | '0' :: rest => some ([0], rest)
  | text => digits 10 text

/-- Whether a minus stands in front, and the text behind it or a plus. -/
def sign : List Char → Bool × List Char
  | '+' :: rest => (false, rest)
  | '-' :: rest => (true, rest)
  | text => (false, text)

/-- A number with the sign in front of it. -/
def signed (negative : Bool) (n : Nat) : Int :=
  if negative then -n else n

/-! ### Integers -/

/-- The integers are those of 64 bits with a sign. -/
def inRange (n : Int) : Bool :=
  -9223372036854775808 ≤ n && n ≤ 9223372036854775807

/-- Reads an integer. Only a decimal one may have a sign. -/
def integer : Reader Int := fun text =>
  let inBase (base : Nat) (rest : List Char) : Option (Int × List Char) :=
    (digits base rest).map fun (digits, rest) => (numeral base digits, rest)
  let taken : Option (Int × List Char) :=
    match text with
    | '0' :: 'x' :: rest => inBase 16 rest
    | '0' :: 'o' :: rest => inBase 8 rest
    | '0' :: 'b' :: rest => inBase 2 rest
    | _ =>
      let (negative, rest) := sign text
      (wholeDigits rest).map fun (digits, rest) => (signed negative (numeral 10 digits), rest)
  taken.filter fun (n, _) => inRange n

/-! ### Floats -/

/-- A float: some digits and a power of ten to multiply them with, or one of those that have no
digits. -/
inductive Real where
  | decimal (negative : Bool) (digits : Nat) (exponent : Int)
  | infinity (negative : Bool)
  | notANumber

/-- The least number that is nearer to the power of two behind the greatest float of 64 bits than to
that float, or as near. -/
def floatBound : Nat :=
  (Nat.pow 2 54 - 1) * Nat.pow 2 970

/-- The decimal digits of `floatBound`. -/
def floatBoundLength : Nat := 309

/-- Whether some digits times a power of ten are at least `floatBound`. Numbers with fewer digits in
front of the point are smaller, and those with more are greater. -/
def exceedsFloats (digits : Nat) (exponent : Int) : Bool :=
  let length : Int := (Nat.toDigits 10 digits).length + exponent
  if digits = 0 then false
  else if length ≠ floatBoundLength then floatBoundLength < length
  else floatBound * Nat.pow 10 (-exponent).toNat ≤ digits * Nat.pow 10 exponent.toNat

/-- Reads the digits behind the point. -/
def fraction : Reader (List Nat)
  | '.' :: rest => digits 10 rest
  | _ => none

/-- Reads the letter of an exponent and the exponent. -/
def exponent : Reader Int
  | [] => none
  | c :: rest =>
    if c == 'e' || c == 'E' then
      let (negative, rest) := sign rest
      (digits 10 rest).map fun (digits, rest) => (signed negative (numeral 10 digits), rest)
    else none

/-- Reads a decimal that has digits behind the point, an exponent, or both. Only one without a minus
can be too great. -/
def decimal : Reader Real := fun text => do
  let (negative, rest) := sign text
  let (whole, rest) ← wholeDigits rest
  let (places, power, rest) ←
    match fraction rest with
    | some (places, rest) =>
      match exponent rest with
      | some (power, rest) => some (places, power, rest)
      | none => some (places, 0, rest)
    | none => (exponent rest).map fun (power, rest) => ([], power, rest)
  let digits := numeral 10 (whole ++ places)
  let power := power - places.length
  if !negative && exceedsFloats digits power then none
  else some (.decimal negative digits power, rest)

/-- Reads a float. -/
def real : Reader Real := fun text =>
  match decimal text with
  | some taken => some taken
  | none =>
    match sign text with
    | (negative, 'i' :: 'n' :: 'f' :: rest) => some (.infinity negative, rest)
    | (_, 'n' :: 'a' :: 'n' :: rest) => some (.notANumber, rest)
    | _ => none

end Facade.Toml
