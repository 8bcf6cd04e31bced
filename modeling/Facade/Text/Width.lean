import Facade.Text.WidthTable

/-!
# Columns of a terminal

How many columns of a terminal a character takes, and where a tab ends. Most characters take one
column, those of East Asian scripts and most pictures two, and marks and controls none.
-/

set_option autoImplicit false

namespace Facade.Text

/-- The columns that a character other than a tab takes. -/
def columns (c : Char) : Nat :=
  if 0x20 ≤ c.toNat && c.toNat < 0x7F then 1
  else if zeroWidthRanges.has c then 0
  else if doubleWidthRanges.has c then 2
  else if c = '\u17D8' then 3
  else 1

/-- A tab reaches to the next multiple of this many columns. -/
def tabStop : Nat := 4

/-- The columns that a character takes when it stands at a column, counted from zero. -/
def columnsAt (column : Nat) (c : Char) : Nat :=
  if c = '\t' then tabStop - column % tabStop else columns c

/-- The characters of a line, each with the columns it takes there. -/
def withColumns (column : Nat) : List Char → List (Char × Nat)
  | [] => []
  | c :: rest => (c, columnsAt column c) :: withColumns (column + columnsAt column c) rest

end Facade.Text
