/-!
# Sets of characters as ranges of code points

A property of Unicode is a long list of closed ranges of code points. The tables of this library
are such lists, and `CodeRanges.has` is the only way they are read.
-/

set_option autoImplicit false

namespace Facade.Text

/-- Closed ranges of code points, each a first and a last one. -/
abbrev CodeRanges := List (Nat × Nat)

/-- Whether some range holds the character. -/
def CodeRanges.has (ranges : CodeRanges) (c : Char) : Bool :=
  ranges.any fun range => range.1 ≤ c.toNat && c.toNat ≤ range.2

end Facade.Text
