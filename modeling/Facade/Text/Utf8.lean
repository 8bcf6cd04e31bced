/-!
# Lengths and offsets in bytes of UTF-8

Texts are read as lists of characters, but every position that the library reports is an offset in
bytes of the UTF-8 form of the text. This module ties the two together: `byteLength` measures a run
of characters, `upToByte` and `fromByte` cut a text at an offset, and `slice` takes what lies
between two offsets. An offset past the end stands for the end, which `clamp` makes explicit.
`upToByte_append_fromByte` says that a cut loses nothing, and `upToByte_byteLength` that an offset
which is the length of a leading run cuts exactly behind it.
-/

set_option autoImplicit false

namespace Facade.Text

/-- The number of bytes a run of characters takes in UTF-8. -/
def byteLength : List Char → Nat
  | [] => 0
  | c :: rest => c.utf8Size + byteLength rest

/-- The longest leading run of characters that ends at or before the offset. -/
def upToByte : Nat → List Char → List Char
  | _, [] => []
  | n, c :: rest => if c.utf8Size ≤ n then c :: upToByte (n - c.utf8Size) rest else []

/-- What is left of a text behind `upToByte`. -/
def fromByte : Nat → List Char → List Char
  | _, [] => []
  | n, c :: rest => if c.utf8Size ≤ n then fromByte (n - c.utf8Size) rest else c :: rest

/-- The offset itself, or the length of the text if the offset lies past its end. -/
def clamp (text : List Char) (offset : Nat) : Nat :=
  min offset (byteLength text)

/-- The characters between two offsets. -/
def slice (text : List Char) (start stop : Nat) : List Char :=
  upToByte (stop - start) (fromByte start text)

/-- Texts one behind the other are as long as both together. -/
@[simp] theorem byteLength_append (s t : List Char) :
    byteLength (s ++ t) = byteLength s + byteLength t := by
  induction s with
  | nil => simp [byteLength]
  | cons c rest ih => simp [byteLength, ih, Nat.add_assoc]

/-- A character takes at least one byte, so only the empty run has length zero. -/
theorem byteLength_pos {s : List Char} (h : s ≠ []) : 0 < byteLength s := by
  cases s with
  | nil => exact absurd rfl h
  | cons c rest => exact Nat.lt_of_lt_of_le c.utf8Size_pos (Nat.le_add_right _ _)

/-- Cutting a text at an offset loses nothing. -/
theorem upToByte_append_fromByte (n : Nat) (text : List Char) :
    upToByte n text ++ fromByte n text = text := by
  induction text generalizing n with
  | nil => rfl
  | cons c rest ih =>
    unfold upToByte fromByte
    split
    · simp [ih]
    · rfl

/-- An offset that is the length of a leading run cuts exactly behind that run. -/
theorem upToByte_byteLength (s t : List Char) : upToByte (byteLength s) (s ++ t) = s := by
  induction s with
  | nil =>
    cases t with
    | nil => rfl
    | cons c rest =>
      have h : ¬ c.utf8Size ≤ 0 := Nat.not_le.mpr c.utf8Size_pos
      simp [upToByte, byteLength, h]
  | cons c rest ih => simp [upToByte, byteLength, ih]

/-- The same cut, seen from the part it leaves. -/
theorem fromByte_byteLength (s t : List Char) : fromByte (byteLength s) (s ++ t) = t := by
  have h := upToByte_append_fromByte (byteLength s) (s ++ t)
  rw [upToByte_byteLength] at h
  exact List.append_cancel_left h

end Facade.Text
