import Facade.Text.Utf8

/-!
# Parts of a text between two offsets

An offset in bytes cuts a text cleanly if it falls between two characters or at an end of the text
(`IsBoundary`). Behind such a cut a text is cut like the rest by itself (`fromByte_append`,
`slice_append`), and in front of it like a text that ends there (`slice_of_le`); so the part of a
text between two runs of characters is found by their lengths (`slice_middle`).
-/

set_option autoImplicit false

namespace Facade.Text

/-! ### Lengths -/

/-- A string is as long as its characters are together. -/
theorem utf8ByteSize_ofList (text : List Char) :
    (String.ofList text).utf8ByteSize = byteLength text := by
  induction text with
  | nil => rfl
  | cons c rest ih =>
    rw [String.utf8ByteSize, String.toByteArray_ofList] at ih ⊢
    rw [List.utf8Encode_cons, ByteArray.size_append, ih, List.utf8Encode_singleton]
    simp [byteLength]

/-- The characters of a string are as long as the string. -/
theorem byteLength_toList (text : String) : byteLength text.toList = text.utf8ByteSize := by
  rw [← utf8ByteSize_ofList, String.ofList_toList]

/-- The part up to an offset is no longer than the offset. -/
theorem byteLength_upToByte_le (offset : Nat) (text : List Char) :
    byteLength (upToByte offset text) ≤ offset := by
  fun_induction upToByte offset text <;> simp only [byteLength] <;> omega

/-- A text without any bytes has no characters. -/
theorem eq_nil_of_byteLength {text : List Char} (h : byteLength text = 0) : text = [] := by
  cases text with
  | nil => rfl
  | cons c more =>
    have hpos := byteLength_pos (List.cons_ne_nil c more)
    omega

/-! ### Cuts behind a run of characters -/

/-- A text up to an offset behind a run of characters: the run, and the rest up to there. -/
theorem upToByte_append (front text : List Char) (offset : Nat) :
    upToByte (offset + byteLength front) (front ++ text) = front ++ upToByte offset text := by
  induction front with
  | nil => rfl
  | cons c front ih =>
    have hle : c.utf8Size ≤ offset + byteLength (c :: front) := by
      rw [byteLength]
      omega
    have hrest : offset + byteLength (c :: front) - c.utf8Size = offset + byteLength front := by
      rw [byteLength]
      omega
    rw [List.cons_append, upToByte, if_pos hle, hrest, ih, List.cons_append]

/-- Behind the offset zero is the whole text. -/
theorem fromByte_zero (text : List Char) : fromByte 0 text = text := by
  cases text with
  | nil => rfl
  | cons c rest => rw [fromByte, if_neg (Nat.not_le.mpr c.utf8Size_pos)]

/-- A text from an offset behind a run of characters on: the rest from there on. -/
theorem fromByte_append (front text : List Char) (start : Nat) :
    fromByte (start + byteLength front) (front ++ text) = fromByte start text := by
  induction front with
  | nil => rfl
  | cons c front ih =>
    have hle : c.utf8Size ≤ start + byteLength (c :: front) := by
      rw [byteLength]
      omega
    have hrest : start + byteLength (c :: front) - c.utf8Size = start + byteLength front := by
      rw [byteLength]
      omega
    rw [List.cons_append, fromByte, if_pos hle, hrest, ih]

/-- To cut out of a text that stands behind another. -/
theorem slice_append (front text : List Char) (start stop : Nat) :
    slice (front ++ text) (start + byteLength front) (stop + byteLength front)
      = slice text start stop := by
  rw [slice, slice, fromByte_append, Nat.add_sub_add_right]

/-- The part of a text behind another is cut out by where it starts and ends. -/
theorem slice_middle (front middle behind : List Char) :
    slice (front ++ (middle ++ behind)) (byteLength front) (byteLength front + byteLength middle)
      = middle := by
  have hslice := slice_append front (middle ++ behind) 0 (byteLength middle)
  rw [Nat.zero_add, Nat.add_comm (byteLength middle)] at hslice
  rw [hslice, slice, Nat.sub_zero, fromByte_zero, upToByte_byteLength]

/-- The part behind two others. -/
theorem slice_behind (front between middle behind : List Char) :
    slice (front ++ (between ++ (middle ++ behind))) (byteLength front + byteLength between)
      (byteLength front + byteLength between + byteLength middle) = middle := by
  rw [← List.append_assoc, ← byteLength_append]
  exact slice_middle (front ++ between) middle behind

/-! ### Cuts in front of a run of characters -/

/-- What is in front of an offset does not depend on what comes behind. -/
theorem upToByte_of_le {text : List Char} {offset : Nat} (h : offset ≤ byteLength text)
    (more : List Char) : upToByte offset (text ++ more) = upToByte offset text := by
  induction text generalizing offset with
  | nil =>
    cases Nat.le_zero.mp h
    exact upToByte_byteLength [] more
  | cons c text ih =>
    rw [byteLength] at h
    rw [List.cons_append, upToByte, upToByte, ih (by omega)]

/-- What follows a text stands behind every offset in it. -/
theorem fromByte_of_le {text : List Char} {offset : Nat} (h : offset ≤ byteLength text)
    (more : List Char) : fromByte offset (text ++ more) = fromByte offset text ++ more := by
  induction text generalizing offset with
  | nil =>
    cases Nat.le_zero.mp h
    exact fromByte_byteLength [] more
  | cons c text ih =>
    rw [byteLength] at h
    rw [List.cons_append, fromByte, fromByte, ih (by omega)]
    split <;> rfl

/-- What ends in a text is cut out of a longer text just so. -/
theorem slice_of_le {text : List Char} {start stop : Nat}
    (h : stop ≤ byteLength text ∨ stop = start) (more : List Char) :
    slice (text ++ more) start stop = slice text start stop := by
  rw [slice, slice]
  by_cases hle : stop ≤ start
  -- Nothing is cut out if the end is not behind the start.
  · rw [Nat.sub_eq_zero_of_le hle]
    exact (upToByte_byteLength [] _).trans (upToByte_byteLength [] _).symm
  · have hstop : stop ≤ byteLength text := h.resolve_right fun heq => hle (Nat.le_of_eq heq)
    have hcut := congrArg byteLength (upToByte_append_fromByte start text)
    have hfront := byteLength_upToByte_le start text
    rw [byteLength_append] at hcut
    rw [fromByte_of_le (by omega), upToByte_of_le (by omega)]

/-! ### Boundaries -/

/-- An offset that falls between two characters of a text, or at one of its ends. -/
def IsBoundary (text : List Char) (offset : Nat) : Prop :=
  ∃ front rest, text = front ++ rest ∧ byteLength front = offset

/-- There is a boundary behind a run of characters. -/
theorem isBoundary_byteLength (front rest : List Char) :
    IsBoundary (front ++ rest) (byteLength front) :=
  ⟨front, rest, rfl, rfl⟩

variable {text : List Char} {offset : Nat}

/-- A boundary is not behind the end of the text. -/
theorem IsBoundary.le (h : IsBoundary text offset) : offset ≤ byteLength text := by
  obtain ⟨front, rest, rfl, rfl⟩ := h
  rw [byteLength_append]
  omega

/-- The end of a text is a boundary. -/
theorem isBoundary_end (text : List Char) : IsBoundary text (byteLength text) :=
  ⟨text, [], (List.append_nil text).symm, rfl⟩

/-- To walk up to an offset comes to a boundary exactly if it comes to the offset. -/
theorem isBoundary_iff : IsBoundary text offset ↔ byteLength (upToByte offset text) = offset := by
  constructor
  · rintro ⟨front, rest, rfl, rfl⟩
    rw [upToByte_byteLength]
  · intro h
    exact ⟨upToByte offset text, fromByte offset text,
      (upToByte_append_fromByte offset text).symm, h⟩

/-- Whether an offset is a boundary is decided by a cut there. -/
instance (text : List Char) (offset : Nat) : Decidable (IsBoundary text offset) :=
  decidable_of_iff _ isBoundary_iff.symm

end Facade.Text
