import Facade.Proofs.Checked.Declarations
import Mathlib.Data.Prod.Lex
import Mathlib.Order.Monotone.Basic

/-!
# Places tell offsets

What keeps a file from being read is reported with an offset in bytes, for programs, and with a line
and a column, for people. Both name the same position. Places are in the order of reading
(`Place.lt_iff`). A character leads from its place to a later one, and so does every run of
characters, so a position further on in a text has a later place (`strictMonoOn_ofByte`).

`Place.toByte?` goes the way back as a reader goes it: so many lines down, so many characters on. It
knows nothing of how places are counted, and comes to the one position that has the place, if there
is one (`toByte?_eq_some_iff`). The place of an error therefore leads to the offset of the error,
and to no other (`places_tell`).
-/

set_option autoImplicit false

namespace Facade

open Facade.Text

namespace Text.Place

/-! ### The order of reading -/

/-- A place as a pair, of which the line counts first. -/
def pair (place : Place) : Nat ×ₗ Nat :=
  toLex (place.line, place.column)

/-- Places are told apart by their pairs. -/
theorem pair_injective : Function.Injective pair := by
  intro place other h
  have hboth : (place.line, place.column) = (other.line, other.column) := h
  cases place
  cases other
  cases hboth
  rfl

/-- Places are in the order of reading: line by line, and on a line column by column. -/
instance : PartialOrder Place :=
  PartialOrder.lift pair pair_injective

/-- A place is in front of another on an earlier line, or on the same line and an earlier column. -/
theorem lt_iff {place other : Place} : place < other
    ↔ place.line < other.line ∨ place.line = other.line ∧ place.column < other.column :=
  Prod.Lex.toLex_lt_toLex

/-- A character leads to a later place. -/
theorem lt_after (place : Place) (c : Char) : place < place.after c := by
  rw [lt_iff, after]
  split
  · exact .inl (Nat.lt_succ_self _)
  · exact .inr ⟨rfl, Nat.lt_succ_self _⟩

/-- A run of characters leads to no earlier place. -/
theorem le_afterAll (place : Place) (run : List Char) : place ≤ place.afterAll run := by
  induction run generalizing place with
  | nil => exact le_rfl
  | cons c run ih => exact (lt_after place c).le.trans (ih (place.after c))

/-- A run of characters that is not empty leads to a later place. -/
theorem lt_afterAll (place : Place) {run : List Char} (h : run ≠ []) :
    place < place.afterAll run := by
  cases run with
  | nil => exact absurd rfl h
  | cons c run => exact (lt_after place c).trans_le (le_afterAll (place.after c) run)

/-- Further on in a text, places are later. -/
theorem strictMonoOn_ofByte (text : List Char) :
    StrictMonoOn (ofByte text) {offset | IsBoundary text offset} := by
  rintro _ ⟨front, rest, rfl, rfl⟩ second hsecond hlt
  obtain ⟨bytes, rfl⟩ := Nat.exists_eq_add_of_le' hlt.le
  -- The second position is behind the first and a run of characters that takes these bytes.
  have hbytes := isBoundary_iff.mp hsecond
  rw [upToByte_append, byteLength_append] at hbytes
  have hrun : upToByte bytes rest ≠ [] := by
    intro hnil
    rw [hnil, byteLength] at hbytes
    omega
  rw [ofByte, ofByte, upToByte_byteLength, upToByte_append, afterAll_append]
  exact lt_afterAll _ hrun

/-- Lines and columns stay counted from one. -/
theorem pos_afterAll {place : Place} (hline : 0 < place.line) (hcolumn : 0 < place.column)
    (run : List Char) : 0 < (place.afterAll run).line ∧ 0 < (place.afterAll run).column := by
  induction run generalizing place with
  | nil => exact ⟨hline, hcolumn⟩
  | cons c run ih =>
    have hafter : 0 < (place.after c).line ∧ 0 < (place.after c).column := by
      rw [after]
      split
      · exact ⟨Nat.succ_pos _, Nat.one_pos⟩
      · exact ⟨hline, Nat.succ_pos _⟩
    exact ih hafter.1 hafter.2

/-! ### Walks to a place -/

/-- A walk over a text, from a place at its start, comes to another place at an offset. -/
def Reaches (place : Place) (text : List Char) (offset : Nat) (target : Place) : Prop :=
  ∃ front rest, text = front ++ rest ∧ byteLength front = offset ∧ place.afterAll front = target

variable {place target : Place} {c : Char} {text rest : List Char} {offset lines columns : Nat}

/-- A walk comes to a place exactly at a boundary, and there it is the place behind the text up to
it. -/
theorem reaches_iff : place.Reaches text offset target
    ↔ IsBoundary text offset ∧ place.afterAll (upToByte offset text) = target := by
  constructor
  · rintro ⟨front, rest, rfl, rfl, htarget⟩
    rw [upToByte_byteLength]
    exact ⟨isBoundary_byteLength front rest, htarget⟩
  · rintro ⟨⟨front, rest, rfl, rfl⟩, htarget⟩
    rw [upToByte_byteLength] at htarget
    exact ⟨front, rest, rfl, rfl, htarget⟩

/-- A walk comes to no earlier place. -/
theorem Reaches.le (h : place.Reaches text offset target) : place ≤ target := by
  obtain ⟨front, -, -, -, rfl⟩ := h
  exact le_afterAll place front

/-- A walk that comes back to its place has not begun. -/
theorem reaches_self_iff : place.Reaches text offset place ↔ offset = 0 := by
  constructor
  · rintro ⟨front, rest, -, rfl, hback⟩
    cases front with
    | nil => rfl
    | cons c front => exact absurd hback (lt_afterAll place (List.cons_ne_nil c front)).ne'
  · rintro rfl
    exact ⟨[], text, rfl, rfl, rfl⟩

/-- A walk over no text stays where it is. -/
theorem reaches_nil_iff : place.Reaches [] offset target ↔ offset = 0 ∧ target = place := by
  constructor
  · rintro ⟨front, rest, hnil, rfl, rfl⟩
    obtain ⟨rfl, -⟩ := List.append_eq_nil_iff.mp hnil.symm
    exact ⟨rfl, rfl⟩
  · rintro ⟨rfl, rfl⟩
    exact ⟨[], [], rfl, rfl, rfl⟩

/-- A walk to another place takes the first character. -/
theorem reaches_cons_iff (h : target ≠ place) : place.Reaches (c :: rest) offset target
    ↔ ∃ more, (place.after c).Reaches rest more target ∧ c.utf8Size + more = offset := by
  constructor
  · rintro ⟨front, behind, htext, rfl, htarget⟩
    cases front with
    | nil => exact absurd htarget.symm h
    | cons d front =>
      cases htext
      exact ⟨byteLength front, ⟨front, behind, rfl, rfl, htarget⟩, rfl⟩
  · rintro ⟨_, ⟨front, behind, rfl, rfl, htarget⟩, rfl⟩
    exact ⟨c :: front, behind, rfl, rfl, htarget⟩

/-! ### The way back -/

/-- Goes a number of lines down in a text, and then a number of characters on, but not over the end
of the line. Answers how many bytes that takes. -/
def seek? : (lines columns : Nat) → List Char → Option Nat
  | 0, 0, _ => some 0
  | 0, columns + 1, c :: rest =>
    if c = '\n' then none else (seek? 0 columns rest).map (c.utf8Size + ·)
  | lines + 1, columns, c :: rest =>
    (seek? (if c = '\n' then lines else lines + 1) columns rest).map (c.utf8Size + ·)
  | _, _, [] => none

/-- The offset where a place is in a text. -/
def toByte? (text : List Char) : Place → Option Nat
  | ⟨lines + 1, columns + 1⟩ => seek? lines columns text
  | _ => none

/-- The place some lines further down, and some characters further on there. -/
def down (place : Place) : (lines columns : Nat) → Place
  | 0, columns => ⟨place.line, place.column + columns⟩
  | lines + 1, columns => ⟨place.line + (lines + 1), columns + 1⟩

/-- Further down or on is another place. -/
theorem down_ne (h : ¬ (lines = 0 ∧ columns = 0)) : place.down lines columns ≠ place := by
  intro heq
  cases lines with
  | zero =>
    have hcolumn : place.column + columns = place.column := congrArg column heq
    omega
  | succ lines =>
    have hline : place.line + (lines + 1) = place.line := congrArg line heq
    omega

/-- Behind a line feed there is one line less to go. -/
theorem down_after_lineFeed : (place.after '\n').down lines columns
    = place.down (lines + 1) columns := by
  cases lines with
  | zero => exact congrArg (Place.mk (place.line + 1)) (Nat.add_comm 1 columns)
  | succ lines =>
    have hline : place.line + 1 + (lines + 1) = place.line + (lines + 1 + 1) := by omega
    exact congrArg (Place.mk · (columns + 1)) hline

/-- On a later line, it does not matter which characters come first on this one. -/
theorem down_after (hc : c ≠ '\n') : (place.after c).down (lines + 1) columns
    = place.down (lines + 1) columns := by
  rw [after, if_neg hc]
  rfl

/-- On the same line, each character is one column. -/
theorem down_zero_after (hc : c ≠ '\n') : (place.after c).down 0 columns
    = place.down 0 (columns + 1) := by
  have hcolumn : place.column + 1 + columns = place.column + (columns + 1) := by omega
  rw [after, if_neg hc]
  exact congrArg (Place.mk place.line) hcolumn

/-- What is sought is where a walk comes to the place. -/
theorem seek?_eq_some_iff (place : Place) : seek? lines columns text = some offset
    ↔ place.Reaches text offset (place.down lines columns) := by
  fun_induction seek? lines columns text generalizing place offset with
  | case1 text =>
    show some 0 = some offset ↔ place.Reaches text offset place
    rw [reaches_self_iff, Option.some_inj, eq_comm]
  -- Behind the line feed every place is on a later line.
  | case2 columns rest =>
    rw [reaches_cons_iff (down_ne (by omega))]
    refine iff_of_false (Option.some_ne_none offset ·.symm) ?_
    rintro ⟨more, hreaches, -⟩
    have hle := hreaches.le
    exact absurd hle (not_le_of_gt (lt_iff.mpr (.inl (Nat.lt_succ_self _))))
  | case3 columns c rest hc ih =>
    rw [reaches_cons_iff (down_ne (by omega)), ← down_zero_after hc, Option.map_eq_some_iff]
    exact exists_congr fun more => and_congr_left' (ih (place.after c))
  | case4 lines columns c rest ih =>
    rw [reaches_cons_iff (down_ne (by omega)), Option.map_eq_some_iff]
    refine exists_congr fun more => and_congr_left' ?_
    rw [ih (place.after c)]
    split
    · rename_i hc
      rw [hc, down_after_lineFeed]
    · rename_i hc
      rw [down_after hc]
  | case5 lines columns hnot =>
    rw [reaches_nil_iff]
    refine iff_of_false (Option.some_ne_none offset ·.symm) fun h => ?_
    exact down_ne (fun hzero => hnot hzero.1 hzero.2) h.2

/-- From the first place, lines and columns are counted from one. -/
theorem first_down (lines columns : Nat) : first.down lines columns = ⟨lines + 1, columns + 1⟩ := by
  cases lines with
  | zero => exact congrArg (Place.mk 1) (Nat.add_comm 1 columns)
  | succ lines => exact congrArg (Place.mk · (columns + 1)) (Nat.add_comm 1 (lines + 1))

/-- A place leads to the position that has it, and if there is none, nowhere. -/
theorem toByte?_eq_some_iff :
    place.toByte? text = some offset ↔ IsBoundary text offset ∧ ofByte text offset = place := by
  have hpos : 0 < (ofByte text offset).line ∧ 0 < (ofByte text offset).column :=
    pos_afterAll Nat.one_pos Nat.one_pos (upToByte offset text)
  obtain ⟨line, column⟩ := place
  cases line with
  | zero =>
    refine iff_of_false (Option.some_ne_none offset ·.symm) fun h => hpos.1.ne' ?_
    exact congrArg Place.line h.2
  | succ lines =>
    cases column with
    | zero =>
      refine iff_of_false (Option.some_ne_none offset ·.symm) fun h => hpos.2.ne' ?_
      exact congrArg Place.column h.2
    | succ columns =>
      show seek? lines columns text = some offset ↔ _
      rw [seek?_eq_some_iff first, first_down, reaches_iff]
      rfl

end Text.Place

/-! ### Errors -/

namespace Checked

variable {text : List Char} {answer : Except SyntaxError Document}
  {checked : Option (Except Failure Document)}

/-- The checked parser reports its errors at boundaries. -/
theorem Finished.isBoundary {error : SyntaxError} (h : Finished text (.error error) checked) :
    IsBoundary text error.position := by
  cases h with
  | error hposition => exact hposition

/-- The parser reports an error at the place of its offset. -/
theorem Finished.toByte?_place {failure : Failure}
    (h : Finished text answer (some (.error failure))) :
    Place.toByte? text failure.place = some failure.error.position := by
  cases h with
  | error hposition => exact Place.toByte?_eq_some_iff.mpr ⟨hposition, rfl⟩

end Checked

/-- Lines and columns tell offsets in the text of a file. -/
structure PlacesTell (text : String) : Prop where
  /-- Between two characters, and at the ends of the text, the line is the number of line feeds in
  front, and the column the number of characters behind the last of them, both counted from one. -/
  counted : ∀ offset, IsBoundary text.toList offset →
    Checked.place? text.toList offset = some (Place.ofByte text.toList offset)
  /-- A position further on has a later place. -/
  later : ∀ offset further, IsBoundary text.toList offset → IsBoundary text.toList further →
    offset < further → Place.ofByte text.toList offset < Place.ofByte text.toList further
  /-- So no two positions share a place. -/
  determined : ∀ offset other, IsBoundary text.toList offset → IsBoundary text.toList other →
    Place.ofByte text.toList offset = Place.ofByte text.toList other → offset = other
  /-- The position that has a place is found by going down to the line and on to the column. -/
  found : ∀ place offset, Place.toByte? text.toList place = some offset
    ↔ IsBoundary text.toList offset ∧ Place.ofByte text.toList offset = place
  /-- The place of an error leads to the offset of the error. -/
  error : ∀ error, Document.ofText text = .error error →
    IsBoundary text.toList error.position
      ∧ Place.toByte? text.toList (error.place text) = some error.position
  /-- The same holds of what the checked parser reports, which counts by itself. -/
  reported : ∀ failure, Checked.parse text.toList = some (.error failure) →
    Place.toByte? text.toList failure.place = some failure.error.position

/-- In every text, lines and columns tell offsets. -/
theorem places_tell (text : String) : PlacesTell text where
  counted _ hoffset := Checked.place?_eq hoffset
  later _ _ hoffset hfurther hlt := Place.strictMonoOn_ofByte text.toList hoffset hfurther hlt
  determined _ _ hoffset hother heq :=
    (Place.strictMonoOn_ofByte text.toList).injOn hoffset hother heq
  found _ _ := Place.toByte?_eq_some_iff
  error error herror := by
    have hfinished := Checked.finished_parse text
    rw [herror] at hfinished
    exact ⟨hfinished.isBoundary, Place.toByte?_eq_some_iff.mpr ⟨hfinished.isBoundary, rfl⟩⟩
  reported failure hfailure := by
    have hfinished := Checked.finished_parse text
    rw [hfailure] at hfinished
    exact hfinished.toByte?_place

/-- On both sides of a line feed, and where a name is missing on the line behind it. The letter in
front of it takes two bytes. -/
theorem places_tell_missingName :
    Place.ofByte "var é;\nvar ;".toList 7 < Place.ofByte "var é;\nvar ;".toList 8
    ∧ ∃ error, Document.ofText "var é;\nvar ;" = .error error
        ∧ error.position = 12
        ∧ error.place "var é;\nvar ;" = ⟨2, 5⟩
        ∧ Place.toByte? "var é;\nvar ;".toList ⟨2, 5⟩ = some error.position := by
  have hmissing : Document.ofText "var é;\nvar ;"
      = .error ⟨.expected .name (some (.mark .semicolon)), 12⟩ := by with_unfolding_all rfl
  have hplace : SyntaxError.place ⟨.expected .name (some (.mark .semicolon)), 12⟩ "var é;\nvar ;"
      = ⟨2, 5⟩ := by decide
  have htell := places_tell "var é;\nvar ;"
  exact ⟨htell.later 7 8 (by decide) (by decide) (by decide), _, hmissing, rfl, hplace,
    hplace ▸ (htell.error _ hmissing).2⟩

end Facade
