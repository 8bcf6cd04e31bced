import Facade.Proofs.Text.Slice
import Facade.Proofs.Token.Writes

/-!
# A token is the longest that its text starts with

The scanner never ends a token early: if it ends one where a text has more to come, no longer
beginning of that text is a token in full (`longest_of_stepHere`). Each piece of the scanner answers
this for itself. A string ends at its closing quote whatever comes behind it. A word and the digits
of a number go on as long as they can. A mark is the first in an order that has the longer marks
before the shorter. A number alone has parts that may or may not be there, and a part that is there
in a longer number is not given up in a still longer text (`isPrefix_splitNumber`).
-/

set_option autoImplicit false

namespace Facade

open Facade.Text

/-! ### Marks -/

/-- Longer marks are tried first. -/
theorem Mark.pairwise_all :
    Mark.all.Pairwise fun longer shorter => shorter.chars.length ≤ longer.chars.length := by
  decide

/-- No longer mark comes before what a text starts with. -/
theorem Mark.length_le_of_leading? {text : List Char} {mark other : Mark}
    (h : Mark.leading? text = some mark) (hother : other.chars <+: text) :
    other.chars.length ≤ mark.chars.length := by
  obtain ⟨-, before, behind, hall, hbefore⟩ := List.find?_eq_some_iff_append.mp h
  have hmem : other ∈ before ++ mark :: behind := hall ▸ Mark.mem_all other
  rcases List.mem_append.mp hmem with hfront | hback
  -- In front of the one that is found, none is what the text starts with.
  · have hnot := hbefore other hfront
    rw [Bool.not_eq_true', ← Bool.not_eq_true, List.isPrefixOf_iff_prefix] at hnot
    exact absurd hother hnot
  · rcases List.mem_cons.mp hback with rfl | hin
    · exact Nat.le_refl _
    · have hpairs := Mark.pairwise_all
      rw [hall] at hpairs
      exact List.rel_of_pairwise_cons (List.pairwise_append.mp hpairs).2.1 hin

namespace Cursor

variable {text more rest : List Char} {n m : Nat}

/-! ### Numbers -/

/-- Characters that pass a test are taken by it, whatever comes behind them. -/
theorem isPrefix_takeWhile {p : Char → Bool} (hall : ∀ c ∈ text, p c = true) (more : List Char) :
    text <+: (text ++ more).takeWhile p := by
  rw [List.takeWhile_append_of_pos hall]
  exact List.prefix_append _ _

/-- An exponent is not given up if there is more behind it. -/
theorem isPrefix_splitExponent (h : splitExponent text = (text, [])) (more : List Char) :
    text <+: (splitExponent (text ++ more)).1 := by
  cases text with
  | nil => exact List.nil_prefix
  | cons e signed =>
    rw [splitExponent_cons] at h
    by_cases hexponent : (e = 'e' ∨ e = 'E') ∧ startsWithDigit (splitSign signed).2 = true
    · rw [if_pos hexponent] at h
      obtain ⟨htext, hrest⟩ := Prod.mk.inj h
      have hsigned := (List.cons.inj htext).2
      have happend := splitSign_append signed
      have hrun := List.takeWhile_append_dropWhile (p := Char.isDigit) (l := (splitSign signed).2)
      rw [hrest, List.append_nil] at hrun
      generalize hsign : (splitSign signed).1 = sign at hsigned happend
      generalize hdigits : (splitSign signed).2 = digits at hrun happend hexponent
      have hall : ∀ c ∈ digits, c.isDigit = true := by
        rw [← hrun]
        exact fun c hc => List.mem_takeWhile_imp hc
      have hne : digits ≠ [] := by
        rintro rfl
        cases hexponent.2
      -- The sign is the same sign in front of more digits.
      have hsplit : splitSign (sign ++ (digits ++ [])) = (sign, digits ++ []) := by
        rw [List.append_nil, happend, ← hsign, ← hdigits]
      have hsplit' := splitSign_digits hne hall hsplit more
      rw [List.cons_append, ← happend, List.append_assoc, splitExponent_cons, hsplit',
        if_pos ⟨hexponent.1, startsWithDigit_append hne hall more⟩, List.cons_prefix_cons]
      exact ⟨rfl, (List.prefix_append_right_inj sign).mpr (isPrefix_takeWhile hall more)⟩
    · rw [if_neg hexponent] at h
      cases h

/-- A fraction is not given up if there is more behind it. -/
theorem isPrefix_splitFraction (h : splitFraction text = (text, [])) (more : List Char) :
    text <+: (splitFraction (text ++ more)).1 := by
  by_cases hne : text = []
  · rw [hne]
    exact List.nil_prefix
  · rw [← List.append_nil text] at h
    obtain ⟨digits, hdot, hdigits, hrun⟩ :=
      digits_of_splitFraction hne (h.trans (congrArg (·, []) (List.append_nil text)))
    have hall := (eq_of_takeWhile_append hrun).1
    rw [hdot, List.cons_append, splitFraction_digits hdigits hall, List.cons_prefix_cons]
    exact ⟨rfl, isPrefix_takeWhile hall more⟩

/-- In front of an exponent, a fraction ends where it did if there is more behind them. -/
theorem splitFraction_exponent {fraction exponent : List Char}
    (h : splitFraction (fraction ++ exponent) = (fraction, exponent)) (hne : exponent ≠ [])
    (hexponent : splitExponent exponent = (exponent, [])) (more : List Char) :
    splitFraction (fraction ++ (exponent ++ more)) = (fraction, exponent ++ more) := by
  obtain ⟨e, signed, rfl⟩ := List.exists_cons_of_ne_nil hne
  have he : e = 'e' ∨ e = 'E' := by
    by_contra he
    rw [splitExponent_cons, if_neg fun h => he h.1] at hexponent
    cases hexponent
  by_cases hfraction : fraction = []
  · have hdot : e ≠ '.' := by
      rintro rfl
      simp at he
    rw [hfraction]
    exact splitFraction_of_ne hdot (signed ++ more)
  · obtain ⟨digits, rfl, hdigits, hrun⟩ := digits_of_splitFraction hfraction h
    have hall := (eq_of_takeWhile_append hrun).1
    have hstops : ∀ c ∈ (e :: signed ++ more).head?, c.isDigit = false := by
      intro c hc
      cases Option.some.inj hc
      rcases he with rfl | rfl <;> rfl
    obtain ⟨htake, hdrop⟩ := takeWhile_eq_of_stops hall hstops
    rw [List.cons_append, splitFraction_digits hdigits hall, htake, hdrop]

/-- With more behind it, a text that starts with no mark of a hexadecimal number may start with one,
but not the other way around. -/
theorem hexMark?_of_append (h : hexMark? (text ++ rest) = none) : hexMark? text = none := by
  cases hfound : hexMark? text with
  | none => rfl
  | some mark =>
    obtain ⟨hx, behind, rfl⟩ := hexMark?_eq_some hfound
    have hmarked : hexMark? ('0' :: mark :: (behind ++ rest)) = some mark := if_pos hx
    cases hmarked.symm.trans h

/-- A decimal number in full is its digits, its fraction and its exponent. -/
theorem exists_decimal (hmark : hexMark? text = none) (h : splitNumber text = (text, [])) :
    ∃ digits fraction exponent, text = digits ++ (fraction ++ exponent)
      ∧ (∀ c ∈ digits, c.isDigit = true)
      ∧ (∀ c ∈ (fraction ++ exponent).head?, c.isDigit = false)
      ∧ splitFraction (fraction ++ exponent) = (fraction, exponent)
      ∧ splitExponent exponent = (exponent, []) := by
  rw [splitNumber_decimal hmark] at h
  have hdigits := List.takeWhile_append_dropWhile (p := Char.isDigit) (l := text)
  have hfraction := splitFraction_append (text.dropWhile Char.isDigit)
  have hexponent := splitExponent_append (splitFraction (text.dropWhile Char.isDigit)).2
  obtain ⟨hall, hstops⟩ := eq_of_takeWhile_append
    (congrArg (List.takeWhile Char.isDigit) hdigits)
  generalize text.takeWhile Char.isDigit = digits at h hdigits hall
  generalize text.dropWhile Char.isDigit = behind at h hfraction hexponent hdigits hstops
  generalize hf : splitFraction behind = fraction at h hfraction hexponent
  generalize he : splitExponent fraction.2 = exponent at h hexponent
  obtain ⟨-, hrest⟩ := Prod.mk.inj h
  obtain ⟨fraction, last⟩ := fraction
  obtain ⟨exponent, rest⟩ := exponent
  simp only at hrest hfraction hexponent he
  subst hrest hdigits hfraction
  rw [List.append_nil] at hexponent
  subst hexponent
  exact ⟨digits, fraction, exponent, rfl, hall, hstops, hf, he⟩

/-- A number of base sixteen is taken at least as far in a longer text. -/
theorem isPrefix_splitNumber_hex {mark : Char} (hmark : hexMark? (text ++ rest) = some mark)
    (h : splitNumber text = (text, [])) : text <+: (splitNumber (text ++ rest)).1 := by
  obtain ⟨hx, behind, htext⟩ := hexMark?_eq_some hmark
  rw [htext, splitNumber_hex mark hx]
  match text with
  | [] => exact List.nil_prefix
  -- The mark may come with what is behind, and then the zero is the start of that number.
  | [zero] =>
    obtain ⟨rfl, -⟩ := List.cons.inj htext
    exact List.cons_prefix_cons.mpr ⟨rfl, List.nil_prefix⟩
  | zero :: second :: digits =>
    simp only [List.cons_append, List.cons.injEq] at htext
    obtain ⟨rfl, rfl, rfl⟩ := htext
    rw [splitNumber_hex second hx] at h
    have hdigits : digits.takeWhile isHexDigit = digits :=
      (List.cons.inj (List.cons.inj (Prod.mk.inj h).1).2).2
    have hall : ∀ c ∈ digits, isHexDigit c = true := by
      rw [← hdigits]
      exact fun c hc => List.mem_takeWhile_imp hc
    rw [List.cons_prefix_cons, List.cons_prefix_cons]
    exact ⟨rfl, rfl, isPrefix_takeWhile hall rest⟩

/-- So is any other number. -/
theorem isPrefix_splitNumber_decimal (hmark : hexMark? (text ++ rest) = none)
    (h : splitNumber text = (text, [])) : text <+: (splitNumber (text ++ rest)).1 := by
  rw [splitNumber_decimal hmark, List.append_assoc]
  obtain ⟨digits, fraction, exponent, rfl, hall, hstops, hfraction, hexponent⟩ :=
    exists_decimal (hexMark?_of_append hmark) h
  by_cases hbehind : fraction ++ exponent = []
  · rw [hbehind, List.append_nil]
    exact (isPrefix_takeWhile hall rest).trans (List.prefix_append _ _)
  have hstops' : ∀ c ∈ (fraction ++ exponent ++ rest).head?, c.isDigit = false := by
    obtain ⟨c, behind, hcons⟩ := List.exists_cons_of_ne_nil hbehind
    rw [hcons] at hstops ⊢
    exact hstops
  obtain ⟨htake, hdrop⟩ := takeWhile_eq_of_stops hall hstops'
  rw [List.append_assoc digits, htake, hdrop]
  refine (List.prefix_append_right_inj digits).mpr ?_
  -- What comes behind goes on with the last part that is there.
  by_cases hne : exponent = []
  · subst hne
    rw [List.append_nil] at hfraction ⊢
    exact (isPrefix_splitFraction hfraction rest).trans (List.prefix_append _ _)
  · rw [List.append_assoc, splitFraction_exponent hfraction hne hexponent]
    exact (List.prefix_append_right_inj fraction).mpr (isPrefix_splitExponent hexponent rest)

/-- A number in full is not given up for a shorter one if there is more behind it. -/
theorem isPrefix_splitNumber (h : splitNumber text = (text, [])) (more : List Char) :
    text <+: (splitNumber (text ++ more)).1 := by
  cases hmark : hexMark? (text ++ more) with
  | some mark => exact isPrefix_splitNumber_hex hmark h
  | none => exact isPrefix_splitNumber_decimal hmark h

/-! ### Tokens -/

/-- Some characters of a text with `rest` behind them make a token, and together with more of `rest`
they are no token in full. -/
def Longest (c : Char) (taken rest : List Char) : Prop :=
  ∀ (extra : List Char) (k m : Nat) (other : Token), extra <+: rest →
    stepHere k c (taken ++ extra) = (.ok other, ⟨[], m⟩) → extra = []

variable {c : Char} {taken : List Char}

/-- A string is the longest. -/
theorem longest_string (hquote : (c = '"' || c = '\'') = true)
    (hclosed : (readQuoted c (taken ++ rest) n).closed = true)
    (hrest : (readQuoted c (taken ++ rest) n).after.rest = rest) : Longest c taken rest := by
  obtain ⟨taken', htaken, -, hread⟩ := readQuoted_taken hclosed
  rw [hrest] at htaken
  cases List.append_cancel_right htaken
  intro extra k m other _ hother
  rw [stepHere, if_pos hquote, hread] at hother
  cases hother
  rfl

/-- So is a number. -/
theorem longest_number (hquote : ¬ (c = '"' || c = '\'') = true)
    (hnumber : startsNumber c (taken ++ rest) = true)
    (hrest : (splitNumber (c :: (taken ++ rest))).2 = rest) : Longest c taken rest := by
  have happend := splitNumber_append (c :: (taken ++ rest))
  obtain ⟨taken', htaken, hstarts⟩ := startsNumber_splitNumber hnumber
  rw [htaken, hrest, List.cons_append] at happend
  cases List.append_cancel_right (List.cons.inj happend).2
  intro extra k m other hextra hother
  rw [stepHere, if_neg hquote, if_pos (startsNumber_append hstarts extra)] at hother
  have hall : splitNumber (c :: (taken ++ extra)) = (c :: (taken ++ extra), []) := by
    have hbehind : (splitNumber (c :: (taken ++ extra))).2 = [] :=
      congrArg Cursor.rest (Prod.mk.inj hother).2
    have happend := splitNumber_append (c :: (taken ++ extra))
    rw [hbehind, List.append_nil] at happend
    exact Prod.ext happend hbehind
  -- The longer number would have been taken in the first place.
  obtain ⟨behind, rfl⟩ := hextra
  have hlonger := (isPrefix_splitNumber hall behind).length_le
  rw [List.cons_append, List.append_assoc, htaken] at hlonger
  simp only [List.length_cons, List.length_append] at hlonger
  exact List.eq_nil_of_length_eq_zero (by omega)

/-- Where no number starts in a text, none starts if the text ends earlier. -/
theorem startsNumber_of_isPrefix {text' : List Char} (h : startsNumber c text = false)
    (hfront : text' <+: text) : startsNumber c text' = false := by
  obtain ⟨more, rfl⟩ := hfront
  by_contra hstarts
  rw [startsNumber_append (Bool.not_eq_false _ ▸ hstarts)] at h
  cases h

/-- A word is the longest. -/
theorem longest_word (hquote : ¬ (c = '"' || c = '\'') = true)
    (hnumber : startsNumber c (taken ++ rest) = false) (hword : startsWord c = true)
    (hrest : (taken ++ rest).dropWhile continuesWord = rest) : Longest c taken rest := by
  intro extra k m other hextra hother
  have hnumber' := startsNumber_of_isPrefix hnumber
    ((List.prefix_append_right_inj taken).mpr hextra)
  rw [stepHere, if_neg hquote, hnumber', if_neg Bool.false_ne_true, if_pos hword] at hother
  have hbehind : (taken ++ extra).dropWhile continuesWord = [] :=
    congrArg Cursor.rest (Prod.mk.inj hother).2
  have hrun := List.takeWhile_append_dropWhile (p := continuesWord) (l := taken ++ rest)
  rw [hrest] at hrun
  obtain ⟨-, hstops⟩ := eq_of_takeWhile_append (List.append_cancel_right hrun)
  -- A character of `extra` would go on with the word, and is what the word stops at.
  cases extra with
  | nil => rfl
  | cons d extra =>
    have hcontinues := List.dropWhile_eq_nil_iff.mp hbehind d (by simp)
    obtain ⟨behind, rfl⟩ := hextra
    cases hcontinues.symm.trans (hstops d rfl)

/-- So is a mark. -/
theorem longest_mark {mark : Mark} (hquote : ¬ (c = '"' || c = '\'') = true)
    (hnumber : startsNumber c (taken ++ rest) = false) (hword : ¬ startsWord c = true)
    (hmark : Mark.leading? (c :: (taken ++ rest)) = some mark)
    (hrest : (c :: (taken ++ rest)).drop mark.chars.length = rest) : Longest c taken rest := by
  intro extra k m other hextra hother
  have hfront : taken ++ extra <+: taken ++ rest := (List.prefix_append_right_inj taken).mpr hextra
  rw [stepHere, if_neg hquote, startsNumber_of_isPrefix hnumber hfront,
    if_neg Bool.false_ne_true, if_neg hword] at hother
  split at hother
  · rename_i longer hlonger
    have hbehind : (c :: (taken ++ extra)).drop longer.chars.length = [] :=
      congrArg Cursor.rest (Prod.mk.inj hother).2
    obtain ⟨hstarts, -⟩ := List.find?_eq_some_iff_append.mp hlonger
    have hle := Mark.length_le_of_leading? hmark
      ((List.isPrefixOf_iff_prefix.mp hstarts).trans (List.cons_prefix_cons.mpr ⟨rfl, hfront⟩))
    have hlength := congrArg List.length hrest
    have hdrop := List.drop_eq_nil_iff.mp hbehind
    obtain ⟨hfirst, -⟩ := List.find?_eq_some_iff_append.mp hmark
    have hfits := (List.isPrefixOf_iff_prefix.mp hfirst).length_le
    simp only [List.length_drop, List.length_cons, List.length_append] at hlength hdrop hfits
    exact List.eq_nil_of_length_eq_zero (by omega)
  · cases hother

/-- Where a token ends, no longer part of the text is a token in full. -/
theorem longest_of_stepHere {token : Token}
    (h : stepHere n c (taken ++ rest) = (.ok token, ⟨rest, m⟩)) : Longest c taken rest := by
  generalize hafter : (⟨rest, m⟩ : Cursor) = after at h
  have hrest : after.rest = rest := by rw [← hafter]
  cases branch_stepHere h with
  | string hquote hclosed => exact longest_string hquote hclosed hrest
  | number hquote hnumber => exact longest_number hquote hnumber hrest
  | word hquote hnumber hword => exact longest_word hquote hnumber hword hrest
  | mark hquote hnumber hword hmark => exact longest_mark hquote hnumber hword hmark hrest

end Cursor

end Facade
