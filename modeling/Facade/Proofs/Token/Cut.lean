import Facade.Token.Scan
import Mathlib.Data.List.TakeWhile

/-!
# A token does not depend on what follows it

The scanner takes the longest word or number there is, so what it answers depends on what comes
behind the token. It looks no further than it has to: if the text behind a token is cut short, and
the cut is followed by something that goes on with no token, the scanner takes the same token.
`Cut` relates what follows a token to what follows it after such a change; `takeWhile_cut` and
`splitNumber_cut` say that runs of characters and numbers do not notice it.
-/

set_option autoImplicit false

namespace Facade

open Facade.Text

/-! ### Changes behind a token -/

/-- Characters that neither words nor numbers go on with. -/
def isBreak (c : Char) : Bool :=
  c ∈ [' ', '\n', ',', ';', ':', '?', '(', ')', '[', ']', '<', '>', '{', '}']

/-- A text that goes on with no word and no number. -/
def Breaks (text : List Char) : Prop :=
  ∀ c ∈ text.head?, isBreak c = true

/-- Two texts with a beginning in common. What follows it in the second keeps to a condition. -/
inductive Cut (ends : List Char → Prop) : List Char → List Char → Prop where
  | intro (common old : List Char) {new : List Char} :
      ends new → Cut ends (common ++ old) (common ++ new)

namespace Cut

variable {ends ends' : List Char → Prop} {rest rest' : List Char}

/-- What two texts have in common may be made longer in front. -/
theorem append (text : List Char) (h : Cut ends rest rest') :
    Cut ends (text ++ rest) (text ++ rest') := by
  obtain ⟨common, old, hnew⟩ := h
  rw [← List.append_assoc, ← List.append_assoc]
  exact .intro _ old hnew

/-- A cut that keeps to a condition keeps to a weaker one. -/
theorem mono (h : Cut ends rest rest') (himp : ∀ text, ends text → ends' text) :
    Cut ends' rest rest' := by
  obtain ⟨common, old, hnew⟩ := h
  exact .intro common old (himp _ hnew)

/-- Either the cut is at once, or the two texts start with the same character. -/
theorem ends_or_cons (h : Cut ends rest rest') :
    ends rest' ∨ ∃ c more more', rest = c :: more ∧ rest' = c :: more' ∧ Cut ends more more' := by
  obtain ⟨common, old, hnew⟩ := h
  cases common with
  | nil => exact .inl hnew
  | cons c common => exact .inr ⟨c, _, _, rfl, rfl, .intro common old hnew⟩

end Cut

variable {text rest rest' : List Char}

/-! ### Runs of characters -/

/-- A run of characters that ends with a text: all of the text passes, and the next character does
not. -/
theorem eq_of_takeWhile_append {p : Char → Bool} (h : (text ++ rest).takeWhile p = text) :
    (∀ c ∈ text, p c = true) ∧ ∀ c ∈ rest.head?, p c = false := by
  have hall : ∀ c ∈ text, p c = true := by
    rw [← h]
    exact fun c hc => List.mem_takeWhile_imp hc
  refine ⟨hall, fun c hc => ?_⟩
  rw [List.takeWhile_append_of_pos hall, List.append_right_eq_self] at h
  cases rest with
  | nil => cases hc
  | cons head more =>
    cases Option.mem_some_iff.mp hc
    by_contra hp
    rw [List.takeWhile_cons_of_pos (Bool.not_eq_false _ ▸ hp)] at h
    cases h

/-- A run of characters ends where one does not pass. -/
theorem takeWhile_eq_of_stops {p : Char → Bool} (hall : ∀ c ∈ text, p c = true)
    (hstop : ∀ c ∈ rest.head?, p c = false) :
    (text ++ rest).takeWhile p = text ∧ (text ++ rest).dropWhile p = rest := by
  rw [List.takeWhile_append_of_pos hall, List.dropWhile_append_of_pos hall]
  cases rest with
  | nil => simp
  | cons head more =>
    have hhead : ¬ p head = true := Bool.eq_false_iff.mp (hstop head rfl)
    rw [List.takeWhile_cons_of_neg hhead, List.dropWhile_cons_of_neg hhead, List.append_nil]
    exact ⟨rfl, rfl⟩

/-- What a text starts with that stops in front of breaks. -/
theorem stops_cut {p : Char → Bool} (hbreak : ∀ c, isBreak c = true → p c = false)
    (h : ∀ c ∈ rest.head?, p c = false) (hcut : Cut Breaks rest rest') :
    ∀ c ∈ rest'.head?, p c = false := by
  rcases hcut.ends_or_cons with hbreaks | ⟨c, more, more', rfl, rfl, -⟩
  · exact fun c hc => hbreak c (hbreaks c hc)
  · exact h

/-- A run of characters that no break belongs to is the same in front of a cut. -/
theorem takeWhile_cut {p : Char → Bool} (hbreak : ∀ c, isBreak c = true → p c = false)
    (h : (text ++ rest).takeWhile p = text) (hcut : Cut Breaks rest rest') :
    (text ++ rest').takeWhile p = text ∧ (text ++ rest').dropWhile p = rest' := by
  obtain ⟨hall, hstop⟩ := eq_of_takeWhile_append h
  exact takeWhile_eq_of_stops hall (stops_cut hbreak hstop hcut)

/-- No break is one of the characters that words and numbers are made of. -/
theorem classes_of_isBreak {c : Char} (h : isBreak c = true) :
    c.isDigit = false ∧ Cursor.isHexDigit c = false ∧ continuesWord c = false := by
  simp only [isBreak, List.mem_cons, List.not_mem_nil, or_false, decide_eq_true_eq] at h
  rcases h with rfl | rfl | rfl | rfl | rfl | rfl | rfl | rfl | rfl | rfl | rfl | rfl | rfl | rfl
    <;> exact ⟨rfl, rfl, rfl⟩

/-- A break is no digit. -/
theorem isDigit_of_isBreak (c : Char) (h : isBreak c = true) : c.isDigit = false :=
  (classes_of_isBreak h).1

/-- It is none of base sixteen either. -/
theorem isHexDigit_of_isBreak (c : Char) (h : isBreak c = true) : Cursor.isHexDigit c = false :=
  (classes_of_isBreak h).2.1

/-- No word goes on with a break. -/
theorem continuesWord_of_isBreak (c : Char) (h : isBreak c = true) : continuesWord c = false :=
  (classes_of_isBreak h).2.2

/-! ### Numbers -/

open Cursor

/-- A text starts with no digit if its first character is none. -/
theorem startsWithDigit_eq_false :
    startsWithDigit text = false ↔ ∀ c ∈ text.head?, c.isDigit = false := by
  cases text with
  | nil => exact iff_of_true rfl fun c hc => by cases hc
  | cons head more =>
    constructor
    · intro h c hc
      cases Option.mem_some_iff.mp hc
      exact h
    · exact fun h => h head rfl

/-- Neither does it when it is cut. -/
theorem startsWithDigit_cut (h : startsWithDigit rest = false) (hcut : Cut Breaks rest rest') :
    startsWithDigit rest' = false := by
  rw [startsWithDigit_eq_false] at h ⊢
  exact stops_cut isDigit_of_isBreak h hcut

/-- A text that starts with a digit has a run of digits in front. -/
theorem startsWithDigit_append {digits : List Char} (hne : digits ≠ [])
    (hall : ∀ c ∈ digits, c.isDigit = true) (rest : List Char) :
    startsWithDigit (digits ++ rest) = true := by
  obtain ⟨digit, more, rfl⟩ := List.exists_cons_of_ne_nil hne
  exact hall digit List.mem_cons_self

/-- The fraction of a number and what follows it are the text. -/
theorem splitFraction_append (text : List Char) :
    (splitFraction text).1 ++ (splitFraction text).2 = text := by
  unfold splitFraction
  split
  · split
    · rw [List.cons_append, List.takeWhile_append_dropWhile]
    · rfl
  · rfl

/-- So are a sign and what follows it. -/
theorem splitSign_append (text : List Char) :
    (splitSign text).1 ++ (splitSign text).2 = text := by
  unfold splitSign
  split <;> rfl

/-- So are the exponent of a number and what follows it. -/
theorem splitExponent_append (text : List Char) :
    (splitExponent text).1 ++ (splitExponent text).2 = text := by
  cases text with
  | nil => rfl
  | cons e rest =>
    have hsign := splitSign_append rest
    simp only [splitExponent]
    split
    · split
      · rw [List.cons_append, List.cons_append, List.append_assoc, List.takeWhile_append_dropWhile,
          hsign]
      · rfl
    · rfl

/-- There is no fraction without a point. -/
theorem splitFraction_of_ne {c : Char} (h : c ≠ '.') (rest : List Char) :
    splitFraction (c :: rest) = ([], c :: rest) := by
  unfold splitFraction
  split
  · rename_i heq
    exact absurd (List.cons.inj heq).1 h
  · rfl

/-- A point with digits behind it starts a fraction. -/
theorem splitFraction_digits {digits : List Char} (hne : digits ≠ [])
    (hall : ∀ c ∈ digits, c.isDigit = true) (rest : List Char) :
    splitFraction ('.' :: (digits ++ rest)) = ('.' :: (digits ++ rest).takeWhile Char.isDigit,
      (digits ++ rest).dropWhile Char.isDigit) := by
  rw [splitFraction, if_pos (startsWithDigit_append hne hall rest)]

/-- A fraction that is there is a point with all the digits behind it. -/
theorem digits_of_splitFraction (hne : text ≠ [])
    (h : splitFraction (text ++ rest) = (text, rest)) : ∃ digits, text = '.' :: digits
      ∧ digits ≠ [] ∧ (digits ++ rest).takeWhile Char.isDigit = digits := by
  obtain ⟨dot, digits, rfl⟩ := List.exists_cons_of_ne_nil hne
  rw [List.cons_append] at h
  have hdot : dot = '.' := by
    by_contra hdot
    rw [splitFraction_of_ne hdot] at h
    cases h
  have hdigit : startsWithDigit (digits ++ rest) = true := by
    by_contra hdigit
    rw [hdot, splitFraction, if_neg hdigit] at h
    cases h
  rw [hdot, splitFraction, if_pos hdigit] at h
  have hdigits : (digits ++ rest).takeWhile Char.isDigit = digits :=
    (List.cons.inj (Prod.mk.inj h).1).2
  refine ⟨digits, by rw [hdot], ?_, hdigits⟩
  rintro rfl
  cases rest with
  | nil => cases hdigit
  | cons c more => cases (List.takeWhile_cons_of_pos (l := more) hdigit).symm.trans hdigits

/-- The fraction of a number is the same in front of a cut. -/
theorem splitFraction_cut (h : splitFraction (text ++ rest) = (text, rest))
    (hcut : Cut Breaks rest rest') : splitFraction (text ++ rest') = (text, rest') := by
  by_cases hne : text = []
  · subst hne
    rw [List.nil_append] at h ⊢
    rcases hcut.ends_or_cons with hbreaks | ⟨c, more, more', rfl, rfl, hmore⟩
    · cases rest' with
      | nil => rfl
      | cons c more =>
        refine splitFraction_of_ne (fun hdot => ?_) more
        have hbreak := hbreaks c rfl
        rw [hdot] at hbreak
        cases hbreak
    -- The cut is behind `c`, so only the digit behind a dot could be new.
    · by_cases hdot : c = '.'
      · have hdigit : startsWithDigit more = false := by
          by_contra hdigit
          rw [hdot, splitFraction, if_pos (Bool.not_eq_false _ ▸ hdigit)] at h
          cases h
        rw [hdot, splitFraction, startsWithDigit_cut hdigit hmore, if_neg Bool.false_ne_true]
      · exact splitFraction_of_ne hdot more'
  · obtain ⟨digits, rfl, hne, hdigits⟩ := digits_of_splitFraction hne h
    obtain ⟨htake, hdrop⟩ := takeWhile_cut isDigit_of_isBreak hdigits hcut
    rw [List.cons_append, splitFraction_digits hne (eq_of_takeWhile_append hdigits).1, htake, hdrop]

/-- In front of a digit there is no sign. -/
theorem splitSign_of_isDigit {c : Char} (h : c.isDigit = true) (rest : List Char) :
    splitSign (c :: rest) = ([], c :: rest) := by
  unfold splitSign
  split
  · cases (List.cons.inj ‹_›).1
    cases h
  · cases (List.cons.inj ‹_›).1
    cases h
  · rfl

/-- A sign with no digit behind it has none in front of a cut either. -/
theorem splitSign_cut (h : startsWithDigit (splitSign rest).2 = false)
    (hcut : Cut Breaks rest rest') : startsWithDigit (splitSign rest').2 = false := by
  rcases hcut.ends_or_cons with hbreaks | ⟨c, more, more', rfl, rfl, hmore⟩
  · cases rest' with
    | nil => rfl
    | cons c more =>
      have hbreak := hbreaks c rfl
      unfold splitSign
      split
      · cases (List.cons.inj ‹_›).1
        cases hbreak
      · cases (List.cons.inj ‹_›).1
        cases hbreak
      · exact isDigit_of_isBreak c hbreak
  · by_cases hplus : c = '+'
    · subst hplus
      exact startsWithDigit_cut h hmore
    · by_cases hminus : c = '-'
      · subst hminus
        exact startsWithDigit_cut h hmore
      · unfold splitSign at h ⊢
        split at h
        · exact absurd (List.cons.inj ‹_›).1 hplus
        · exact absurd (List.cons.inj ‹_›).1 hminus
        · split
          · exact absurd (List.cons.inj ‹_›).1 hplus
          · exact absurd (List.cons.inj ‹_›).1 hminus
          · exact h

/-- A sign with digits behind it is the same sign before any rest. -/
theorem splitSign_digits {sign digits : List Char} (hne : digits ≠ [])
    (hall : ∀ c ∈ digits, c.isDigit = true)
    (h : splitSign (sign ++ (digits ++ rest)) = (sign, digits ++ rest)) (rest' : List Char) :
    splitSign (sign ++ (digits ++ rest')) = (sign, digits ++ rest') := by
  obtain ⟨digit, more, rfl⟩ := List.exists_cons_of_ne_nil hne
  unfold splitSign at h
  split at h
  · cases (Prod.mk.inj h).1
    rfl
  · cases (Prod.mk.inj h).1
    rfl
  · cases (Prod.mk.inj h).1
    exact splitSign_of_isDigit (hall digit List.mem_cons_self) _

/-- An exponent is an `e`, a sign if there is one, and digits, of which there is one at least. -/
theorem splitExponent_cons (e : Char) (rest : List Char) : splitExponent (e :: rest)
    = if (e = 'e' ∨ e = 'E') ∧ startsWithDigit (splitSign rest).2 = true then
        (e :: ((splitSign rest).1 ++ (splitSign rest).2.takeWhile Char.isDigit),
          (splitSign rest).2.dropWhile Char.isDigit)
      else ([], e :: rest) := by
  simp only [splitExponent, Bool.or_eq_true, decide_eq_true_eq]
  by_cases he : e = 'e' ∨ e = 'E'
  · rw [if_pos he]
    by_cases hdigit : startsWithDigit (splitSign rest).2 = true
    · rw [if_pos hdigit, if_pos ⟨he, hdigit⟩]
      rfl
    · rw [if_neg hdigit, if_neg fun h => hdigit h.2]
  · rw [if_neg he, if_neg fun h => he h.1]

/-- The exponent of a number is the same in front of a cut. -/
theorem splitExponent_cut (h : splitExponent (text ++ rest) = (text, rest))
    (hcut : Cut Breaks rest rest') : splitExponent (text ++ rest') = (text, rest') := by
  cases text with
  | nil =>
    rw [List.nil_append] at h ⊢
    rcases hcut.ends_or_cons with hbreaks | ⟨e, more, more', rfl, rfl, hmore⟩
    · cases rest' with
      | nil => rfl
      | cons e more =>
        have hbreak := hbreaks e rfl
        rw [splitExponent_cons, if_neg]
        rintro ⟨rfl | rfl, -⟩ <;> cases hbreak
    -- The cut is behind `e`, so only the digits of an exponent could be new.
    · rw [splitExponent_cons] at h ⊢
      by_cases he : e = 'e' ∨ e = 'E'
      · have hdigit : startsWithDigit (splitSign more).2 = false := by
          by_contra hdigit
          rw [if_pos ⟨he, Bool.not_eq_false _ ▸ hdigit⟩] at h
          cases h
        rw [splitSign_cut hdigit hmore, if_neg fun h => Bool.false_ne_true h.2]
      · rw [if_neg fun h => he h.1]
  | cons e signed =>
    rw [List.cons_append, splitExponent_cons] at h ⊢
    by_cases hexponent : (e = 'e' ∨ e = 'E') ∧ startsWithDigit (splitSign (signed ++ rest)).2 = true
    · rw [if_pos hexponent] at h
      obtain ⟨htext, hrest⟩ := Prod.mk.inj h
      have hsigned := (List.cons.inj htext).2
      have happend := splitSign_append (signed ++ rest)
      -- What is read is `e`, a sign and a run of digits that ends where the rest starts.
      generalize hsign : (splitSign (signed ++ rest)).1 = sign at hsigned happend
      generalize hdigits : (splitSign (signed ++ rest)).2 = behind
        at hsigned happend hrest hexponent
      generalize hrun : behind.takeWhile Char.isDigit = digits at hsigned
      have hbehind : behind = digits ++ rest := by
        rw [← hrun, ← hrest, List.takeWhile_append_dropWhile]
      subst hbehind
      have hne : digits ≠ [] := by
        rintro rfl
        cases rest with
        | nil => cases hexponent.2
        | cons c more =>
          cases (List.takeWhile_cons_of_pos (l := more) hexponent.2).symm.trans hrun
      have hall := (eq_of_takeWhile_append hrun).1
      have hsplit : splitSign (sign ++ (digits ++ rest)) = (sign, digits ++ rest) := by
        rw [happend, ← hsign, ← hdigits]
      have hsplit' := splitSign_digits hne hall hsplit rest'
      obtain ⟨htake, hdrop⟩ := takeWhile_cut isDigit_of_isBreak hrun hcut
      rw [← hsigned, List.append_assoc, hsplit', if_pos, htake, hdrop]
      exact ⟨hexponent.1, startsWithDigit_append hne hall rest'⟩
    · rw [if_neg hexponent] at h
      cases h

/-- A text that is marked as a number of base sixteen starts with a zero and the mark. -/
theorem splitNumber_hex (mark : Char) (h : mark = 'x' ∨ mark = 'X') (text : List Char) :
    splitNumber ('0' :: mark :: text)
      = ('0' :: mark :: text.takeWhile isHexDigit, text.dropWhile isHexDigit) := by
  rcases h with rfl | rfl <;> rfl

/-- The mark of base sixteen, if a text starts with it. -/
def hexMark? : List Char → Option Char
  | '0' :: mark :: _ => if mark = 'x' ∨ mark = 'X' then some mark else none
  | _ => none

/-- Any other number has digits, a fraction and an exponent. -/
theorem splitNumber_decimal (h : hexMark? text = none) :
    splitNumber text = (text.takeWhile Char.isDigit
        ++ (splitFraction (text.dropWhile Char.isDigit)).1
        ++ (splitExponent (splitFraction (text.dropWhile Char.isDigit)).2).1,
      (splitExponent (splitFraction (text.dropWhile Char.isDigit)).2).2) := by
  unfold splitNumber
  split
  · cases h
  · cases h
  · rfl

/-- The mark of base sixteen is an `x` behind a zero. -/
theorem hexMark?_eq_some {mark : Char} (h : hexMark? text = some mark) :
    (mark = 'x' ∨ mark = 'X') ∧ ∃ more, text = '0' :: mark :: more := by
  unfold hexMark? at h
  split at h
  · split at h
    · cases h
      exact ⟨‹_›, _, rfl⟩
    · cases h
  · cases h

/-- A mark of base sixteen does not come about by a cut. -/
theorem hexMark?_cut (hne : text ≠ []) (h : hexMark? (text ++ rest) = none)
    (hcut : Cut Breaks rest rest') : hexMark? (text ++ rest') = none := by
  cases hmark : hexMark? (text ++ rest') with
  | none => rfl
  | some mark =>
    obtain ⟨hx, more, htext⟩ := hexMark?_eq_some hmark
    have hmarked : ∀ behind, hexMark? ('0' :: mark :: behind) = some mark :=
      fun _ => if_pos hx
    obtain ⟨first, tail, rfl⟩ := List.exists_cons_of_ne_nil hne
    cases tail with
    | cons second tail =>
      simp only [List.cons_append, List.cons.injEq] at htext
      obtain ⟨rfl, rfl, -⟩ := htext
      cases (hmarked _).symm.trans h
    | nil =>
      simp only [List.cons_append, List.nil_append, List.cons.injEq] at htext
      obtain ⟨rfl, rfl⟩ := htext
      rcases hcut.ends_or_cons with hbreaks | ⟨c, old, new, rfl, hnew, -⟩
      · have hbreak := hbreaks mark rfl
        rcases hx with rfl | rfl <;> cases hbreak
      · cases hnew
        cases (hmarked _).symm.trans h

/-- A number ends where it did, if what follows it is cut. -/
theorem splitNumber_cut (hne : text ≠ []) (h : splitNumber (text ++ rest) = (text, rest))
    (hcut : Cut Breaks rest rest') : splitNumber (text ++ rest') = (text, rest') := by
  cases hmark : hexMark? (text ++ rest) with
  | some mark =>
    obtain ⟨hx, more, htext⟩ := hexMark?_eq_some hmark
    rw [htext, splitNumber_hex mark hx] at h
    obtain ⟨rfl, hrest⟩ := Prod.mk.inj h
    have hdigits : more.takeWhile isHexDigit ++ rest = more := by
      rw [← hrest, List.takeWhile_append_dropWhile]
    have htake : (more.takeWhile isHexDigit ++ rest).takeWhile isHexDigit
        = more.takeWhile isHexDigit := by
      rw [hdigits]
    obtain ⟨htake', hdrop'⟩ := takeWhile_cut isHexDigit_of_isBreak htake hcut
    rw [List.cons_append, List.cons_append, splitNumber_hex mark hx, htake', hdrop']
  | none =>
    rw [splitNumber_decimal hmark] at h
    rw [splitNumber_decimal (hexMark?_cut hne hmark hcut)]
    -- The three parts are cut off one after the other, so the last is compared first.
    have hfraction := splitFraction_append ((text ++ rest).dropWhile Char.isDigit)
    have hexponent := splitExponent_append
      (splitFraction ((text ++ rest).dropWhile Char.isDigit)).2
    have hdigits := List.takeWhile_append_dropWhile (p := Char.isDigit) (l := text ++ rest)
    generalize hd : (text ++ rest).takeWhile Char.isDigit = digits at h hdigits
    generalize (text ++ rest).dropWhile Char.isDigit = behind at h hfraction hexponent hdigits
    generalize hf : splitFraction behind = fraction at h hfraction hexponent
    generalize he : splitExponent fraction.2 = exponent at h hexponent
    obtain ⟨rfl, hrest⟩ := Prod.mk.inj h
    obtain ⟨fraction, more⟩ := fraction
    obtain ⟨exponent, last⟩ := exponent
    simp only at hrest hfraction hexponent he
    subst hrest hexponent hfraction
    have he' := splitExponent_cut he hcut
    have hf' := splitFraction_cut hf (hcut.append exponent)
    rw [← hdigits] at hd
    obtain ⟨hd', hb'⟩ := takeWhile_cut isDigit_of_isBreak hd
      ((hcut.append exponent).append fraction)
    simp only [List.append_assoc, hd', hb', hf', he']

end Facade
