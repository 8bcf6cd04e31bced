import Facade.Definition.Identifier

/-!
# Names as Scala reads them

Scala reads an identifier that is a word and none of its own, or any text between backquotes that
stays on its line. `Readable` is that grammar, said of the text alone. A name is written as such an
identifier exactly if it is not empty and has no line break (`readable_display_iff`): backquotes in
it are replaced, line breaks are not.

`ofDisplay` reads a name with the backquotes replaced (`ofDisplay_display_eq`). Where it has none,
that is the name again, and two names are never written alike (`ofDisplay_display`, `display_inj`).
Words are such names.
-/

set_option autoImplicit false

namespace Facade

open Facade.Text

namespace Identifier

/-! ### The grammar -/

/-- The characters that end a line of Scala. -/
def EndsLine (c : Char) : Prop :=
  c = '\n' ∨ c = '\r'

/-- Whether a character ends a line is decided by comparing it. -/
instance : DecidablePred EndsLine := fun _ => inferInstanceAs (Decidable (_ ∨ _))

/-- An identifier of Scala: a word that is not reserved, or something between backquotes. -/
inductive Readable : String → Prop where
  | plain {text : String} : isWord text.toList = true → text ∉ reserved → Readable text
  | quoted {inner : List Char} : inner ≠ [] → (∀ c ∈ inner, c ≠ '`' ∧ ¬ EndsLine c) →
      Readable ("`" ++ String.ofList inner ++ "`")

/-- The name is not empty and stays on its line. -/
structure Legible (name : Identifier) : Prop where
  nonempty : name.raw ≠ ""
  unbroken : ∀ c ∈ name.raw.toList, ¬ EndsLine c

/-! ### Words -/

/-- Every character of a word continues one. -/
theorem continuesWord_of_isWord {text : List Char} (h : isWord text = true) :
    ∀ c ∈ text, continuesWord c = true := by
  cases text with
  | nil => cases h
  | cons first rest =>
    rw [isWord, Bool.and_eq_true, List.all_eq_true] at h
    exact List.forall_mem_cons.mpr ⟨continuesWord_of_startsWord h.1, h.2⟩

/-- A character that continues a word ends no line. -/
theorem not_endsLine_of_continuesWord {c : Char} (h : continuesWord c = true) : ¬ EndsLine c := by
  rintro (rfl | rfl) <;> revert h <;> decide

/-- Nor is it a backquote. -/
theorem ne_backquote_of_continuesWord {c : Char} (h : continuesWord c = true) : c ≠ '`' := by
  rintro rfl
  revert h
  decide

/-- The name is a word. -/
def IsWord (name : Identifier) : Prop :=
  isWord name.raw.toList = true

/-- Whether a name is a word is computed. -/
instance : DecidablePred IsWord := fun _ => inferInstanceAs (Decidable (_ = _))

/-- A word is not empty. -/
theorem IsWord.nonempty {name : Identifier} (h : name.IsWord) : name.raw ≠ "" := by
  intro hempty
  rw [IsWord, hempty] at h
  cases h

/-- A word is legible. -/
theorem IsWord.legible {name : Identifier} (h : name.IsWord) : name.Legible where
  nonempty := h.nonempty
  unbroken c hc := not_endsLine_of_continuesWord (continuesWord_of_isWord h c hc)

/-- A word with a number behind it is a word. -/
theorem isWord_append_number {word : String} (h : isWord word.toList = true) (number : Nat) :
    IsWord ⟨word ++ toString number⟩ := by
  have hdigits : ∀ c ∈ (toString number).toList, continuesWord c = true := by
    intro c hc
    have hin : c ∈ Nat.toDigits 10 number := by
      simpa [toString, Nat.repr] using hc
    have hdigit := Nat.isDigit_of_mem_toDigits (by decide) (by decide) hin
    have hascii : c.toNat < 0x80 := by
      simp only [Char.isDigit, Bool.and_eq_true, decide_eq_true_eq] at hdigit
      have hle : c.toNat ≤ 57 := UInt32.le_iff_toNat_le.mp hdigit.2
      omega
    rw [continuesWord, isNumeral, if_pos hascii, hdigit, Bool.or_true, Bool.true_or, Bool.true_or]
  rw [IsWord, String.toList_append]
  cases hword : word.toList with
  | nil =>
    rw [hword] at h
    cases h
  | cons first rest =>
    rw [hword, isWord, Bool.and_eq_true] at h
    rw [List.cons_append, isWord, h.1, List.all_append, h.2, List.all_eq_true.mpr hdigits]
    rfl

/-! ### What is written is read -/

/-- A name that is written without backquotes is a word. -/
theorem isWord_of_isPlain {name : Identifier} (h : name.isPlain = true) :
    isWord name.raw.toList = true := by
  rw [isPlain, Bool.and_eq_true] at h
  exact h.1

/-- It is no reserved one. -/
theorem not_mem_reserved_of_isPlain {name : Identifier} (h : name.isPlain = true) :
    name.raw ∉ reserved := by
  simp only [isPlain, Bool.and_eq_true, Bool.not_eq_true'] at h
  intro hin
  rw [List.contains_iff_mem.mpr hin] at h
  cases h.2

/-- Behind the replacement, no character is a backquote. -/
theorem withoutBackquote_ne (c : Char) : withoutBackquote c ≠ '`' := by
  unfold withoutBackquote
  split
  · decide
  · assumption

/-- Only backquotes are replaced, so line breaks are left where they are. -/
theorem endsLine_withoutBackquote {c : Char} : EndsLine (withoutBackquote c) ↔ EndsLine c := by
  unfold withoutBackquote
  split
  · rename_i hc
    subst hc
    decide
  · exact Iff.rfl

/-- Every other name is written between backquotes, with those in it replaced. -/
theorem toList_display_of_not_isPlain {name : Identifier} (h : name.isPlain = false) :
    name.display.toList = '`' :: name.raw.toList.map withoutBackquote ++ ['`'] := by
  rw [display, if_neg (by rw [h]; exact Bool.false_ne_true)]
  simp

/-- A name is written as an identifier of Scala exactly if it is legible. -/
theorem readable_display_iff (name : Identifier) : Readable name.display ↔ name.Legible := by
  cases hplain : name.isPlain with
  | true =>
    have hword := isWord_of_isPlain hplain
    rw [display, if_pos hplain]
    exact iff_of_true (.plain hword (not_mem_reserved_of_isPlain hplain)) (IsWord.legible hword)
  | false =>
    have hdisplay := toList_display_of_not_isPlain hplain
    constructor
    · intro hreadable
      generalize hwritten : name.display = written at hreadable hdisplay
      cases hreadable with
      | plain hword =>
        -- A word does not start with a backquote.
        rw [hdisplay, List.cons_append, isWord, Bool.and_eq_true] at hword
        exact absurd hword.1 (by decide)
      | @quoted inner hne hinner =>
        have heq : inner = name.raw.toList.map withoutBackquote := by
          simpa using hdisplay
        subst heq
        rw [List.forall_mem_map] at hinner
        refine ⟨fun hempty => hne (by rw [hempty]; rfl), fun c hc hends => ?_⟩
        exact (hinner c hc).2 (endsLine_withoutBackquote.mpr hends)
    · intro hlegible
      rw [display, if_neg (by rw [hplain]; exact Bool.false_ne_true)]
      refine .quoted ?_ (List.forall_mem_map.mpr fun c hc => ?_)
      · simpa using hlegible.nonempty
      · exact ⟨withoutBackquote_ne c, fun hends =>
          hlegible.unbroken c hc (endsLine_withoutBackquote.mp hends)⟩

/-- A name that is not empty is not written as nothing. -/
theorem display_ne_empty {name : Identifier} (h : name.raw ≠ "") : name.display ≠ "" := by
  rw [display]
  split
  · exact h
  · simp

/-! ### What is written is told apart -/

/-- Nothing is replaced in a text without backquotes. -/
theorem map_withoutBackquote {text : List Char} (h : '`' ∉ text) :
    text.map withoutBackquote = text := by
  have heach : ∀ c ∈ text, withoutBackquote c = c := by
    intro c hc
    refine if_neg fun heq => ?_
    subst heq
    exact h hc
  rw [List.map_congr_left heach, List.map_id']

/-- A word does not stand between backquotes. -/
theorem betweenBackquotes?_of_isWord {text : List Char} (h : isWord text = true) :
    betweenBackquotes? text = none := by
  unfold betweenBackquotes?
  split
  · rw [isWord, Bool.and_eq_true] at h
    exact absurd h.1 (by decide)
  · rfl

/-- There is no backquote in a word. -/
theorem IsWord.no_backquote {name : Identifier} (h : name.IsWord) : '`' ∉ name.raw.toList :=
  fun hin => ne_backquote_of_continuesWord (continuesWord_of_isWord h _ hin) rfl

/-- A name is read with underscores for its backquotes, whichever way it is written. -/
theorem ofDisplay_display_eq {name : Identifier} (hne : name.raw ≠ "") :
    ofDisplay name.display = ⟨String.ofList (name.raw.toList.map withoutBackquote)⟩ := by
  cases hplain : name.isPlain with
  | true =>
    have hword := isWord_of_isPlain hplain
    rw [display, if_pos hplain, ofDisplay, betweenBackquotes?_of_isWord hword,
      map_withoutBackquote (IsWord.no_backquote hword), String.ofList_toList]
  | false =>
    -- The empty name is written as two backquotes, which are read as a name of two characters.
    have hlength : 1 ≤ name.raw.toList.length :=
      List.length_pos_iff.mpr fun hempty => hne (by simpa using hempty)
    rw [ofDisplay, toList_display_of_not_isPlain hplain, List.cons_append, betweenBackquotes?]
    simp [hlength]

/-- A name without backquotes is read as it was. -/
theorem ofDisplay_display {name : Identifier} (hne : name.raw ≠ "") (h : '`' ∉ name.raw.toList) :
    ofDisplay name.display = name := by
  rw [ofDisplay_display_eq hne, map_withoutBackquote h, String.ofList_toList]

/-- Two words are written alike only if they are the same. -/
theorem display_inj {first second : Identifier} (hfirst : first.IsWord) (hsecond : second.IsWord) :
    first.display = second.display ↔ first = second := by
  have hread : ∀ {name : Identifier}, name.IsWord → ofDisplay name.display = name := by
    intro name hword
    exact ofDisplay_display hword.nonempty hword.no_backquote
  refine ⟨fun heq => ?_, fun heq => by rw [heq]⟩
  rw [← hread hfirst, ← hread hsecond, heq]

end Identifier

/-! ### Paths -/

namespace DottedName

/-- The parts of a text hold characters of it and no others. -/
theorem subset_of_mem_parts {text : List Char} : ∀ part ∈ parts text, part ⊆ text := by
  induction text with
  | nil => exact List.forall_mem_singleton.mpr (List.Subset.refl _)
  | cons c rest ih =>
    rw [parts]
    split
    · refine List.forall_mem_cons.mpr ⟨List.nil_subset _, fun part hpart => ?_⟩
      exact List.subset_cons_of_subset c (ih part hpart)
    · split
      · exact List.forall_mem_singleton.mpr (List.cons_subset_cons c (List.nil_subset _))
      · rename_i part more hparts
        rw [hparts, List.forall_mem_cons] at ih
        refine List.forall_mem_cons.mpr ⟨List.cons_subset_cons c ih.1, fun other hother => ?_⟩
        exact List.subset_cons_of_subset c (ih.2 other hother)

/-- So does a text without the blanks around it. -/
theorem trimBlanks_subset (text : List Char) : trimBlanks text ⊆ text := by
  intro c hc
  rw [trimBlanks, List.mem_reverse] at hc
  have hfront := (List.dropWhile_sublist _).subset hc
  rw [List.mem_reverse] at hfront
  exact (List.dropWhile_sublist _).subset hfront

/-- The names of a path that is read are parts of its text, and not empty. -/
theorem of_mem_ofText {text : String} :
    ∀ name ∈ (ofText text).segments, name.raw ≠ "" ∧ name.raw.toList ⊆ text.toList := by
  refine List.forall_mem_map.mpr fun part hpart => ?_
  obtain ⟨hin, hne⟩ := List.mem_filter.mp hpart
  obtain ⟨given, hgiven, rfl⟩ := List.mem_map.mp hin
  rw [String.toList_ofList]
  refine ⟨fun hempty => of_decide_eq_true hne (by simpa using hempty), ?_⟩
  exact List.Subset.trans (trimBlanks_subset given) (subset_of_mem_parts given hgiven)

end DottedName

end Facade
