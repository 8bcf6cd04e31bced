import Facade.Proofs.Token.Scanned

/-!
# Scanning part of a text

The tokens of a part of a text are the same wherever that part stands, as long as no token runs
over its end. `Cursor.Scans` relates a cursor to one further on by the tokens between them, and
`Scans.spells` says what may be changed around them: the offset at which the text starts, and all
that follows the last of the tokens, if it now ends there or goes on with a blank.

The pieces of the scanner are taken one by one. Each takes some characters off a text, and takes the
same off a text that is cut behind them.
-/

set_option autoImplicit false

namespace Facade

open Facade.Text

/-- The token by some bytes further on. -/
def Token.shift (bytes : Nat) (token : Token) : Token :=
  ⟨token.lexeme, token.start + bytes, token.stop + bytes⟩

/-- To move tokens twice is to move them once by both distances. -/
theorem map_shift_shift (first second : Nat) (tokens : List Token) :
    (tokens.map (Token.shift second)).map (Token.shift first)
      = tokens.map (Token.shift (first + second)) := by
  rw [List.map_map]
  refine List.map_congr_left fun token _ => ?_
  simp only [Function.comp, Token.shift, Nat.add_assoc, Nat.add_comm second first]

/-- A text that is empty or goes on with a space or a line feed. -/
def Stops (text : List Char) : Prop :=
  ∀ c ∈ text.head?, c = ' ' ∨ c = '\n'

/-- What stops a token at a space or a line feed breaks it. -/
theorem Stops.breaks {text : List Char} (h : Stops text) : Breaks text := by
  intro c hc
  rcases h c hc with rfl | rfl <;> rfl

namespace Cursor

variable {text rest new : List Char} {n m : Nat}

/-! ### Blank space -/

/-- Whether a text starts with a comment. -/
def startsComment (text : List Char) : Bool :=
  text.take 2 ∈ [['/', '/'], ['/', '*']]

/-- A comment starts with a slash. -/
theorem startsComment_of_ne {c : Char} (h : c ≠ '/') (text : List Char) :
    startsComment (c :: text) = false := by
  simp [startsComment, h]

/-- A slash with neither a slash nor a star behind it starts no comment. -/
theorem startsComment_eq_false {c : Char}
    (hline : ∀ more, c = '/' → text = '/' :: more → False)
    (hblock : ∀ more, c = '/' → text = '*' :: more → False) :
    startsComment (c :: text) = false := by
  cases text with
  | nil => simp [startsComment]
  | cons d more => simpa [startsComment] using ⟨fun hc hd => hline more hc (hd ▸ rfl),
      fun hc hd => hblock more hc (hd ▸ rfl)⟩

/-- Outside of comments, a blank character is skipped, and any other ends the blank space. -/
theorem skipBlank_space {c : Char} (h : startsComment (c :: text) = false) (n : Nat) :
    skipBlank .space (c :: text) n
      = if isBlank c || c == '\uFEFF' then skipBlank .space text (n + c.utf8Size)
        else .ok ⟨c :: text, n⟩ := by
  rw [skipBlank.eq_def]
  grind [startsComment]

/-- A blank character starts no comment. -/
theorem skipBlank_blank {c : Char} (h : (isBlank c || c == '\uFEFF') = true) (text : List Char)
    (n : Nat) : skipBlank .space (c :: text) n = skipBlank .space text (n + c.utf8Size) := by
  have hc : c ≠ '/' := by
    rintro rfl
    revert h
    decide
  rw [skipBlank_space (startsComment_of_ne hc text), if_pos h]

/-- In a block comment, every character that does not close it is skipped. -/
theorem skipBlank_blockComment {c : Char} (h : ¬ (c = '*' ∧ text.head? = some '/'))
    (opened : Cursor) (n : Nat) : skipBlank (.blockComment opened) (c :: text) n
      = skipBlank (.blockComment opened) text (n + c.utf8Size) := by
  rw [skipBlank.eq_def]
  grind

/-- In a line comment, every character is skipped, and a line feed ends the comment. -/
theorem skipBlank_lineComment (c : Char) (text : List Char) (n : Nat) :
    skipBlank .lineComment (c :: text) n
      = skipBlank (if c = '\n' then .space else .lineComment) text (n + c.utf8Size) := by
  rw [skipBlank.eq_def]

/-- A line comment may end with the text. -/
theorem skipBlank_lineComment_nil (n : Nat) : skipBlank .lineComment [] n = .ok ⟨[], n⟩ := by
  rw [skipBlank.eq_def]

/-- So may blank space. -/
theorem skipBlank_nil (n : Nat) : skipBlank .space [] n = .ok ⟨[], n⟩ := by
  rw [skipBlank.eq_def]

/-- Two slashes open a line comment. -/
theorem skipBlank_opens_lineComment (text : List Char) (n : Nat) :
    skipBlank .space ('/' :: '/' :: text) n = skipBlank .lineComment text (n + 2) := by
  rw [skipBlank.eq_def]
  grind

/-- A slash and a star open a block comment. -/
theorem skipBlank_opens_blockComment (text : List Char) (n : Nat) :
    skipBlank .space ('/' :: '*' :: text) n
      = skipBlank (.blockComment ⟨text, n + 2⟩) text (n + 2) := by
  rw [skipBlank.eq_def]
  grind

/-- A cut keeps the start of a text from being a comment. -/
theorem startsComment_cut (h : startsComment (text ++ rest) = false) (hne : text ≠ [])
    (hcut : Cut Stops rest new) : startsComment (text ++ new) = false := by
  obtain ⟨c, more, rfl⟩ := List.exists_cons_of_ne_nil hne
  by_cases hc : c = '/'
  · subst hc
    cases more with
    | cons d more => exact h
    | nil =>
      rcases hcut.ends_or_cons with hstops | ⟨d, old, new, rfl, rfl, -⟩
      · cases new with
        | nil => rfl
        | cons d new => rcases hstops d rfl with rfl | rfl <;> rfl
      · exact h
  · exact startsComment_of_ne hc _

/-- Two places to be inside of, of one sort. -/
inductive Blank.Like : Blank → Blank → Prop where
  | space : Like .space .space
  | lineComment : Like .lineComment .lineComment
  | blockComment (opened opened' : Cursor) : Like (.blockComment opened) (.blockComment opened')

/-- What may stand behind blank space in place of a text: it starts with the same character, and
with no comment. -/
structure Resumes (rest new : List Char) : Prop where
  head : new.head? = rest.head?
  comment : startsComment new = false

/-- Some characters are skipped as blank space, wherever they stand and whatever comes behind them
in place of what came there. -/
structure Skips (inside : Blank) (taken rest : List Char) : Prop where
  comment : startsComment rest = false
  nonempty : ∀ opened, inside = .blockComment opened → taken ≠ []
  skip : ∀ new, Resumes rest new → ∀ (inside' : Blank) (k : Nat), inside.Like inside' →
    skipBlank inside' (taken ++ new) k = .ok ⟨new, k + byteLength taken⟩

/-- Where blank space ends, nothing is skipped. -/
theorem Skips.nil {inside : Blank} (hcomment : startsComment rest = false)
    (hopened : ∀ opened, inside ≠ .blockComment opened)
    (h : ∀ new, Resumes rest new → ∀ (inside' : Blank) (k : Nat), inside.Like inside' →
      skipBlank inside' new k = .ok ⟨new, k⟩) : Skips inside [] rest where
  comment := hcomment
  nonempty opened heq := absurd heq (hopened opened)
  skip := h

/-- To skip some characters first. -/
theorem Skips.append {inside between : Blank} {front taken : List Char} (hne : front ≠ [])
    (h : Skips between taken rest)
    (hfront : ∀ new, Resumes rest new → ∀ (inside' : Blank) (k : Nat), inside.Like inside' →
      ∃ between', between.Like between' ∧ skipBlank inside' (front ++ (taken ++ new)) k
        = skipBlank between' (taken ++ new) (k + byteLength front)) :
    Skips inside (front ++ taken) rest where
  comment := h.comment
  nonempty _ _ := List.append_ne_nil_of_left_ne_nil hne _
  skip new hnew inside' k hlike := by
    obtain ⟨between', hbetween, heq⟩ := hfront new hnew inside' k hlike
    rw [List.append_assoc, heq, h.skip new hnew between' _ hbetween, byteLength_append,
      Nat.add_assoc]

/-- What is skipped as blank space. -/
theorem skips_of_skipBlank {inside : Blank} (h : skipBlank inside text n = .ok ⟨rest, m⟩) :
    ∃ taken, text = taken ++ rest ∧ m = n + byteLength taken ∧ Skips inside taken rest := by
  fun_induction skipBlank inside text n with
  | case1 text n ih =>
    obtain ⟨taken, rfl, rfl, hskips⟩ := ih h
    refine ⟨['/', '/'] ++ taken, rfl, by rw [byteLength_append, ← Nat.add_assoc]; rfl,
      hskips.append (List.cons_ne_nil _ _) fun new _ inside' k hlike => ?_⟩
    cases hlike
    exact ⟨.lineComment, .lineComment, rfl⟩
  | case2 text n ih =>
    obtain ⟨taken, rfl, rfl, hskips⟩ := ih h
    refine ⟨['/', '*'] ++ taken, rfl, by rw [byteLength_append, ← Nat.add_assoc]; rfl,
      hskips.append (List.cons_ne_nil _ _) fun new _ inside' k hlike => ?_⟩
    cases hlike
    exact ⟨.blockComment _, .blockComment _ _, rfl⟩
  | case3 c text n hline hblock hblank ih =>
    obtain ⟨taken, rfl, rfl, hskips⟩ := ih h
    refine ⟨[c] ++ taken, rfl, by simp [byteLength, Nat.add_assoc],
      hskips.append (List.cons_ne_nil _ _) fun new _ inside' k hlike => ?_⟩
    cases hlike
    refine ⟨.space, .space, ?_⟩
    rw [List.singleton_append, skipBlank_blank hblank]
    rfl
  | case4 c text n hline hblock hblank =>
    cases h
    refine ⟨[], rfl, rfl, .nil (startsComment_eq_false hline hblock) (fun _ => Blank.noConfusion)
      fun new hnew inside' k hlike => ?_⟩
    cases hlike
    obtain ⟨hhead, hcomment⟩ := hnew
    obtain ⟨more, rfl⟩ := List.head?_eq_some_iff.mp hhead
    rw [skipBlank_space hcomment, if_neg hblank]
  | case5 c text n ih =>
    obtain ⟨taken, rfl, rfl, hskips⟩ := ih h
    refine ⟨[c] ++ taken, rfl, by simp [byteLength, Nat.add_assoc],
      hskips.append (List.cons_ne_nil _ _) fun new _ inside' k hlike => ?_⟩
    cases hlike
    refine ⟨if c = '\n' then .space else .lineComment, ?_, rfl⟩
    split
    · exact .space
    · exact .lineComment
  | case6 opened text n ih =>
    obtain ⟨taken, rfl, rfl, hskips⟩ := ih h
    refine ⟨['*', '/'] ++ taken, rfl, by rw [byteLength_append, ← Nat.add_assoc]; rfl,
      hskips.append (List.cons_ne_nil _ _) fun new _ inside' k hlike => ?_⟩
    cases hlike
    exact ⟨.space, .space, rfl⟩
  | case7 opened c text n hnot ih =>
    obtain ⟨taken, rfl, rfl, hskips⟩ := ih h
    refine ⟨[c] ++ taken, rfl, by simp [byteLength, Nat.add_assoc],
      hskips.append (List.cons_ne_nil _ _) fun new _ inside' k hlike => ?_⟩
    cases hlike with
    | blockComment _ opened' =>
      refine ⟨.blockComment opened', .blockComment _ _, ?_⟩
      -- There is more of the comment, so what comes behind the character does not change.
      obtain ⟨d, more, rfl⟩ := List.exists_cons_of_ne_nil (hskips.nonempty opened rfl)
      rw [List.singleton_append, skipBlank_blockComment]
      · rfl
      · rintro ⟨rfl, hslash⟩
        cases Option.some.inj hslash
        exact hnot _ rfl rfl
  | case8 opened n => cases h
  | case9 inside n hnot =>
    cases h
    refine ⟨[], rfl, rfl, .nil rfl hnot fun new hnew inside' k hlike => ?_⟩
    cases List.head?_eq_none_iff.mp hnew.head
    cases hlike with
    | space => rfl
    | lineComment => rfl
    | blockComment opened => exact absurd rfl (hnot opened)

/-! ### Strings -/

/-- A backslash would have escaped the character behind it, or it would be the last one. -/
theorem ne_backslash {c : Char} {text : List Char} (hsingle : c = '\\' → text = [] → False)
    (hescape : ∀ (other : Char) (rest : List Char), c = '\\' → text = other :: rest → False) :
    c ≠ '\\' := by
  intro heq
  cases text with
  | nil => exact hsingle heq rfl
  | cons other rest => exact hescape other rest heq rfl

/-- A string goes on behind a character that is not a backslash, unless the character is a line feed
or the quote. -/
theorem readQuoted_cons {c : Char} (h : c ≠ '\\') (quote : Char) (text : List Char) (n : Nat) :
    readQuoted quote (c :: text) n
      = if c = '\n' then ⟨[], false, ⟨text, n + 1⟩⟩
        else if c = quote then ⟨[], true, ⟨text, n + c.utf8Size⟩⟩
        else (readQuoted quote text (n + c.utf8Size)).prepend [c] := by
  rw [readQuoted.eq_def]
  grind

/-- A string that is closed is read as it is, wherever it stands and whatever comes behind it. -/
theorem readQuoted_taken {quote : Char} (h : (readQuoted quote text n).closed = true) :
    ∃ taken, text = taken ++ (readQuoted quote text n).after.rest
      ∧ (readQuoted quote text n).after.offset = n + byteLength taken
      ∧ ∀ new k, readQuoted quote (taken ++ new) k
        = ⟨(readQuoted quote text n).value, true, ⟨new, k + byteLength taken⟩⟩ := by
  fun_induction readQuoted quote text n with
  | case1 n => cases h
  | case2 n => cases h
  -- An escape takes the character behind it as well.
  | case3 c text n ih =>
    obtain ⟨taken, htext, hoffset, hread⟩ := ih h
    have hsize : ∀ k : Nat, k + byteLength ('\\' :: c :: taken)
        = k + 1 + c.utf8Size + byteLength taken := fun k => by
      show k + (1 + (c.utf8Size + byteLength taken)) = _
      omega
    refine ⟨'\\' :: c :: taken, congrArg (fun text => '\\' :: c :: text) htext, ?_, fun new k => ?_⟩
    · rw [hsize]
      exact hoffset
    · rw [List.cons_append, List.cons_append, readQuoted, hread, hsize]
      rfl
  | case4 text n hescape => cases h
  -- The closing quote itself.
  | case5 text n hsingle hescape hline =>
    have hquote := ne_backslash hsingle hescape
    refine ⟨[quote], rfl, rfl, fun new k => ?_⟩
    rw [List.singleton_append, readQuoted_cons hquote, if_neg hline, if_pos rfl]
    rfl
  -- A character that is neither escaped nor the end.
  | case6 c text n hsingle hescape hline hquote ih =>
    have hc := ne_backslash hsingle hescape
    obtain ⟨taken, htext, hoffset, hread⟩ := ih h
    refine ⟨c :: taken, congrArg (fun text => c :: text) htext, ?_, fun new k => ?_⟩
    · exact hoffset.trans (Nat.add_assoc _ _ _)
    · rw [List.cons_append, readQuoted_cons hc, if_neg hline, if_neg hquote, hread, byteLength,
        Nat.add_assoc]
      rfl

/-! ### One token -/

/-- Where no number starts, none starts when the text behind is cut. -/
theorem startsNumber_cut {c : Char} (h : startsNumber c (text ++ rest) = false)
    (hcut : Cut Breaks rest new) : startsNumber c (text ++ new) = false := by
  simp only [startsNumber, Bool.or_eq_false_iff, Bool.and_eq_false_iff] at h ⊢
  refine ⟨h.1, h.2.imp_right fun hdigit => ?_⟩
  cases text with
  | nil => exact startsWithDigit_cut hdigit hcut
  | cons d more => exact hdigit

/-- Where a number starts in a text, it starts whatever comes behind the text. -/
theorem startsNumber_append {c : Char} (h : startsNumber c text = true) (new : List Char) :
    startsNumber c (text ++ new) = true := by
  cases text with
  | nil =>
    have hc : c.isDigit = true := by simpa [startsNumber, startsWithDigit] using h
    rw [startsNumber, hc, Bool.true_or]
  | cons d more => exact h

/-- No mark holds a space or a line feed. -/
theorem not_mem_chars_of_blank (mark : Mark) : ' ' ∉ mark.chars ∧ '\n' ∉ mark.chars := by
  cases mark <;> decide

/-- A mark that a cut text starts with is one that the text starts with. -/
theorem isPrefix_cut {mark : Mark} (hcut : Cut Stops rest new)
    (h : mark.chars <+: text ++ new) : mark.chars <+: text ++ rest := by
  obtain ⟨common, old, hstops⟩ := hcut
  rw [← List.append_assoc] at h ⊢
  rcases List.prefix_or_prefix_of_prefix h (List.prefix_append _ _) with hshort | hlong
  · exact hshort.trans (List.prefix_append _ _)
  -- A longer mark would go on with the blank behind the cut.
  · obtain ⟨more, hmore⟩ := hlong
    rw [← hmore, List.prefix_append_right_inj] at h
    cases more with
    | nil =>
      rw [← hmore, List.append_nil]
      exact List.prefix_append _ _
    | cons c more =>
      obtain ⟨tail, htail⟩ := h
      have hmem : c ∈ mark.chars := by
        rw [← hmore]
        simp
      have hblank := not_mem_chars_of_blank mark
      rcases hstops c (by rw [← htail]; rfl) with rfl | rfl
      · exact absurd hmem hblank.1
      · exact absurd hmem hblank.2

/-- The longest mark that a text starts with does not depend on what a cut removes. -/
theorem leading?_cut {mark : Mark} (h : Mark.leading? (mark.chars ++ rest) = some mark)
    (hcut : Cut Stops rest new) : Mark.leading? (mark.chars ++ new) = some mark := by
  obtain ⟨-, before, after, hall, hbefore⟩ := List.find?_eq_some_iff_append.mp h
  refine List.find?_eq_some_iff_append.mpr ⟨?_, before, after, hall, fun other hother => ?_⟩
  · exact List.isPrefixOf_iff_prefix.mpr (List.prefix_append _ _)
  · have hnot := hbefore other hother
    rw [Bool.not_eq_true', ← Bool.not_eq_true, List.isPrefixOf_iff_prefix] at hnot ⊢
    exact fun hshared => hnot (isPrefix_cut hcut hshared)

/-- Some characters make a lexeme, wherever they stand and whatever comes behind a cut. -/
def Begins (c : Char) (taken rest : List Char) (lexeme : Lexeme) : Prop :=
  ∀ new k, Cut Stops rest new → stepHere k c (taken ++ new)
    = (.ok ⟨lexeme, k, k + byteLength (c :: taken)⟩, ⟨new, k + byteLength (c :: taken)⟩)

/-- A string that is closed is the same token wherever it stands and whatever comes behind it. -/
theorem stepHere_string {c : Char} (hquote : (c = '"' || c = '\'') = true)
    (hclosed : (readQuoted c text (n + 1)).closed = true) :
    ∃ taken, text = taken ++ (readQuoted c text (n + 1)).after.rest
      ∧ (readQuoted c text (n + 1)).after.offset = n + byteLength (c :: taken)
      ∧ ∀ new k, stepHere k c (taken ++ new)
        = (.ok ⟨.string (String.ofList (readQuoted c text (n + 1)).value), k,
          k + byteLength (c :: taken)⟩, ⟨new, k + byteLength (c :: taken)⟩) := by
  obtain ⟨taken, htext, hoffset, hread⟩ := readQuoted_taken hclosed
  have hsize : ∀ k : Nat, k + byteLength (c :: taken) = k + 1 + byteLength taken := by
    intro k
    simp only [Bool.or_eq_true, decide_eq_true_eq] at hquote
    rcases hquote with rfl | rfl <;> exact (Nat.add_assoc _ _ _).symm
  refine ⟨taken, htext, by rw [hsize, hoffset], fun new k => ?_⟩
  rw [stepHere, if_pos hquote, hread, hsize]
  rfl

/-- A string that is closed makes a lexeme. -/
theorem begins_string {c : Char} (hquote : (c = '"' || c = '\'') = true)
    (hclosed : (readQuoted c text (n + 1)).closed = true) :
    ∃ taken, text = taken ++ (readQuoted c text (n + 1)).after.rest
      ∧ (readQuoted c text (n + 1)).after.offset = n + byteLength (c :: taken)
      ∧ Begins c taken (readQuoted c text (n + 1)).after.rest
        (.string (String.ofList (readQuoted c text (n + 1)).value)) := by
  obtain ⟨taken, htext, hoffset, hsame⟩ := stepHere_string hquote hclosed
  exact ⟨taken, htext, hoffset, fun new k _ => hsame new k⟩

/-- So do the characters of a number. -/
theorem begins_number {c : Char} (hquote : ¬ (c = '"' || c = '\'') = true)
    (hnumber : startsNumber c text = true) :
    ∃ taken, text = taken ++ (splitNumber (c :: text)).2 ∧ (splitNumber (c :: text)).1 = c :: taken
      ∧ Begins c taken (splitNumber (c :: text)).2
        (.number (String.ofList (splitNumber (c :: text)).1)) := by
  have happend := splitNumber_append (c :: text)
  obtain ⟨taken, htaken, hstarts⟩ := startsNumber_splitNumber hnumber
  rw [htaken, List.cons_append] at happend
  refine ⟨taken, (List.cons.inj happend).2.symm, htaken, fun new k hcut => ?_⟩
  have hsplit : splitNumber (c :: taken ++ new) = (c :: taken, new) := by
    refine splitNumber_cut (List.cons_ne_nil _ _) ?_ (hcut.mono fun _ hstops => hstops.breaks)
    rw [List.cons_append, happend, ← htaken]
  rw [stepHere, if_neg hquote, if_pos (startsNumber_append hstarts new), ← List.cons_append, hsplit,
    htaken]
  rfl

/-- So do the characters of a word. -/
theorem begins_word {c : Char} (hquote : ¬ (c = '"' || c = '\'') = true)
    (hnumber : startsNumber c text = false) (hword : startsWord c = true) :
    Begins c (text.takeWhile continuesWord) (text.dropWhile continuesWord)
      (wordLexeme (String.ofList (c :: text.takeWhile continuesWord))) := by
  have happend := List.takeWhile_append_dropWhile (p := continuesWord) (l := text)
  generalize htaken : text.takeWhile continuesWord = taken at happend
  generalize text.dropWhile continuesWord = rest at happend
  subst happend
  intro new k hcut
  have hbreaks := hcut.mono fun _ hstops => hstops.breaks
  obtain ⟨htake, hdrop⟩ := takeWhile_cut continuesWord_of_isBreak htaken hbreaks
  rw [stepHere, if_neg hquote, if_neg (Bool.eq_false_iff.mp (startsNumber_cut hnumber hbreaks)),
    if_pos hword, htake, hdrop]
  rfl

/-- So does a mark. -/
theorem begins_mark {c : Char} {mark : Mark} (hquote : ¬ (c = '"' || c = '\'') = true)
    (hnumber : startsNumber c text = false) (hword : ¬ startsWord c = true)
    (hmark : Mark.leading? (c :: text) = some mark) :
    ∃ taken, text = taken ++ (c :: text).drop mark.chars.length ∧ mark.chars = c :: taken
      ∧ Begins c taken ((c :: text).drop mark.chars.length) (.mark mark) := by
  obtain ⟨hshared, -⟩ := List.find?_eq_some_iff_append.mp hmark
  obtain ⟨rest, hrest⟩ := List.isPrefixOf_iff_prefix.mp hshared
  obtain ⟨d, taken, htaken⟩ := List.exists_cons_of_ne_nil mark.chars_ne_nil
  have hdrop : (c :: text).drop mark.chars.length = rest := by
    rw [← hrest, List.drop_left]
  rw [hdrop]
  rw [htaken, List.cons_append] at hrest
  obtain ⟨rfl, rfl⟩ := List.cons.inj hrest
  refine ⟨taken, rfl, htaken, fun new k hcut => ?_⟩
  have hleading : Mark.leading? (d :: (taken ++ new)) = some mark := by
    rw [← List.cons_append, ← htaken] at hmark ⊢
    exact leading?_cut hmark hcut
  have hbreaks := hcut.mono fun _ hstops => hstops.breaks
  rw [stepHere, if_neg hquote, if_neg (Bool.eq_false_iff.mp (startsNumber_cut hnumber hbreaks)),
    if_neg hword, hleading]
  dsimp only
  rw [← List.cons_append, ← htaken, List.drop_left]
  rfl

/-- The token that starts at a character. -/
theorem begins_of_stepHere {c : Char} {token : Token}
    (h : stepHere n c text = (.ok token, ⟨rest, m⟩)) :
    ∃ taken, text = taken ++ rest ∧ m = n + byteLength (c :: taken)
      ∧ token = ⟨token.lexeme, n, m⟩ ∧ Begins c taken rest token.lexeme := by
  generalize hafter : (⟨rest, m⟩ : Cursor) = after at h
  cases branch_stepHere h with
  | string hquote hclosed =>
    obtain ⟨taken, htext, hoffset, hbegins⟩ := begins_string hquote hclosed
    rw [← hafter] at htext hoffset hbegins ⊢
    exact ⟨taken, htext, hoffset, rfl, hbegins⟩
  | number hquote hnumber =>
    obtain ⟨taken, htext, hnumber, hbegins⟩ := begins_number hquote hnumber
    cases hafter
    exact ⟨taken, htext, congrArg (n + byteLength ·) hnumber, rfl, hbegins⟩
  | word hquote hnumber hword =>
    cases hafter
    exact ⟨_, List.takeWhile_append_dropWhile.symm, rfl, rfl, begins_word hquote hnumber hword⟩
  | mark hquote hnumber hword hmark =>
    obtain ⟨taken, htext, hchars, hbegins⟩ := begins_mark hquote hnumber hword hmark
    cases hafter
    exact ⟨taken, htext, congrArg (n + byteLength ·) hchars, rfl, hbegins⟩

/-- A token of some characters behind blank space, wherever they stand and whatever comes behind a
cut. -/
structure Lexes (blank body rest : List Char) (lexeme : Lexeme) : Prop where
  nonempty : body ≠ []
  step : ∀ new k, Cut Stops rest new → step ⟨blank ++ (body ++ new), k⟩
    = (.ok (some ⟨lexeme, k + byteLength blank, k + byteLength blank + byteLength body⟩),
      ⟨new, k + byteLength blank + byteLength body⟩)

/-- A lexeme behind blank space makes a token. -/
theorem Begins.lexes {c : Char} {blank taken : List Char} {lexeme : Lexeme}
    (h : Begins c taken rest lexeme) (hskips : Skips .space blank (c :: (taken ++ rest))) :
    Lexes blank (c :: taken) rest lexeme where
  nonempty := List.cons_ne_nil c taken
  step new k hcut := by
    have hresumes : Resumes (c :: (taken ++ rest)) (c :: taken ++ new) :=
      ⟨rfl, startsComment_cut hskips.comment (List.cons_ne_nil c taken) hcut⟩
    rw [Cursor.step, hskips.skip _ hresumes .space k .space]
    simp only [List.cons_append, h new _ hcut]

/-- No blank space is needed in front of a character that is not blank and starts no comment. -/
theorem skips_nil {c : Char} (hcomment : startsComment (c :: text) = false)
    (hblank : (isBlank c || c == '\uFEFF') = false) : Skips .space [] (c :: text) := by
  refine .nil hcomment (fun _ => Blank.noConfusion) fun new hnew inside' k hlike => ?_
  cases hlike
  obtain ⟨hhead, hnew⟩ := hnew
  obtain ⟨more, rfl⟩ := List.head?_eq_some_iff.mp hhead
  rw [skipBlank_space hnew, hblank, if_neg Bool.false_ne_true]

/-- What blank space ends at is not blank. -/
theorem not_blank_of_skipBlank {inside : Blank} {c : Char}
    (h : skipBlank inside text n = .ok ⟨c :: rest, m⟩) : (isBlank c || c == '\uFEFF') = false := by
  fun_induction skipBlank inside text n <;> grind

/-- The two parts of a step that takes a token: it skips blank space, and takes the token there. -/
theorem stepHere_of_step {token : Token} (h : step ⟨text, n⟩ = (.ok (some token), ⟨rest, m⟩)) :
    ∃ blank c taken, text = blank ++ (c :: (taken ++ rest))
      ∧ skipBlank .space text n = .ok ⟨c :: (taken ++ rest), n + byteLength blank⟩
      ∧ Skips .space blank (c :: (taken ++ rest))
      ∧ stepHere (n + byteLength blank) c (taken ++ rest) = (.ok token, ⟨rest, m⟩) := by
  cases branch_step h with
  | @token c _ _ _ _ hskip hhere =>
    obtain ⟨blank, rfl, rfl, hskips⟩ := skips_of_skipBlank hskip
    obtain ⟨taken, rfl, -⟩ := begins_of_stepHere hhere
    exact ⟨blank, c, taken, rfl, hskip, hskips, hhere⟩

/-- The token that a step takes. -/
theorem lexes_of_step {token : Token} (h : step ⟨text, n⟩ = (.ok (some token), ⟨rest, m⟩)) :
    ∃ blank body, text = blank ++ (body ++ rest)
      ∧ token = ⟨token.lexeme, n + byteLength blank, m⟩
      ∧ m = n + byteLength blank + byteLength body
      ∧ Lexes blank body rest token.lexeme ∧ Lexes [] body rest token.lexeme := by
  obtain ⟨blank, c, taken, rfl, hskip, hskips, hhere⟩ := stepHere_of_step h
  obtain ⟨_, htaken, hm, htoken, hbegins⟩ := begins_of_stepHere hhere
  cases List.append_cancel_right htaken
  have hbare := skips_nil hskips.comment (not_blank_of_skipBlank hskip)
  exact ⟨blank, c :: taken, rfl, htoken, hm, hbegins.lexes hskips, hbegins.lexes hbare⟩

/-! ### Several tokens -/

/-- A number of steps that take tokens. -/
inductive Scans : Cursor → List Token → Cursor → Prop where
  | nil (cursor : Cursor) : Scans cursor [] cursor
  | cons {cursor between after : Cursor} {token : Token} {tokens : List Token} :
      cursor.step = (.ok (some token), between) → Scans between tokens after →
      Scans cursor (token :: tokens) after

variable {cursor between after : Cursor} {tokens more : List Token}

/-- The tokens of a text are those of some steps, and those behind them. -/
theorem Scans.tokens_eq (h : Scans cursor tokens after) :
    cursor.tokens = after.tokens.map (tokens ++ ·) := by
  induction h with
  | nil cursor => cases cursor.tokens <;> rfl
  | @cons _ _ after _ _ hstep _ ih =>
    rw [tokens_of_step_some hstep, ih]
    cases after.tokens <;> rfl

/-- The first token is that of a step, and those behind it are the tokens from there. -/
theorem step_of_tokens_cons {token : Token} (h : cursor.tokens = .ok (token :: tokens)) :
    ∃ after, cursor.step = (.ok (some token), after) ∧ after.tokens = .ok tokens := by
  match hstep : cursor.step with
  | (.error error, _) => cases (tokens_of_step_error hstep).symm.trans h
  | (.ok none, _) => cases (tokens_of_step_none hstep).symm.trans h
  | (.ok (some first), after) =>
    rw [tokens_of_step_some hstep] at h
    cases hrest : after.tokens with
    | error error => rw [hrest] at h; cases h
    | ok rest =>
      rw [hrest] at h
      cases h
      exact ⟨after, rfl, hrest⟩

/-- Some of the first tokens of a text are those of some steps. -/
theorem scans_of_tokens (h : cursor.tokens = .ok (tokens ++ more)) :
    ∃ after, Scans cursor tokens after ∧ after.tokens = .ok more := by
  induction tokens generalizing cursor with
  | nil => exact ⟨cursor, .nil cursor, h⟩
  | cons token tokens ih =>
    obtain ⟨between, hstep, hrest⟩ := step_of_tokens_cons h
    obtain ⟨after, hscans, hmore⟩ := ih hrest
    exact ⟨after, .cons hstep hscans, hmore⟩

/-- Some characters make tokens, wherever they stand and whatever comes behind a cut. The places
of the tokens are counted from the first of the characters. -/
def Spells (taken rest : List Char) (tokens : List Token) : Prop :=
  ∀ new k, Cut Stops rest new →
    Scans ⟨taken ++ new, k⟩ (tokens.map (Token.shift k)) ⟨new, k + byteLength taken⟩

/-- No characters make no tokens. -/
theorem Spells.nil (rest : List Char) : Spells [] rest [] :=
  fun new k _ => .nil ⟨new, k⟩

/-- The characters of a token and those of the tokens behind it make all of them. -/
theorem Spells.cons {blank body taken : List Char} {lexeme : Lexeme}
    (h : Lexes blank body (taken ++ rest) lexeme) (hmore : Spells taken rest tokens) :
    Spells (blank ++ (body ++ taken)) rest
      (⟨lexeme, byteLength blank, byteLength blank + byteLength body⟩
        :: tokens.map (Token.shift (byteLength blank + byteLength body))) := by
  intro new k hcut
  have hstep := h.step (taken ++ new) k (hcut.append taken)
  have hscans := hmore new (k + byteLength blank + byteLength body) hcut
  have htoken : Token.shift k ⟨lexeme, byteLength blank, byteLength blank + byteLength body⟩
      = ⟨lexeme, k + byteLength blank, k + byteLength blank + byteLength body⟩ := by
    simp only [Token.shift, Token.mk.injEq, true_and]
    omega
  rw [List.map_cons, map_shift_shift, htoken, ← Nat.add_assoc]
  simp only [List.append_assoc, byteLength_append, ← Nat.add_assoc]
  exact .cons hstep hscans

/-- The characters of some steps. -/
theorem Scans.spells (h : Scans cursor tokens after) :
    ∃ taken base, cursor.rest = taken ++ after.rest
      ∧ after.offset = cursor.offset + byteLength taken
      ∧ tokens = base.map (Token.shift cursor.offset) ∧ Spells taken after.rest base := by
  induction h with
  | nil cursor => exact ⟨[], [], rfl, rfl, rfl, .nil _⟩
  | @cons cursor between after token tokens hstep _ ih =>
    obtain ⟨taken, base, htaken, hoffset, rfl, hspells⟩ := ih
    obtain ⟨blank, body, htext, htoken, hbetween, hlexes, -⟩ := lexes_of_step hstep
    rw [htaken] at htext hlexes
    refine ⟨blank ++ (body ++ taken), _, ?_, ?_, ?_, .cons hlexes hspells⟩
    · rw [htext]
      simp only [List.append_assoc]
    · rw [hoffset, hbetween]
      simp only [byteLength_append, Nat.add_assoc]
    · rw [List.map_cons, map_shift_shift, htoken, hbetween, Token.shift]
      simp only [Nat.add_assoc, Nat.add_comm _ cursor.offset]

/-- The characters of some steps without the blank space in front of the first token. -/
theorem Scans.spells_body {first : Token} (h : Scans cursor (first :: tokens) after) :
    ∃ blank taken base, cursor.rest = blank ++ (taken ++ after.rest)
      ∧ first.start = cursor.offset + byteLength blank
      ∧ after.offset = first.start + byteLength taken
      ∧ first :: tokens = base.map (Token.shift first.start) ∧ Spells taken after.rest base := by
  cases h with
  | @cons _ between _ _ _ hstep hmore =>
    obtain ⟨taken, base, htaken, hoffset, rfl, hspells⟩ := hmore.spells
    obtain ⟨blank, body, htext, htoken, hbetween, -, hlexes⟩ := lexes_of_step hstep
    have hstart : first.start = cursor.offset + byteLength blank := congrArg Token.start htoken
    rw [htaken] at htext hlexes
    refine ⟨blank, body ++ taken, _, ?_, hstart, ?_, ?_, .cons hlexes hspells⟩
    · rw [htext, List.append_assoc]
    · rw [hoffset, hbetween, hstart]
      simp only [byteLength_append, Nat.add_assoc]
    · have hfirst : ⟨first.lexeme, first.start, first.start + byteLength body⟩ = first := by
        rw [hstart, ← hbetween]
        exact htoken.symm
      rw [List.map_cons, map_shift_shift, hbetween, ← hstart, Token.shift]
      simp only [byteLength, Nat.zero_add, Nat.add_comm (byteLength body), hfirst]

/-- The last of some steps ends where its token does. -/
theorem Scans.stop_getLast (h : Scans cursor tokens after) :
    ∀ last ∈ tokens.getLast?, last.stop = after.offset := by
  induction h with
  | nil => exact fun _ hlast => by cases hlast
  | @cons cursor between after token tokens hstep hmore ih =>
    cases hmore with
    | nil =>
      intro last hlast
      cases hlast
      obtain ⟨_, _, -, htoken, -⟩ := lexes_of_step hstep
      exact congrArg Token.stop htoken
    | cons hnext hrest =>
      rw [List.getLast?_cons_cons]
      exact ih

/-! ### Whole texts -/

/-- The end of a text stops a token. -/
theorem Stops.nil : Stops [] :=
  fun _ hc => by cases hc

/-- A cut that removes nothing. -/
theorem Cut.refl (rest : List Char) : Cut Stops rest rest := by
  have hcut : Cut Stops (rest ++ []) (rest ++ []) := .intro rest [] Stops.nil
  rwa [List.append_nil] at hcut

/-- Without tokens, the first step comes to the end of the text. -/
theorem step_of_tokens_nil (h : cursor.tokens = .ok []) :
    ∃ after, cursor.step = (.ok none, after) := by
  match hstep : cursor.step with
  | (.error error, _) => cases (tokens_of_step_error hstep).symm.trans h
  | (.ok none, after) => exact ⟨after, rfl⟩
  | (.ok (some token), between) =>
    rw [tokens_of_step_some hstep] at h
    cases hrest : between.tokens with
    | error error => rw [hrest] at h; cases h
    | ok rest => rw [hrest] at h; cases h

/-- A text without tokens has none wherever it stands. -/
theorem tokens_nil (h : Cursor.tokens ⟨text, n⟩ = .ok []) (k : Nat) :
    Cursor.tokens ⟨text, k⟩ = .ok [] := by
  obtain ⟨_, hstep⟩ := step_of_tokens_nil h
  cases branch_step hstep with
  | finish hskip =>
    obtain ⟨taken, rfl, -, hskips⟩ := skips_of_skipBlank hskip
    have hmoved : step ⟨taken ++ [], k⟩ = (.ok none, ⟨[], k + byteLength taken⟩) := by
      rw [Cursor.step, hskips.skip [] ⟨rfl, rfl⟩ .space k .space]
    exact tokens_of_step_none hmoved

/-- To move tokens by nothing leaves them. -/
theorem shift_zero (tokens : List Token) : tokens.map (Token.shift 0) = tokens :=
  (List.map_congr_left fun _ _ => rfl).trans (List.map_id tokens)

/-- The tokens of a text are the same wherever it stands, with their places moved. -/
theorem tokens_moved (h : Cursor.tokens ⟨text, 0⟩ = .ok tokens) (k : Nat) :
    Cursor.tokens ⟨text, k⟩ = .ok (tokens.map (Token.shift k)) := by
  rw [← List.append_nil tokens] at h
  obtain ⟨⟨rest, m⟩, hscans, hnone⟩ := scans_of_tokens h
  obtain ⟨taken, base, rfl, -, rfl, hspells⟩ := hscans.spells
  have hmoved := (hspells rest k (Cut.refl rest)).tokens_eq
  rw [hmoved, tokens_nil hnone, shift_zero]
  exact congrArg Except.ok (List.append_nil _)

/-- The tokens from a cursor are those that its step leads to. -/
theorem tokens_congr {cursor cursor' : Cursor} (h : cursor.step = cursor'.step) :
    cursor.tokens = cursor'.tokens := by
  match hstep : cursor'.step with
  | (.error error, _) =>
    rw [tokens_of_step_error hstep, tokens_of_step_error (h.trans hstep)]
  | (.ok none, _) => rw [tokens_of_step_none hstep, tokens_of_step_none (h.trans hstep)]
  | (.ok (some token), _) =>
    rw [tokens_of_step_some hstep, tokens_of_step_some (h.trans hstep)]

/-- A blank character in front of a text is skipped. -/
theorem tokens_blank {c : Char} (h : isBlank c = true) (text : List Char) (n : Nat) :
    Cursor.tokens ⟨c :: text, n⟩ = Cursor.tokens ⟨text, n + c.utf8Size⟩ := by
  refine tokens_congr ?_
  rw [Cursor.step, Cursor.step, skipBlank_blank (by rw [h, Bool.true_or])]

/-! ### Places -/

/-- The tokens of some steps end before what comes behind them. -/
theorem Scans.stop_le (h : Scans cursor tokens after) :
    cursor.offset ≤ after.offset ∧ ∀ token ∈ tokens, token.stop ≤ after.offset := by
  induction h with
  | nil => exact ⟨Nat.le_refl _, fun _ hin => absurd hin List.not_mem_nil⟩
  | @cons cursor between after token tokens hstep _ ih =>
    obtain ⟨blank, body, -, htoken, hoffset, -⟩ := lexes_of_step hstep
    have hstop : token.stop = between.offset := congrArg Token.stop htoken
    refine ⟨by omega, List.forall_mem_cons.mpr ⟨by omega, ih.2⟩⟩

/-- Tokens in front of another end before that starts. -/
theorem stop_le_start {last : Token} (h : cursor.tokens = .ok (tokens ++ last :: more)) :
    ∀ token ∈ tokens, token.stop ≤ last.start := by
  obtain ⟨between, hscans, hrest⟩ := scans_of_tokens h
  obtain ⟨_, hstep, -⟩ := step_of_tokens_cons hrest
  obtain ⟨blank, _, -, hlexeme, -⟩ := lexes_of_step hstep
  have hstart : last.start = between.offset + byteLength blank := congrArg Token.start hlexeme
  intro token htoken
  have hle := hscans.stop_le.2 token htoken
  omega

end Cursor

/-- No token ends behind the text. -/
theorem Token.stop_le {text : String} {tokens : List Token} (h : Token.scan text = .ok tokens) :
    ∀ token ∈ tokens, token.stop ≤ byteLength text.toList := by
  rw [← List.append_nil tokens] at h
  obtain ⟨after, hscans, -⟩ := Cursor.scans_of_tokens h
  obtain ⟨taken, base, htext, hoffset, -⟩ := hscans.spells
  have hlength := congrArg byteLength htext
  rw [byteLength_append] at hlength
  intro token hin
  have hle := hscans.stop_le.2 token hin
  simp only [Cursor.ofText, Nat.zero_add] at hoffset hlength
  omega

end Facade
