import Facade.Proofs.Token.Tiling

/-!
# Line feeds with a carriage return in front

A file may end its lines with a carriage return and a line feed instead of a line feed alone. The
scanner skips either, in blank space as well as in comments, and no name, number or mark runs over
one. A string may run over the end of a line, with a backslash in front of the line feed. If a
carriage return stands between them, the backslash takes that one, and the string breaks off at the
line feed. So lines may end in either way exactly if no string runs over the end of a line:
`scan_withReturns`.
-/

set_option autoImplicit false

namespace Facade

open Facade.Text

/-- A text with a carriage return in front of each line feed. -/
def withReturns (text : List Char) : List Char :=
  text.flatMap fun c => if c = '\n' then ['\r', '\n'] else [c]

section

variable {c : Char} {text : List Char}

/-- Every character but a line feed is kept. -/
theorem withReturns_cons (h : c ≠ '\n') (text : List Char) :
    withReturns (c :: text) = c :: withReturns text := by
  rw [withReturns, List.flatMap_cons, if_neg h]
  rfl

/-- In front of a line feed comes a carriage return. -/
theorem withReturns_lineFeed (text : List Char) :
    withReturns ('\n' :: text) = '\r' :: '\n' :: withReturns text :=
  List.flatMap_cons

/-- A text in two parts gets its carriage returns part by part. -/
theorem withReturns_append (text rest : List Char) :
    withReturns (text ++ rest) = withReturns text ++ withReturns rest :=
  List.flatMap_append

/-- Without line feeds nothing is put in. -/
theorem withReturns_eq_self (h : '\n' ∉ text) : withReturns text = text := by
  induction text with
  | nil => rfl
  | cons c text ih =>
    rw [withReturns_cons (List.ne_of_not_mem_cons h).symm, ih (List.not_mem_of_not_mem_cons h)]

/-- A character that is not put in comes first in both texts. -/
theorem cons_of_head?_withReturns (hc : c ≠ '\r') (h : (withReturns text).head? = some c) :
    ∃ more, text = c :: more := by
  cases text with
  | nil => cases h
  | cons d more =>
    by_cases hd : d = '\n'
    · subst hd
      exact absurd (Option.some.inj h).symm hc
    · rw [withReturns_cons hd] at h
      cases Option.some.inj h
      exact ⟨more, rfl⟩

/-- The first difference is a line feed in the text itself. -/
theorem cut_withReturns (text : List Char) : Cut Stops (withReturns text) text := by
  induction text with
  | nil => exact .intro [] [] Cursor.Stops.nil
  | cons c text ih =>
    by_cases hc : c = '\n'
    · subst hc
      exact .intro [] _ fun c hc => .inr (Option.some.inj hc).symm
    · rw [withReturns_cons hc]
      exact ih.append [c]

end

namespace Cursor

variable {c : Char} {text rest taken : List Char} {n k : Nat}

/-! ### Blank space -/

/-- A carriage return neither makes nor breaks the start of a comment. -/
theorem startsComment_withReturns (c : Char) (text : List Char) :
    startsComment (c :: withReturns text) = startsComment (c :: text) := by
  cases text with
  | nil => rfl
  | cons d text =>
    by_cases hd : d = '\n'
    · subst hd
      simp [withReturns_lineFeed, startsComment]
    · rw [withReturns_cons hd]
      rfl

/-- Answers of two walks: a fault of both, or what is left in both texts. -/
inductive SkipsAlike :
    Except (ScanError × Cursor) Cursor → Except (ScanError × Cursor) Cursor → Prop where
  | ok (rest : List Char) (n k : Nat) : SkipsAlike (.ok ⟨rest, n⟩) (.ok ⟨withReturns rest, k⟩)
  | fault (one other : ScanError × Cursor) : SkipsAlike (.error one) (.error other)

/-- Blank space is skipped alike in both texts. -/
theorem skipsAlike_withReturns {inside inside' : Blank} (hlike : inside.Like inside')
    (text : List Char) (n k : Nat) :
    SkipsAlike (skipBlank inside text n) (skipBlank inside' (withReturns text) k) := by
  -- A carriage return that is put in is one more character to skip, wherever the walk is.
  fun_induction skipBlank inside text n generalizing inside' k with
  | case1 text n ih =>
    cases hlike
    exact ih .lineComment _
  | case2 text n ih =>
    cases hlike
    exact ih (.blockComment _ _) _
  | case3 c text n hline hblock hblank ih =>
    cases hlike
    by_cases hc : c = '\n'
    · subst hc
      rw [withReturns_lineFeed, skipBlank_blank rfl, skipBlank_blank rfl]
      exact ih .space _
    · rw [withReturns_cons hc, skipBlank_blank hblank]
      exact ih .space _
  | case4 c text n hline hblock hblank =>
    cases hlike
    have hc : c ≠ '\n' := by
      rintro rfl
      exact hblank rfl
    have hcomment := startsComment_eq_false hline hblock
    have hsame : skipBlank .space (withReturns (c :: text)) k
        = .ok ⟨withReturns (c :: text), k⟩ := by
      rw [withReturns_cons hc, skipBlank_space ((startsComment_withReturns c text).trans hcomment),
        if_neg hblank]
    rw [hsame]
    exact .ok _ n k
  | case5 c text n ih =>
    cases hlike
    by_cases hc : c = '\n'
    · subst hc
      rw [if_pos rfl] at ih ⊢
      rw [withReturns_lineFeed, skipBlank_lineComment, if_neg (by decide), skipBlank_lineComment,
        if_pos rfl]
      exact ih .space _
    · rw [withReturns_cons hc, skipBlank_lineComment, if_neg hc]
      rw [if_neg hc] at ih
      exact ih .lineComment _
  | case6 opened text n ih =>
    cases hlike
    exact ih .space _
  | case7 opened c text n hnot ih =>
    cases hlike with
    | blockComment _ opened' =>
      by_cases hc : c = '\n'
      · subst hc
        rw [withReturns_lineFeed, skipBlank_blockComment (fun h => by cases h.1),
          skipBlank_blockComment (fun h => by cases h.1)]
        exact ih (.blockComment _ _) _
      · have hopen : ¬ (c = '*' ∧ (withReturns text).head? = some '/') := by
          rintro ⟨rfl, hslash⟩
          exact hnot _ rfl (cons_of_head?_withReturns (by decide) hslash).choose_spec
        rw [withReturns_cons hc, skipBlank_blockComment hopen]
        exact ih (.blockComment _ _) _
  | case8 opened n =>
    cases hlike
    exact .fault _ _
  | case9 inside n hnot =>
    cases hlike with
    | space => exact .ok [] n k
    | lineComment => exact .ok [] n k
    | blockComment opened => exact absurd rfl (hnot opened)

/-! ### Strings -/

/-- A string that is closed although carriage returns are put in is closed without them as well, and
none of them was put into it. -/
theorem closed_of_withReturns {quote : Char} (hquote : quote ≠ '\r')
    (h : (readQuoted quote (withReturns text) k).closed = true) :
    (readQuoted quote text n).closed = true
      ∧ ∃ taken, text = taken ++ (readQuoted quote text n).after.rest ∧ '\n' ∉ taken := by
  fun_induction readQuoted quote text n generalizing k with
  | case1 n => cases h
  | case2 n => cases h
  | case3 c text n ih =>
    by_cases hc : c = '\n'
    -- The backslash takes the carriage return, and the line feed is left.
    · subst hc
      rw [withReturns_cons (by decide), withReturns_lineFeed, readQuoted, Quotation.prepend,
        readQuoted_cons (by decide), if_pos rfl] at h
      cases h
    · rw [withReturns_cons (by decide), withReturns_cons hc, readQuoted] at h
      obtain ⟨hclosed, taken, htext, hnone⟩ := ih h
      refine ⟨hclosed, '\\' :: c :: taken, congrArg (fun text => '\\' :: c :: text) htext, ?_⟩
      simp [hnone, Ne.symm hc]
  | case4 text n hsingle hescape =>
    rw [withReturns_lineFeed, readQuoted_cons (by decide), if_neg (by decide), if_neg hquote.symm,
      Quotation.prepend, readQuoted_cons (by decide), if_pos rfl] at h
    cases h
  | case5 text n hsingle hescape hline =>
    exact ⟨rfl, [quote], rfl, by simpa using Ne.symm hline⟩
  | case6 c text n hsingle hescape hline hother ih =>
    have hc := ne_backslash hsingle hescape
    rw [withReturns_cons hline, readQuoted_cons hc, if_neg hline, if_neg hother] at h
    obtain ⟨hclosed, taken, htext, hnone⟩ := ih h
    refine ⟨hclosed, c :: taken, congrArg (fun text => c :: text) htext, ?_⟩
    simp [hnone, Ne.symm hline]

/-! ### Other tokens -/

/-- Characters that are none of the two that a line may end with. -/
def OneLine (text : List Char) : Prop :=
  '\n' ∉ text ∧ '\r' ∉ text

/-- No characters stay on a line. -/
theorem OneLine.nil : OneLine [] :=
  ⟨List.not_mem_nil, List.not_mem_nil⟩

/-- Two parts that stay on a line do so together. -/
theorem OneLine.append (h : OneLine text) (h' : OneLine rest) : OneLine (text ++ rest) :=
  ⟨fun hin => (List.mem_append.mp hin).elim h.1 h'.1,
    fun hin => (List.mem_append.mp hin).elim h.2 h'.2⟩

/-- What is taken by a test that neither line feed nor carriage return passes stays on a line. -/
theorem oneLine_takeWhile {p : Char → Bool} (hline : p '\n' = false) (hreturn : p '\r' = false)
    (text : List Char) : OneLine (text.takeWhile p) :=
  ⟨fun hin => Bool.false_ne_true (hline.symm.trans (List.mem_takeWhile_imp hin)),
    fun hin => Bool.false_ne_true (hreturn.symm.trans (List.mem_takeWhile_imp hin))⟩

/-- Digits stay on a line. -/
theorem oneLine_digits (text : List Char) : OneLine (text.takeWhile Char.isDigit) :=
  oneLine_takeWhile rfl rfl text

/-- So does the fraction of a number. -/
theorem oneLine_splitFraction (text : List Char) : OneLine (splitFraction text).1 := by
  unfold splitFraction
  split
  · split
    · have hpoint : OneLine ['.'] := ⟨by decide, by decide⟩
      exact hpoint.append (oneLine_digits _)
    · exact .nil
  · exact .nil

/-- So does the sign of an exponent. -/
theorem oneLine_splitSign (text : List Char) : OneLine (splitSign text).1 := by
  unfold splitSign
  split
  · show OneLine ['+']
    exact ⟨by decide, by decide⟩
  · show OneLine ['-']
    exact ⟨by decide, by decide⟩
  · exact .nil

/-- So does the exponent. -/
theorem oneLine_splitExponent (text : List Char) : OneLine (splitExponent text).1 := by
  cases text with
  | nil => exact .nil
  | cons e rest =>
    rw [splitExponent_cons]
    split
    · rename_i hexponent
      have he : OneLine [e] := by
        rcases hexponent.1 with rfl | rfl <;> exact ⟨by decide, by decide⟩
      exact he.append ((oneLine_splitSign rest).append (oneLine_digits _))
    · exact .nil

/-- So does a number. -/
theorem oneLine_splitNumber (text : List Char) : OneLine (splitNumber text).1 := by
  unfold splitNumber
  split
  · have hmark : OneLine ['0', 'x'] := ⟨by decide, by decide⟩
    exact hmark.append (oneLine_takeWhile rfl rfl _)
  · have hmark : OneLine ['0', 'X'] := ⟨by decide, by decide⟩
    exact hmark.append (oneLine_takeWhile rfl rfl _)
  · exact ((oneLine_digits _).append (oneLine_splitFraction _)).append (oneLine_splitExponent _)

/-- So does a mark. -/
theorem oneLine_chars (mark : Mark) : OneLine mark.chars := by
  cases mark <;> exact ⟨by decide, by decide⟩

/-- Only a string may run over the end of a line. -/
theorem oneLine_of_stepHere {token : Token} {after : Cursor}
    (hquote : ¬ (c = '"' || c = '\'') = true) (h : stepHere n c text = (.ok token, after)) :
    (∀ value, token.lexeme ≠ .string value)
      ∧ ∃ body, c :: text = body ++ after.rest ∧ OneLine body := by
  have hchars (mark : Mark) (hmark : token.lexeme = .mark mark) :
      mark.chars ++ after.rest = c :: text := chars_of_stepHere h hmark
  cases branch_stepHere h with
  | string hquoted => exact absurd hquoted hquote
  | number =>
    exact ⟨fun _ => Lexeme.noConfusion, _, (splitNumber_append _).symm, oneLine_splitNumber _⟩
  | word _ _ hword =>
    have hbody : (c :: text).takeWhile continuesWord = c :: text.takeWhile continuesWord :=
      List.takeWhile_cons_of_pos (continuesWord_of_startsWord hword)
    refine ⟨fun value => wordLexeme_ne_string _ value, c :: text.takeWhile continuesWord, ?_, ?_⟩
    · exact congrArg (c :: ·) List.takeWhile_append_dropWhile.symm
    · exact hbody ▸ oneLine_takeWhile rfl rfl _
  | @mark mark =>
    exact ⟨fun _ => Lexeme.noConfusion, mark.chars, (hchars mark rfl).symm, oneLine_chars mark⟩

/-! ### One token -/

/-- What a text with carriage returns put in starts with on one line, the text starts with. -/
theorem exists_of_append_withReturns (h : OneLine taken)
    (htext : withReturns text = taken ++ rest) :
    ∃ behind, text = taken ++ behind ∧ rest = withReturns behind := by
  induction taken generalizing text with
  | nil => exact ⟨text, rfl, htext.symm⟩
  | cons c taken ih =>
    have hreturn : c ≠ '\r' := (List.ne_of_not_mem_cons h.2).symm
    have hhead : (withReturns text).head? = some c := congrArg List.head? htext
    obtain ⟨more, rfl⟩ := cons_of_head?_withReturns hreturn hhead
    rw [withReturns_cons (List.ne_of_not_mem_cons h.1).symm, List.cons_append] at htext
    obtain ⟨behind, rfl, rfl⟩ := ih ⟨List.not_mem_of_not_mem_cons h.1,
      List.not_mem_of_not_mem_cons h.2⟩ (List.cons.inj htext).2
    exact ⟨behind, rfl, rfl⟩

/-- A number starts in both texts or in none. -/
theorem startsNumber_withReturns (c : Char) (text : List Char) :
    startsNumber c (withReturns text) = startsNumber c text := by
  cases text with
  | nil => rfl
  | cons d text =>
    by_cases hd : d = '\n'
    · subst hd
      rfl
    · rw [withReturns_cons hd]
      rfl

/-- A text that starts with no mark when the carriage returns are in starts with none without
them. -/
theorem leading?_of_withReturns (h : Mark.leading? (c :: withReturns text) = none) :
    Mark.leading? (c :: text) = none := by
  refine List.find?_eq_none.mpr fun mark hin hshared => List.find?_eq_none.mp h mark hin ?_
  rw [List.isPrefixOf_iff_prefix] at hshared ⊢
  have hbehind : mark.chars <+: [c] ++ text := hshared
  exact isPrefix_cut (cut_withReturns text) hbehind

/-- A string that makes a token is closed. -/
theorem closed_of_stepHere {token : Token} {after : Cursor} (hquote : (c = '"' || c = '\'') = true)
    (h : stepHere n c text = (.ok token, after)) : (readQuoted c text (n + 1)).closed = true := by
  cases branch_stepHere h with
  | string _ hclosed => exact hclosed
  | number hnot | word hnot | mark hnot => exact absurd hquote hnot

/-- A string that is closed, and that is the same token with carriage returns put in if it runs over
no line feed. -/
theorem string_withReturns (hquote : (c = '"' || c = '\'') = true)
    (hclosed : (readQuoted c text (n + 1)).closed = true) : ∃ taken rest value,
      text = taken ++ rest ∧ rest = (readQuoted c text (n + 1)).after.rest
        ∧ stepHere n c text = (.ok ⟨.string value, n, n + byteLength (c :: taken)⟩,
          ⟨rest, n + byteLength (c :: taken)⟩)
        ∧ ('\n' ∉ taken → ∀ k, stepHere k c (withReturns text)
          = (.ok ⟨.string value, k, k + byteLength (c :: taken)⟩,
            ⟨withReturns rest, k + byteLength (c :: taken)⟩)) := by
  obtain ⟨taken, htext, -, hsame⟩ := stepHere_string hquote hclosed
  generalize (readQuoted c text (n + 1)).value = value at hsame
  generalize (readQuoted c text (n + 1)).after.rest = rest at htext
  subst htext
  refine ⟨taken, rest, _, rfl, rfl, hsame rest n, fun hnone k => ?_⟩
  rw [withReturns_append, withReturns_eq_self hnone]
  exact hsame _ k

/-- Where there is a token with carriage returns put in, there is the same without them. -/
theorem stepHere_of_withReturns {token : Token} {after : Cursor} (hc : c ≠ '\n')
    (h : stepHere k c (withReturns text) = (.ok token, after)) (n : Nat) :
    ∃ taken rest, text = taken ++ rest ∧ after.rest = withReturns rest
      ∧ (∀ value, token.lexeme = .string value → '\n' ∉ c :: taken)
      ∧ stepHere n c text = (.ok ⟨token.lexeme, n, n + byteLength (c :: taken)⟩,
        ⟨rest, n + byteLength (c :: taken)⟩) := by
  by_cases hquote : (c = '"' || c = '\'') = true
  · have hreturn : c ≠ '\r' := by
      rintro rfl
      cases hquote
    obtain ⟨hclosed, run, hrun, hnone⟩ :=
      closed_of_withReturns (n := n + 1) hreturn (closed_of_stepHere hquote h)
    obtain ⟨taken, rest, value, htext, hrest, hhere, hsame⟩ := string_withReturns hquote hclosed
    obtain rfl : taken = run := by
      rw [← hrest] at hrun
      exact List.append_cancel_right (htext.symm.trans hrun)
    cases h.symm.trans (hsame hnone k)
    refine ⟨taken, rest, htext, rfl, fun _ _ hin => ?_, hhere⟩
    exact (List.mem_cons.mp hin).elim (fun heq => hc heq.symm) hnone
  -- Nothing was put into any other token, so the text starts with it as well.
  · obtain ⟨hstring, body, hbody, hone⟩ := oneLine_of_stepHere hquote h
    obtain ⟨taken, htaken, -, -, hbegins⟩ := begins_of_stepHere h
    have hsame : c :: taken = body := by
      rw [htaken, ← List.cons_append] at hbody
      exact List.append_cancel_right hbody
    subst hsame
    rw [← withReturns_cons hc] at hbody
    obtain ⟨behind, htext, hrest⟩ := exists_of_append_withReturns hone hbody
    obtain rfl : text = taken ++ behind := (List.cons.inj htext).2
    refine ⟨taken, behind, rfl, hrest, fun value hvalue => absurd hvalue (hstring value), ?_⟩
    rw [hrest] at hbegins
    exact hbegins behind n (cut_withReturns behind)

/-- Where there is a fault with carriage returns put in, there is one without them, or a string runs
over a line feed. -/
theorem stepHere_of_withReturns_error {error : ScanError} {after : Cursor}
    (h : stepHere k c (withReturns text) = (.error error, after)) (n : Nat) :
    (∃ error' after', stepHere n c text = (.error error', after'))
      ∨ ∃ taken rest value, text = taken ++ rest ∧ '\n' ∈ taken
        ∧ stepHere n c text = (.ok ⟨.string value, n, n + byteLength (c :: taken)⟩,
          ⟨rest, n + byteLength (c :: taken)⟩) := by
  by_cases hquote : (c = '"' || c = '\'') = true
  · by_cases hclosed : (readQuoted c text (n + 1)).closed = true
    · obtain ⟨taken, rest, value, htext, -, hhere, hsame⟩ := string_withReturns hquote hclosed
      by_cases hline : '\n' ∈ taken
      · exact .inr ⟨taken, rest, value, htext, hline, hhere⟩
      · cases h.symm.trans (hsame hline k)
    · refine .inl ⟨⟨.unclosedString, n⟩, (readQuoted c text (n + 1)).after, ?_⟩
      rw [stepHere, if_pos hquote]
      exact if_neg hclosed
  -- The first character decides, but for a point and for marks, which hold no line feed.
  · refine .inl ⟨⟨.strayCharacter c, n⟩, ⟨c :: text, n⟩, ?_⟩
    cases branch_stepHere h with
    | unclosed hquoted => exact absurd hquoted hquote
    | stray _ hnumber hword hmark =>
      rw [startsNumber_withReturns] at hnumber
      rw [stepHere, if_neg hquote, hnumber, if_neg Bool.false_ne_true, if_neg hword,
        leading?_of_withReturns hmark]

/-! ### One step -/

/-- The answers of two steps, the second with carriage returns put into a text that starts at an
offset: both are at the end, both meet a fault, both take the same token, which is no string that
runs over a line feed, or the first takes such a string and the second meets a fault. -/
inductive StepsAlike (text : List Char) (n : Nat) : Except ScanError (Option Token) × Cursor →
    Except ScanError (Option Token) × Cursor → Prop where
  | finish (after after' : Cursor) : StepsAlike text n (.ok none, after) (.ok none, after')
  | fault (error error' : ScanError) (after after' : Cursor) :
      StepsAlike text n (.error error, after) (.error error', after')
  | token {blank body rest : List Char} {lexeme : Lexeme} (start stop offset : Nat) :
      text = blank ++ (body ++ rest) → (∀ value, lexeme = .string value → '\n' ∉ body) →
      StepsAlike text n
        (.ok (some ⟨lexeme, n + byteLength blank, n + byteLength blank + byteLength body⟩),
          ⟨rest, n + byteLength blank + byteLength body⟩)
        (.ok (some ⟨lexeme, start, stop⟩), ⟨withReturns rest, offset⟩)
  | broken {blank body rest : List Char} (value : String) (error : ScanError) (after : Cursor) :
      text = blank ++ (body ++ rest) → '\n' ∈ body →
      StepsAlike text n
        (.ok (some ⟨.string value, n + byteLength blank, n + byteLength blank + byteLength body⟩),
          ⟨rest, n + byteLength blank + byteLength body⟩)
        (.error error, after)

/-- One step through both texts is alike. -/
theorem stepsAlike_step (text : List Char) (n k : Nat) :
    StepsAlike text n (step ⟨text, n⟩) (step ⟨withReturns text, k⟩) := by
  have hskips := skipsAlike_withReturns .space text n k
  rw [step, step]
  dsimp only
  generalize hskip : skipBlank .space text n = walk at hskips
  generalize skipBlank .space (withReturns text) k = walk' at hskips
  cases hskips with
  | fault => exact .fault _ _ _ _
  | ok rest m k =>
    cases rest with
    | nil => exact .finish _ _
    | cons c rest =>
      -- The character behind blank space is not blank, so it is none of those that are put in.
      have hc : c ≠ '\n' := by
        rintro rfl
        cases not_blank_of_skipBlank hskip
      obtain ⟨blank, rfl, rfl, -⟩ := skips_of_skipBlank hskip
      rw [withReturns_cons hc]
      dsimp only
      generalize hmore : stepHere k c (withReturns rest) = answer
      obtain ⟨answer, after⟩ := answer
      cases answer with
      | ok token =>
        obtain ⟨taken, behind, rfl, hafter, hstring, hhere⟩ :=
          stepHere_of_withReturns hc hmore (n + byteLength blank)
        rw [hhere]
        obtain ⟨_, offset⟩ := after
        cases hafter
        exact .token token.start token.stop offset rfl hstring
      | error error =>
        -- What is a fault with the returns put in was one before, or a string over a line end.
        obtain ⟨error', after', hhere⟩ | ⟨taken, behind, value, rfl, hline, hhere⟩ :=
          stepHere_of_withReturns_error hmore (n + byteLength blank)
        · rw [hhere]
          exact .fault _ _ _ _
        · rw [hhere]
          exact .broken value error after rfl (List.mem_cons_of_mem c hline)

/-! ### All tokens -/

/-- Behind a step that takes a token, the tokens are that one and those of what is left. -/
theorem exists_tokens_of_some {cursor after : Cursor} {token : Token} {P : List Token → Prop}
    (h : cursor.step = (.ok (some token), after)) :
    (∃ tokens, cursor.tokens = .ok tokens ∧ P tokens)
      ↔ ∃ tokens, after.tokens = .ok tokens ∧ P (token :: tokens) := by
  rw [tokens_of_step_some h]
  cases after.tokens with
  | error error => simp [Except.map]
  | ok tokens => simp [Except.map]

/-- Behind a step that finds the end, there are no tokens. -/
theorem exists_tokens_of_none {cursor after : Cursor} {P : List Token → Prop}
    (h : cursor.step = (.ok none, after)) :
    (∃ tokens, cursor.tokens = .ok tokens ∧ P tokens) ↔ P [] := by
  simp [tokens_of_step_none h]

/-- Behind a step that meets a fault, the text has no tokens. -/
theorem not_exists_tokens_of_error {cursor after : Cursor} {error : ScanError}
    {P : List Token → Prop} (h : cursor.step = (.error error, after)) :
    ¬ ∃ tokens, cursor.tokens = .ok tokens ∧ P tokens := by
  simp [tokens_of_step_error h]

end Cursor

/-- A token that is no string, or a string that runs over no line feed. -/
def Token.StaysOnLine (text : List Char) (token : Token) : Prop :=
  ∀ value, token.lexeme = .string value → '\n' ∉ slice text token.start token.stop

namespace Cursor

/-- From a place on, the same tokens are taken with carriage returns put in exactly if all of them
stay on their lines. -/
theorem exists_tokens_withReturns (front rest : List Char) (k : Nat) (lexemes : List Lexeme) :
    (∃ tokens, Cursor.tokens ⟨withReturns rest, k⟩ = .ok tokens
      ∧ tokens.map Token.lexeme = lexemes)
    ↔ ∃ tokens, Cursor.tokens ⟨rest, byteLength front⟩ = .ok tokens
      ∧ tokens.map Token.lexeme = lexemes
      ∧ ∀ token ∈ tokens, token.StaysOnLine (front ++ rest) := by
  -- On what is left of the text: a step that takes a token leaves less.
  induction hlength : rest.length using Nat.strongRecOn generalizing front rest k lexemes with
  | ind _ ih =>
    subst hlength
    have halike := stepsAlike_step rest (byteLength front) k
    generalize hstep : step ⟨rest, byteLength front⟩ = answer at halike
    generalize hstep' : step ⟨withReturns rest, k⟩ = answer' at halike
    cases halike with
    | finish =>
      rw [exists_tokens_of_none hstep, exists_tokens_of_none hstep']
      simp
    | fault =>
      exact iff_of_false (not_exists_tokens_of_error hstep') (not_exists_tokens_of_error hstep)
    | @token blank body behind lexeme start stop offset htext hstring =>
      rw [exists_tokens_of_some hstep, exists_tokens_of_some hstep']
      have hmore := fun lexemes =>
        ih behind.length (step_length_lt hstep) (front ++ (blank ++ body)) behind offset lexemes rfl
      subst htext
      have hslice := slice_behind front blank body behind
      have hstays : Token.StaysOnLine (front ++ (blank ++ (body ++ behind)))
          ⟨lexeme, byteLength front + byteLength blank,
            byteLength front + byteLength blank + byteLength body⟩ := by
        intro value hvalue
        rw [hslice]
        exact hstring value hvalue
      simp only [byteLength_append, List.append_assoc, ← Nat.add_assoc] at hmore
      cases lexemes with
      | nil => simp
      | cons first lexemes =>
        simp only [List.map_cons, List.cons.injEq, List.forall_mem_cons]
        constructor
        · rintro ⟨tokens, htokens, hfirst, hlexemes⟩
          obtain ⟨tokens', htokens', hlexemes', hstay⟩ := (hmore lexemes).mp
            ⟨tokens, htokens, hlexemes⟩
          exact ⟨tokens', htokens', ⟨hfirst, hlexemes'⟩, hstays, hstay⟩
        · rintro ⟨tokens, htokens, ⟨hfirst, hlexemes⟩, -, hstay⟩
          obtain ⟨tokens', htokens', hlexemes'⟩ := (hmore lexemes).mpr
            ⟨tokens, htokens, hlexemes, hstay⟩
          exact ⟨tokens', htokens', hfirst, hlexemes'⟩
    | @broken blank body behind value error after htext hline =>
      refine iff_of_false (not_exists_tokens_of_error hstep') ?_
      rw [exists_tokens_of_some hstep, htext]
      rintro ⟨tokens, -, -, hstay⟩
      -- The string itself is the token that does not stay on its line.
      refine hstay _ List.mem_cons_self value rfl ?_
      rw [slice_behind]
      exact hline

end Cursor

/-- Lines may end with a carriage return and a line feed just as well, if no string runs over the
end of a line: the tokens are the same, but for their places. If a string does, there are no
tokens. -/
theorem scan_withReturns (text : String) (lexemes : List Lexeme) :
    (∃ tokens, Token.scan (String.ofList (withReturns text.toList)) = .ok tokens
      ∧ tokens.map Token.lexeme = lexemes)
    ↔ ∃ tokens, Token.scan text = .ok tokens ∧ tokens.map Token.lexeme = lexemes
      ∧ ∀ token ∈ tokens, token.StaysOnLine text.toList := by
  rw [Token.scan, Cursor.ofText, String.toList_ofList]
  exact Cursor.exists_tokens_withReturns [] text.toList 0 lexemes

-- The backslash takes the carriage return, and the string breaks off.
example : Token.scan "\"a\\\nb\"" = .ok [⟨.string "ab", 0, 6⟩]
    ∧ Token.scan "\"a\\\r\nb\"" = .error ⟨.unclosedString, 0⟩ :=
  ⟨by decide +kernel, by decide +kernel⟩

end Facade
