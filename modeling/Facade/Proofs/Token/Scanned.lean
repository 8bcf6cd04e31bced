import Facade.Definition.Identifier
import Facade.Proofs.Token.Cut

/-!
# What the scanner makes of a text

The scanner answers with names that are words and not reserved, and with numbers that it would take
whole again (`Lexeme.Scanned`). Readers pass such texts on, so this is what is known of the names in
a declaration. `scanned_scan` says it of every token of a text.

`branch_stepHere` and `branch_step` say once what a step of the scanner can do, with the tests that
lead there. Whatever else is known of single steps is shown by cases on them.
-/

set_option autoImplicit false

namespace Facade

open Facade.Text

/-- A word that is not reserved. -/
def IsName (text : String) : Prop :=
  Identifier.isWord text.toList = true ∧ Word.ofText? text = none

/-- Whether a text is a name is computed. -/
instance (text : String) : Decidable (IsName text) :=
  inferInstanceAs (Decidable (_ ∧ _))

/-- A text that is taken whole as a number. -/
def IsNumber (text : String) : Prop :=
  ∃ c more, text.toList = c :: more ∧ Cursor.startsNumber c more = true
    ∧ Cursor.splitNumber (c :: more) = (c :: more, [])

/-- A lexeme as the scanner makes it. -/
def Lexeme.Scanned : Lexeme → Prop
  | .name text => IsName text
  | .number text => IsNumber text
  | _ => True

namespace Cursor

/-! ### Numbers -/

/-- A number and what follows it are the text. -/
theorem splitNumber_append (text : List Char) :
    (splitNumber text).1 ++ (splitNumber text).2 = text := by
  cases hmark : hexMark? text with
  | some mark =>
    obtain ⟨hx, more, rfl⟩ := hexMark?_eq_some hmark
    rw [splitNumber_hex mark hx, List.cons_append, List.cons_append,
      List.takeWhile_append_dropWhile]
  | none =>
    rw [splitNumber_decimal hmark, List.append_assoc, splitExponent_append, List.append_assoc,
      splitFraction_append, List.takeWhile_append_dropWhile]

/-- A number goes on as it starts: what is taken of it starts a number too. -/
theorem startsNumber_splitNumber {c : Char} {rest : List Char} (h : startsNumber c rest = true) :
    ∃ more, (splitNumber (c :: rest)).1 = c :: more ∧ startsNumber c more = true := by
  by_cases hc : c.isDigit = true
  · have hstarts : ∀ more, startsNumber c more = true := fun more => by
      rw [startsNumber, hc, Bool.true_or]
    have hlt := splitNumber_length_lt h
    have happend := splitNumber_append (c :: rest)
    cases hnumber : (splitNumber (c :: rest)).1 with
    | nil =>
      rw [hnumber, List.nil_append] at happend
      rw [happend] at hlt
      exact absurd hlt (Nat.lt_irrefl _)
    | cons first more =>
      rw [hnumber, List.cons_append] at happend
      cases (List.cons.inj happend).1
      exact ⟨more, rfl, hstarts more⟩
  -- Without a digit in front, the number is a fraction: a dot and the digits behind it.
  · simp only [startsNumber, hc, Bool.false_or, Bool.and_eq_true, beq_iff_eq] at h
    obtain ⟨rfl, hdigit⟩ := h
    have hmark : hexMark? ('.' :: rest) = none := rfl
    rw [splitNumber_decimal hmark, List.dropWhile_cons_of_neg (by decide),
      List.takeWhile_cons_of_neg (by decide), splitFraction, if_pos hdigit]
    refine ⟨_, rfl, ?_⟩
    cases rest with
    | nil => cases hdigit
    | cons digit rest =>
      have hfirst : digit.isDigit = true := hdigit
      rw [List.takeWhile_cons_of_pos hfirst]
      exact hdigit

/-- What is taken as a number is taken whole. -/
theorem isNumber_splitNumber {c : Char} {rest : List Char} (h : startsNumber c rest = true) :
    IsNumber (String.ofList (splitNumber (c :: rest)).1) := by
  obtain ⟨more, hnumber, hstarts⟩ := startsNumber_splitNumber h
  have happend := splitNumber_append (c :: rest)
  refine ⟨c, more, by rw [hnumber, String.toList_ofList], hstarts, ?_⟩
  have hsplit : splitNumber (c :: more ++ (splitNumber (c :: rest)).2)
      = (c :: more, (splitNumber (c :: rest)).2) := by
    rw [← hnumber, happend]
  -- To end the text behind the number is a cut like any other.
  have hcut : Cut Breaks (splitNumber (c :: rest)).2 [] :=
    .intro [] _ fun _ hc => by cases hc
  have hall := splitNumber_cut (List.cons_ne_nil c more) hsplit hcut
  rwa [List.append_nil] at hall

/-! ### Tokens -/

/-- A word makes a reserved word or a name. -/
theorem scanned_wordLexeme {c : Char} {more : List Char} (hc : startsWord c = true)
    (hmore : more.all continuesWord = true) :
    (wordLexeme (String.ofList (c :: more))).Scanned := by
  unfold wordLexeme
  split
  · trivial
  · rename_i hnone
    refine ⟨?_, hnone⟩
    rw [String.toList_ofList, Identifier.isWord, hc, hmore, Bool.and_self]

/-- No word makes a mark. -/
theorem wordLexeme_ne_mark (text : String) (mark : Mark) : wordLexeme text ≠ .mark mark := by
  rw [wordLexeme]
  cases Word.ofText? text <;> exact Lexeme.noConfusion

/-- Nor does it make a string. -/
theorem wordLexeme_ne_string (text value : String) : wordLexeme text ≠ .string value := by
  rw [wordLexeme]
  cases Word.ofText? text <;> exact Lexeme.noConfusion

/-- The branches of the scanner at a character, each with its answer. They are tried in this order,
so a branch comes with the tests before it, which failed. -/
inductive Branch (offset : Nat) (c : Char) (rest : List Char) :
    Except ScanError Token × Cursor → Prop where
  | string : (c = '"' || c = '\'') = true → (readQuoted c rest (offset + 1)).closed = true →
      Branch offset c rest
        (.ok ⟨.string (String.ofList (readQuoted c rest (offset + 1)).value), offset,
          (readQuoted c rest (offset + 1)).after.offset⟩, (readQuoted c rest (offset + 1)).after)
  | unclosed : (c = '"' || c = '\'') = true → (readQuoted c rest (offset + 1)).closed = false →
      Branch offset c rest
        (.error ⟨.unclosedString, offset⟩, (readQuoted c rest (offset + 1)).after)
  | number : ¬ (c = '"' || c = '\'') = true → startsNumber c rest = true →
      Branch offset c rest
        (.ok ⟨.number (String.ofList (splitNumber (c :: rest)).1), offset,
          offset + byteLength (splitNumber (c :: rest)).1⟩,
          behind offset (splitNumber (c :: rest)).1 (splitNumber (c :: rest)).2)
  | word : ¬ (c = '"' || c = '\'') = true → startsNumber c rest = false → startsWord c = true →
      Branch offset c rest
        (.ok ⟨wordLexeme (String.ofList (c :: rest.takeWhile continuesWord)), offset,
          offset + byteLength (c :: rest.takeWhile continuesWord)⟩,
          behind offset (c :: rest.takeWhile continuesWord) (rest.dropWhile continuesWord))
  | mark {mark : Mark} : ¬ (c = '"' || c = '\'') = true → startsNumber c rest = false →
      ¬ startsWord c = true → Mark.leading? (c :: rest) = some mark →
      Branch offset c rest
        (.ok ⟨.mark mark, offset, offset + byteLength mark.chars⟩,
          behind offset mark.chars ((c :: rest).drop mark.chars.length))
  | stray : ¬ (c = '"' || c = '\'') = true → startsNumber c rest = false →
      ¬ startsWord c = true → Mark.leading? (c :: rest) = none →
      Branch offset c rest (.error ⟨.strayCharacter c, offset⟩, ⟨c :: rest, offset⟩)

/-- What the scanner does at a character. All that is known of single tokens is shown by cases on
this. -/
theorem branch_stepHere {offset : Nat} {c : Char} {rest : List Char}
    {answer : Except ScanError Token × Cursor} (h : stepHere offset c rest = answer) :
    Branch offset c rest answer := by
  rw [stepHere] at h
  subst h
  split
  · rename_i hquote
    dsimp only
    split
    · exact .string hquote ‹_›
    · exact .unclosed hquote (Bool.eq_false_iff.mpr ‹_›)
  · rename_i hquote
    split
    · exact .number hquote ‹_›
    · rename_i hnumber
      rw [Bool.not_eq_true] at hnumber
      split
      · exact .word hquote hnumber ‹_›
      · split
        · exact .mark hquote hnumber ‹_› ‹_›
        · exact .stray hquote hnumber ‹_› ‹_›

/-- A token that is taken at a character is as the scanner makes it. -/
theorem scanned_stepHere {offset : Nat} {c : Char} {rest : List Char} {token : Token}
    {after : Cursor} (h : stepHere offset c rest = (.ok token, after)) : token.lexeme.Scanned := by
  cases branch_stepHere h with
  | number _ hnumber => exact isNumber_splitNumber hnumber
  | word _ _ hword =>
    refine scanned_wordLexeme hword (List.all_eq_true.mpr fun c hc => ?_)
    exact List.mem_takeWhile_imp hc
  | string | mark => trivial

/-- A token that is a mark is written with the characters of the mark. -/
theorem chars_of_stepHere {offset : Nat} {c : Char} {rest : List Char} {token : Token}
    {after : Cursor} (h : stepHere offset c rest = (.ok token, after)) {mark : Mark}
    (hmark : token.lexeme = .mark mark) : mark.chars ++ after.rest = c :: rest := by
  cases branch_stepHere h with
  | string | number => cases hmark
  | word => exact absurd hmark (wordLexeme_ne_mark _ _)
  | mark _ _ _ hfound =>
    cases Lexeme.mark.inj hmark
    obtain ⟨hfront, -⟩ := List.find?_eq_some_iff_append.mp hfound
    exact List.prefix_iff_eq_append.mp (List.isPrefixOf_iff_prefix.mp hfront)

/-- The branches of a step: blank space is skipped, and what comes behind it decides. -/
inductive StepBranch (text : List Char) (n : Nat) : Except ScanError (Option Token) × Cursor → Prop
    where
  | comment {error : ScanError} {after : Cursor} :
      skipBlank .space text n = .error (error, after) → StepBranch text n (.error error, after)
  | finish {offset : Nat} : skipBlank .space text n = .ok ⟨[], offset⟩ →
      StepBranch text n (.ok none, ⟨[], offset⟩)
  | token {c : Char} {rest : List Char} {offset : Nat} {token : Token} {after : Cursor} :
      skipBlank .space text n = .ok ⟨c :: rest, offset⟩ →
      stepHere offset c rest = (.ok token, after) → StepBranch text n (.ok (some token), after)
  | fault {c : Char} {rest : List Char} {offset : Nat} {error : ScanError} {after : Cursor} :
      skipBlank .space text n = .ok ⟨c :: rest, offset⟩ →
      stepHere offset c rest = (.error error, after) → StepBranch text n (.error error, after)

/-- A step goes one of these ways. -/
theorem branch_step {text : List Char} {n : Nat} {answer : Except ScanError (Option Token) × Cursor}
    (h : step ⟨text, n⟩ = answer) : StepBranch text n answer := by
  rw [step] at h
  subst h
  dsimp only
  split
  · exact .comment ‹_›
  · exact .finish ‹_›
  · rename_i hskip
    split
    · exact .token hskip ‹_›
    · exact .fault hskip ‹_›

/-- What holds of a token wherever the scanner takes one holds of all tokens of a text. -/
theorem forall_tokens {P : Token → Prop} (hP : ∀ {offset : Nat} {c : Char} {rest : List Char}
      {token : Token} {after : Cursor}, stepHere offset c rest = (.ok token, after) → P token)
    {cursor : Cursor} {tokens : List Token} (h : cursor.tokens = .ok tokens) :
    ∀ token ∈ tokens, P token := by
  fun_induction Cursor.tokens cursor generalizing tokens with
  | case1 cursor token after hstep rest hrest ih =>
    cases h
    refine List.forall_mem_cons.mpr ⟨?_, ih hrest⟩
    cases branch_step hstep with
    | token _ hhere => exact hP hhere
  | case2 => cases h
  | case3 =>
    cases h
    exact fun _ hin => absurd hin List.not_mem_nil
  | case4 => cases h

end Cursor

/-- Every token of a text is as the scanner makes it. -/
theorem Token.scanned_scan {text : String} {tokens : List Token}
    (h : Token.scan text = .ok tokens) : ∀ token ∈ tokens, token.lexeme.Scanned :=
  Cursor.forall_tokens Cursor.scanned_stepHere h

end Facade
