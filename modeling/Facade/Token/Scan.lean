import Facade.Text.Letter
import Facade.Text.Utf8
import Facade.Token.Basic

/-!
# Reading tokens from a text

A `Cursor` is what is left of a text and the byte offset where that stands. `Cursor.step` skips
blank space and comments and takes one token off a cursor; it answers where the cursor stands
afterwards also when no token can be read, so a reader may go on behind a fault, as `steps` does.
`tokens` takes tokens until the text ends or a step fails.

The pieces follow the kinds of lexemes. `skipBlank` walks over blank space and comments as a
machine of three states. `readQuoted` reads a string up to its closing quote and undoes its
escapes; `splitNumber` cuts off a number, and a word is the longest run of word characters. Each
piece answers with the cursor behind what it took. `step_length_lt` says that a token is never
empty, which is why `tokens` comes to an end.
-/

set_option autoImplicit false

namespace Facade

open Facade.Text

/-- Why no token can be read. -/
inductive ScanFault where
  | unclosedComment
  | unclosedString
  | strayCharacter (c : Char)
deriving DecidableEq

/-- How messages speak of a fault. -/
def ScanFault.message : ScanFault → String
  | .unclosedComment => "unterminated block comment"
  | .unclosedString => "unterminated string literal"
  | .strayCharacter c => "unexpected character `" ++ String.singleton c ++ "`"

/-- A fault and the byte offset that it is reported at. -/
structure ScanError where
  fault : ScanFault
  position : Nat
deriving DecidableEq

/-- What is left of a text, and the byte offset where that starts. -/
structure Cursor where
  rest : List Char
  offset : Nat
deriving DecidableEq

namespace Cursor

/-- The cursor before a text. -/
def ofText (text : String) : Cursor := ⟨text.toList, 0⟩

/-! ### Blank space and comments -/

/-- What a walk over blank space is inside of. A block comment remembers the cursor behind its
opening. -/
inductive Blank where
  | space
  | lineComment
  | blockComment (opened : Cursor)

/-- Walks over blank characters, byte order marks, comments that run to the end of the line, and
comments in `/*` and `*/`, which do not nest. Fails on a block comment without an end, and then
stands behind its opening. -/
def skipBlank : Blank → List Char → Nat → Except (ScanError × Cursor) Cursor
  | .space, '/' :: '/' :: rest, n => skipBlank .lineComment rest (n + 2)
  | .space, '/' :: '*' :: rest, n => skipBlank (.blockComment ⟨rest, n + 2⟩) rest (n + 2)
  | .space, c :: rest, n =>
    if isBlank c || c == '\uFEFF' then skipBlank .space rest (n + c.utf8Size)
    else .ok ⟨c :: rest, n⟩
  | .lineComment, c :: rest, n =>
    skipBlank (if c = '\n' then .space else .lineComment) rest (n + c.utf8Size)
  | .blockComment _, '*' :: '/' :: rest, n => skipBlank .space rest (n + 2)
  | .blockComment opened, c :: rest, n =>
    skipBlank (.blockComment opened) rest (n + c.utf8Size)
  -- The error is reported where the comment opens, two bytes in front of `opened`.
  | .blockComment opened, [], _ => .error (⟨.unclosedComment, opened.offset - 2⟩, opened)
  | _, [], n => .ok ⟨[], n⟩

/-! ### Strings -/

/-- What stands for an escaped character: four letters are controls, a line feed disappears, and
any other character stands for itself. -/
def unescape : Char → List Char
  | 'n' => ['\n']
  | 't' => ['\t']
  | 'r' => ['\r']
  | '0' => ['\x00']
  | '\n' => []
  | c => [c]

/-- What was read behind an opening quote: the characters, whether the closing quote was found, and
the cursor behind all of it. -/
structure Quotation where
  value : List Char
  closed : Bool
  after : Cursor

/-- Puts characters in front of what was read. -/
def Quotation.prepend (chars : List Char) (q : Quotation) : Quotation :=
  { q with value := chars ++ q.value }

/-- Reads up to the closing quote. A line feed that is not escaped, and the end of the text, end
the reading without it. -/
def readQuoted (quote : Char) : List Char → Nat → Quotation
  | [], n => ⟨[], false, ⟨[], n⟩⟩
  -- There is nothing to escape.
  | ['\\'], n => ⟨[], false, ⟨[], n + 1⟩⟩
  | '\\' :: c :: rest, n => (readQuoted quote rest (n + 1 + c.utf8Size)).prepend (unescape c)
  | c :: rest, n =>
    if c = '\n' then ⟨[], false, ⟨rest, n + 1⟩⟩
    else if c = quote then ⟨[], true, ⟨rest, n + c.utf8Size⟩⟩
    else (readQuoted quote rest (n + c.utf8Size)).prepend [c]

/-! ### Numbers -/

/-- A digit of a hexadecimal number. -/
def isHexDigit (c : Char) : Bool :=
  c.isDigit || ('a' ≤ c && c ≤ 'f') || ('A' ≤ c && c ≤ 'F')

/-- Whether a text starts with a decimal digit. -/
def startsWithDigit : List Char → Bool
  | [] => false
  | c :: _ => c.isDigit

/-- A point that a digit follows, with all digits behind it. -/
def splitFraction : List Char → List Char × List Char
  | '.' :: rest =>
    if startsWithDigit rest then ('.' :: rest.takeWhile Char.isDigit, rest.dropWhile Char.isDigit)
    else ([], '.' :: rest)
  | text => ([], text)

/-- The sign that an exponent may start with. -/
def splitSign : List Char → List Char × List Char
  | '+' :: rest => (['+'], rest)
  | '-' :: rest => (['-'], rest)
  | text => ([], text)

/-- A letter `e`, a sign if there is one, and digits. Without a digit there is no exponent. -/
def splitExponent : List Char → List Char × List Char
  | [] => ([], [])
  | e :: rest =>
    if e = 'e' || e = 'E' then
      let (sign, digits) := splitSign rest
      if startsWithDigit digits then
        (e :: sign ++ digits.takeWhile Char.isDigit, digits.dropWhile Char.isDigit)
      else ([], e :: rest)
    else ([], e :: rest)

/-- The number that a text starts with, and what follows it. A number with the mark of base
sixteen goes on over hexadecimal digits, be there none; any other has digits, a fraction and an
exponent, each if present. -/
def splitNumber : List Char → List Char × List Char
  | '0' :: 'x' :: rest => ('0' :: 'x' :: rest.takeWhile isHexDigit, rest.dropWhile isHexDigit)
  | '0' :: 'X' :: rest => ('0' :: 'X' :: rest.takeWhile isHexDigit, rest.dropWhile isHexDigit)
  | text =>
    let (fraction, rest) := splitFraction (text.dropWhile Char.isDigit)
    let (exponent, rest) := splitExponent rest
    (text.takeWhile Char.isDigit ++ fraction ++ exponent, rest)

/-- Whether a number starts with a character: with a digit, or with a point before a digit. -/
def startsNumber (c : Char) (rest : List Char) : Bool :=
  c.isDigit || (c == '.' && startsWithDigit rest)

/-! ### One token -/

/-- The lexeme of a word: a reserved word if it is spelled like one, else a name. -/
def wordLexeme (text : String) : Lexeme :=
  match Word.ofText? text with
  | some w => .word w
  | none => .name text

/-- The cursor behind a run of characters that starts at an offset. -/
def behind (offset : Nat) (run rest : List Char) : Cursor :=
  ⟨rest, offset + byteLength run⟩

/-- The token that starts at an offset with a character, and the cursor behind it. The character
is not blank and starts no comment. -/
def stepHere (offset : Nat) (c : Char) (rest : List Char) : Except ScanError Token × Cursor :=
  if c = '"' || c = '\'' then
    let q := readQuoted c rest (offset + 1)
    if q.closed then (.ok ⟨.string (String.ofList q.value), offset, q.after.offset⟩, q.after)
    -- The error is reported at the opening quote, but reading goes on behind the string.
    else (.error ⟨.unclosedString, offset⟩, q.after)
  else if startsNumber c rest then
    let (number, rest) := splitNumber (c :: rest)
    let after := behind offset number rest
    (.ok ⟨.number (String.ofList number), offset, after.offset⟩, after)
  else if startsWord c then
    let word := c :: rest.takeWhile continuesWord
    let after := behind offset word (rest.dropWhile continuesWord)
    (.ok ⟨wordLexeme (String.ofList word), offset, after.offset⟩, after)
  else
    match Mark.leading? (c :: rest) with
    | some m =>
      let after := behind offset m.chars ((c :: rest).drop m.chars.length)
      (.ok ⟨.mark m, offset, after.offset⟩, after)
    -- The character is not taken, so a next step meets it again.
    | none => (.error ⟨.strayCharacter c, offset⟩, ⟨c :: rest, offset⟩)

/-- Skips blank space and comments, and takes one token. There is none at the end of the text. -/
def step (cursor : Cursor) : Except ScanError (Option Token) × Cursor :=
  match skipBlank .space cursor.rest cursor.offset with
  | .error (error, after) => (.error error, after)
  | .ok ⟨[], offset⟩ => (.ok none, ⟨[], offset⟩)
  | .ok ⟨c :: rest, offset⟩ =>
    match stepHere offset c rest with
    | (.ok token, after) => (.ok (some token), after)
    | (.error error, after) => (.error error, after)

/-- The answers of consecutive steps, each with the cursor behind it. A fault does not end them;
only the end of the text does, or that there are as many as were asked for. -/
def steps : Nat → Cursor → List (Except ScanError (Option Token) × Cursor)
  | 0, _ => []
  | more + 1, cursor =>
    match cursor.step with
    | (.ok none, after) => [(.ok none, after)]
    | (answer, after) => (answer, after) :: steps more after

/-! ### Steps make progress -/

/-- Behind blank space there is no more text than before. -/
theorem skipBlank_length_le {inside : Blank} {text : List Char} {n : Nat} {after : Cursor}
    (h : skipBlank inside text n = .ok after) : after.rest.length ≤ text.length := by
  fun_induction skipBlank inside text n <;> grind

/-- Nor is there behind a string. -/
theorem readQuoted_length_le (quote : Char) (text : List Char) (n : Nat) :
    (readQuoted quote text n).after.rest.length ≤ text.length := by
  fun_induction readQuoted quote text n <;> grind [Quotation.prepend]

/-- Nor is there behind a run of characters. -/
theorem length_dropWhile_le (p : Char → Bool) (text : List Char) :
    (text.dropWhile p).length ≤ text.length :=
  (List.dropWhile_sublist p).length_le

/-- Nor is there behind the fraction of a number. -/
theorem splitFraction_length_le (text : List Char) :
    (splitFraction text).2.length ≤ text.length := by
  unfold splitFraction
  split
  · split
    · exact Nat.le_succ_of_le (length_dropWhile_le _ _)
    · exact Nat.le_refl _
  · exact Nat.le_refl _

/-- Nor is there behind a sign. -/
theorem splitSign_length_le (text : List Char) : (splitSign text).2.length ≤ text.length := by
  unfold splitSign
  split <;> simp

/-- Nor is there behind an exponent. -/
theorem splitExponent_length_le (text : List Char) :
    (splitExponent text).2.length ≤ text.length := by
  cases text with
  | nil => exact Nat.le_refl _
  | cons e rest =>
    have hs := splitSign_length_le rest
    have hd := length_dropWhile_le Char.isDigit (splitSign rest).2
    simp only [splitExponent]
    split
    · split
      · simp only [List.length_cons]; omega
      · exact Nat.le_refl _
    · exact Nat.le_refl _

/-- Where a number starts, at least one character belongs to it. -/
theorem splitNumber_length_lt {c : Char} {rest : List Char} (h : startsNumber c rest = true) :
    (splitNumber (c :: rest)).2.length < (c :: rest).length := by
  unfold splitNumber
  split
  · rename_i tail heq
    have := length_dropWhile_le isHexDigit tail
    rw [heq]; simp only [List.length_cons]; omega
  · rename_i tail heq
    have := length_dropWhile_le isHexDigit tail
    rw [heq]; simp only [List.length_cons]; omega
  · refine Nat.lt_of_le_of_lt (splitExponent_length_le _) ?_
    by_cases hc : c.isDigit = true
    · refine Nat.lt_of_le_of_lt (splitFraction_length_le _) ?_
      rw [List.dropWhile_cons_of_pos hc]
      exact Nat.lt_succ_of_le (length_dropWhile_le _ _)
    · simp only [startsNumber, hc, Bool.false_or, Bool.and_eq_true, beq_iff_eq] at h
      rw [List.dropWhile_cons_of_neg hc, h.1, splitFraction, if_pos h.2]
      exact Nat.lt_succ_of_le (length_dropWhile_le _ _)

/-- Behind a token there is less text than before. -/
theorem stepHere_length_lt {offset : Nat} {c : Char} {rest : List Char} {token : Token}
    {after : Cursor} (h : stepHere offset c rest = (.ok token, after)) :
    after.rest.length < (c :: rest).length := by
  unfold stepHere at h
  split at h
  · have := readQuoted_length_le c rest (offset + 1)
    dsimp only at h
    split at h
    · rw [← (Prod.mk.inj h).2]; exact Nat.lt_succ_of_le this
    · simp at h
  · split at h
    · rename_i hn
      rw [← (Prod.mk.inj h).2]
      exact splitNumber_length_lt hn
    · split at h
      · rw [← (Prod.mk.inj h).2]
        exact Nat.lt_succ_of_le (length_dropWhile_le _ _)
      · split at h
        · rename_i m _
          have := List.length_pos_iff.mpr m.chars_ne_nil
          rw [← (Prod.mk.inj h).2]
          simp only [behind, List.length_drop, List.length_cons]
          omega
        · simp at h

/-- A step that takes a token leaves a shorter text. -/
theorem step_length_lt {cursor after : Cursor} {token : Token}
    (h : cursor.step = (.ok (some token), after)) :
    after.rest.length < cursor.rest.length := by
  unfold step at h
  split at h
  · simp at h
  · simp at h
  · rename_i c rest offset hskip
    have hle : (c :: rest).length ≤ cursor.rest.length := skipBlank_length_le hskip
    split at h
    · rename_i hstep
      rw [← (Prod.mk.inj h).2]
      exact Nat.lt_of_lt_of_le (stepHere_length_lt hstep) hle
    · simp at h

/-- All tokens from a cursor to the end of its text, or the first fault. -/
def tokens (cursor : Cursor) : Except ScanError (List Token) :=
  match _h : cursor.step with
  | (.ok (some token), after) =>
    match tokens after with
    | .ok rest => .ok (token :: rest)
    | .error error => .error error
  | (.ok none, _) => .ok []
  | (.error error, _) => .error error
termination_by cursor.rest.length
decreasing_by exact step_length_lt (by assumption)

/-- Behind a step that takes a token, the tokens go on from where it stands. -/
theorem tokens_of_step_some {cursor after : Cursor} {token : Token}
    (h : cursor.step = (.ok (some token), after)) :
    cursor.tokens = (after.tokens.map (token :: ·)) := by
  rw [tokens]
  split
  · rename_i t a h'
    rw [h] at h'
    obtain ⟨rfl, rfl⟩ : token = t ∧ after = a := by simpa using h'
    cases after.tokens <;> rfl
  · rename_i h'; rw [h] at h'; simp at h'
  · rename_i h'; rw [h] at h'; simp at h'

/-- A step that finds the end ends the tokens. -/
theorem tokens_of_step_none {cursor after : Cursor} (h : cursor.step = (.ok none, after)) :
    cursor.tokens = .ok [] := by
  rw [tokens]
  split
  · rename_i h'; rw [h] at h'; simp at h'
  · rfl
  · rename_i h'; rw [h] at h'; simp at h'

/-- A step that meets a fault is the fault of all tokens. -/
theorem tokens_of_step_error {cursor after : Cursor} {error : ScanError}
    (h : cursor.step = (.error error, after)) : cursor.tokens = .error error := by
  rw [tokens]
  split
  · rename_i h'; rw [h] at h'; simp at h'
  · rename_i h'; rw [h] at h'; simp at h'
  · rename_i h'; rw [h] at h'; simpa using (Prod.mk.inj h').1.symm

end Cursor

/-- The tokens of a text. -/
def Token.scan (text : String) : Except ScanError (List Token) :=
  (Cursor.ofText text).tokens

end Facade
