import Facade.Proofs.Token.Scans
import Facade.Proofs.Token.Singles
import Facade.Text.Quoted

/-!
# Texts that lexemes are written with

A text is written for some lexemes if the scanner makes those of it, whatever comes behind, as
long as that keeps to a condition (`Writes`). Such texts may be put together: `Writes.append`. The
scanner takes the longest mark, so a bracket `>` in front of another is not a token by itself;
lexemes are counted one by one here, and `writes_greater` says that `>` is one lexeme in front of
any of them.

There is one lemma for each sort of lexemes: words, numbers, quoted strings and marks. A string is
written by its quoted text if each of its characters is quoted as itself or by a short escape;
`readBack` says what else is read.
-/

set_option autoImplicit false

namespace Facade

open Facade.Text

/-- The tokens of a text one by one, or the first fault. -/
def Cursor.singly (cursor : Cursor) : Except ScanError (List Token) :=
  cursor.tokens.map singles

/-- To put nothing in front. -/
theorem map_nil_append (answer : Except ScanError (List Token)) :
    answer.map ([] ++ ·) = answer := by
  cases answer <;> rfl

/-- At a place in front of a text, the scanner makes some tokens of another. -/
def Tokenizes (text rest : List Char) (n : Nat) (tokens : List Token) : Prop :=
  Cursor.singly ⟨text ++ rest, n⟩ = (Cursor.singly ⟨rest, n + byteLength text⟩).map (tokens ++ ·)

/-- Texts in a row make tokens in a row. -/
theorem Tokenizes.append {text text' rest : List Char} {n : Nat} {tokens tokens' : List Token}
    (h : Tokenizes text (text' ++ rest) n tokens)
    (h' : Tokenizes text' rest (n + byteLength text) tokens') :
    Tokenizes (text ++ text') rest n (tokens ++ tokens') := by
  rw [Tokenizes] at h h'
  rw [Tokenizes, List.append_assoc, h, h', byteLength_append, Nat.add_assoc]
  cases Cursor.singly ⟨rest, n + (byteLength text + byteLength text')⟩ with
  | error error => rfl
  | ok all => exact congrArg Except.ok (List.append_assoc _ _ _).symm

/-- In front of what keeps to a condition, the scanner makes some lexemes of a text. -/
def Writes (text : List Char) (lexemes : List Lexeme) (ends : List Char → Prop) : Prop :=
  ∀ rest n, ends rest → ∃ tokens, tokens.map Token.lexeme = lexemes ∧ Tokenizes text rest n tokens

namespace Writes

variable {text text' : List Char} {lexemes lexemes' : List Lexeme}
  {ends ends' : List Char → Prop}

/-- Nothing is written for no lexemes. -/
theorem nil (ends : List Char → Prop) : Writes [] [] ends :=
  fun _ _ _ => ⟨[], rfl, (map_nil_append _).symm⟩

/-- What is written in front of some texts is written in front of fewer of them. -/
theorem mono (h : Writes text lexemes ends) (himp : ∀ rest, ends' rest → ends rest) :
    Writes text lexemes ends' :=
  fun rest n hends => h rest n (himp rest hends)

/-- Two texts that are written are written together, if the second may come behind the first. -/
theorem append (h : Writes text lexemes ends) (h' : Writes text' lexemes' ends')
    (hends : ∀ rest, ends' rest → ends (text' ++ rest)) :
    Writes (text ++ text') (lexemes ++ lexemes') ends' := by
  intro rest n hrest
  obtain ⟨tokens, hlexemes, hread⟩ := h (text' ++ rest) n (hends rest hrest)
  obtain ⟨tokens', hlexemes', hread'⟩ := h' rest (n + byteLength text) hrest
  exact ⟨tokens ++ tokens', by rw [List.map_append, hlexemes, hlexemes'], hread.append hread'⟩

end Writes

namespace Cursor

variable {c : Char} {text rest : List Char} {n : Nat}

/-- A token that stands where no blank space does. -/
theorem step_of_stepHere {token : Token} {after : Cursor}
    (hblank : (isBlank c || c == '\uFEFF') = false) (hcomment : startsComment (c :: text) = false)
    (h : stepHere n c text = (.ok token, after)) :
    step ⟨c :: text, n⟩ = (.ok (some token), after) := by
  rw [step, skipBlank_space hcomment, hblank, if_neg Bool.false_ne_true]
  simp only [h]

end Cursor

/-- In front of a space there are no tokens to be made. -/
theorem tokenizes_space (rest : List Char) (n : Nat) : Tokenizes [' '] rest n [] := by
  rw [Tokenizes, Cursor.singly, List.singleton_append, Cursor.tokens_blank rfl, map_nil_append]
  rfl

/-- A space is written for nothing. -/
theorem writes_space (ends : List Char → Prop) : Writes [' '] [] ends :=
  fun rest n _ => ⟨[], rfl, tokenizes_space rest n⟩

/-- A text that is one token, in front of what keeps to a condition. -/
theorem writes_of_stepHere {c : Char} {taken : List Char} {lexeme : Lexeme}
    {ends : List Char → Prop} (hblank : (isBlank c || c == '\uFEFF') = false) (hslash : c ≠ '/')
    (hangle : lexeme.isAngle = false)
    (h : ∀ rest n, ends rest → Cursor.stepHere n c (taken ++ rest)
      = (.ok ⟨lexeme, n, n + byteLength (c :: taken)⟩, ⟨rest, n + byteLength (c :: taken)⟩)) :
    Writes (c :: taken) [lexeme] ends := by
  intro rest n hrest
  have hstep := Cursor.step_of_stepHere hblank (Cursor.startsComment_of_ne hslash (taken ++ rest))
    (h rest n hrest)
  refine ⟨[⟨lexeme, n, n + byteLength (c :: taken)⟩], rfl, ?_⟩
  rw [Tokenizes, Cursor.singly, List.cons_append, Cursor.tokens_of_step_some hstep, Cursor.singly]
  cases Cursor.tokens ⟨rest, n + byteLength (c :: taken)⟩ with
  | error error => rfl
  | ok all =>
    refine congrArg Except.ok ?_
    rw [singles_cons, Token.singles_of_not_isAngle hangle]

/-! ### Words -/

/-- The blank characters, and the byte order mark. -/
def blankCodes : List Nat :=
  [0x09, 0x0A, 0x0B, 0x0C, 0x0D, 0x20, 0x85, 0xA0, 0x1680, 0x2000, 0x2001, 0x2002, 0x2003, 0x2004,
   0x2005, 0x2006, 0x2007, 0x2008, 0x2009, 0x200A, 0x2028, 0x2029, 0x202F, 0x205F, 0x3000, 0xFEFF]

/-- There are no other blank characters than these. -/
theorem mem_blankCodes {c : Char} (h : (isBlank c || c == '\uFEFF') = true) :
    c.toNat ∈ blankCodes := by
  simp only [Bool.or_eq_true, beq_iff_eq] at h
  rcases h with h | rfl
  · simp only [isBlank, Bool.or_eq_true, Bool.and_eq_true, decide_eq_true_eq, beq_iff_eq] at h
    simp only [blankCodes, List.mem_cons, List.not_mem_nil, or_false]
    omega
  · decide

/-- No word starts with a blank character. -/
theorem not_blank_of_startsWord {c : Char} (h : startsWord c = true) :
    (isBlank c || c == '\uFEFF') = false := by
  have hall : ∀ n ∈ blankCodes, startsWord (Char.ofNat n) = false := by decide +kernel
  rw [← Bool.not_eq_true]
  intro hblank
  have hnot := hall c.toNat (mem_blankCodes hblank)
  rw [Char.ofNat_toNat, h] at hnot
  cases hnot

/-- The code points of the digits. -/
theorem toNat_mem_of_isDigit {c : Char} (h : c.isDigit = true) : c.toNat ∈ List.range' 48 10 := by
  simp only [Char.isDigit, Bool.and_eq_true, decide_eq_true_eq, ge_iff_le,
    UInt32.le_iff_toNat_le] at h
  rw [List.mem_range'_1]
  exact ⟨h.1, Nat.lt_succ_of_le h.2⟩

/-- No word starts like a string, a number or a comment. -/
theorem ne_of_startsWord {c : Char} (h : startsWord c = true) :
    c ≠ '/' ∧ ¬ (c = '"' || c = '\'') = true ∧ c.isDigit = false ∧ c ≠ '.' := by
  have hne : ∀ d : Char, startsWord d = false → c ≠ d := by
    rintro d hd rfl
    cases h.symm.trans hd
  have hdigits : ∀ n ∈ List.range' 48 10, startsWord (Char.ofNat n) = false := by decide +kernel
  refine ⟨hne _ (by decide), ?_, ?_, hne _ (by decide)⟩
  · simp only [Bool.or_eq_true, decide_eq_true_eq, not_or]
    exact ⟨hne _ (by decide), hne _ (by decide)⟩
  · rw [← Bool.not_eq_true]
    intro hdigit
    have hnot := hdigits c.toNat (toNat_mem_of_isDigit hdigit)
    rw [Char.ofNat_toNat, h] at hnot
    cases hnot

/-- A word is no closing angle bracket. -/
theorem isAngle_wordLexeme (text : String) : (Cursor.wordLexeme text).isAngle = false := by
  rw [Cursor.wordLexeme]
  split <;> rfl

/-- A text that no word goes on with. -/
def WordEnds (text : List Char) : Prop :=
  ∀ c ∈ text.head?, continuesWord c = false

/-- Where a name or a number ends, a word does. -/
theorem Breaks.wordEnds {text : List Char} (h : Breaks text) : WordEnds text :=
  fun c hc => continuesWord_of_isBreak c (h c hc)

/-- A word is written as it is. -/
theorem writes_word {text : String} (h : Identifier.isWord text.toList = true) :
    Writes text.toList [Cursor.wordLexeme text] WordEnds := by
  cases hchars : text.toList with
  | nil =>
    rw [hchars] at h
    cases h
  | cons c taken =>
    rw [hchars, Identifier.isWord, Bool.and_eq_true, List.all_eq_true] at h
    obtain ⟨hslash, hquote, hdigit, hdot⟩ := ne_of_startsWord h.1
    have htext : text = String.ofList (c :: taken) := by rw [← hchars, String.ofList_toList]
    refine writes_of_stepHere (not_blank_of_startsWord h.1) hslash (isAngle_wordLexeme text) ?_
    intro rest n hends
    have hnumber : ¬ Cursor.startsNumber c (taken ++ rest) = true := by
      simp [Cursor.startsNumber, hdigit, hdot]
    obtain ⟨htake, hdrop⟩ := takeWhile_eq_of_stops h.2 hends
    rw [Cursor.stepHere, if_neg hquote, if_neg hnumber, if_pos h.1, htake, hdrop, htext]
    rfl

/-- A reserved word is spelled as a word. -/
theorem isWord_spelling (word : Word) : Identifier.isWord word.spelling.toList = true := by
  cases word <;> decide +kernel

/-- What is spelled as a reserved word is read as it. -/
theorem wordLexeme_spelling (word : Word) : Cursor.wordLexeme word.spelling = .word word := by
  rw [Cursor.wordLexeme, Word.ofText?_spelling]

/-- A reserved word is written as it is spelled. -/
theorem writes_reserved (word : Word) : Writes word.spelling.toList [.word word] WordEnds := by
  rw [← wordLexeme_spelling]
  exact writes_word (isWord_spelling word)

/-! ### Numbers -/

/-- A number starts neither like blank space nor like a comment or a string. -/
theorem not_blank_of_startsNumber {c : Char} {text : List Char}
    (h : Cursor.startsNumber c text = true) : (isBlank c || c == '\uFEFF') = false
      ∧ c ≠ '/' ∧ ¬ (c = '"' || c = '\'') = true := by
  rw [Cursor.startsNumber, Bool.or_eq_true] at h
  rcases h with h | h
  · have hall : ∀ n ∈ List.range' 48 10,
        (isBlank (Char.ofNat n) || Char.ofNat n == '\uFEFF') = false
        ∧ Char.ofNat n ≠ '/' ∧ ¬ (Char.ofNat n = '"' || Char.ofNat n = '\'') = true := by decide
    have hc := hall c.toNat (toNat_mem_of_isDigit h)
    rwa [Char.ofNat_toNat] at hc
  · rw [Bool.and_eq_true, beq_iff_eq] at h
    rw [h.1]
    decide

/-- A number is written as it is. -/
theorem writes_number {text : String} (h : IsNumber text) :
    Writes text.toList [.number text] Breaks := by
  obtain ⟨c, taken, hchars, hstarts, hsplit⟩ := h
  obtain ⟨hblank, hslash, hquote⟩ := not_blank_of_startsNumber hstarts
  have htext : text = String.ofList (c :: taken) := by rw [← hchars, String.ofList_toList]
  rw [hchars]
  refine writes_of_stepHere hblank hslash rfl fun rest n hbreaks => ?_
  have hcut : Cut Breaks [] rest := .intro [] [] hbreaks
  have hmore : Cursor.splitNumber (c :: (taken ++ rest)) = (c :: taken, rest) := by
    refine splitNumber_cut (List.cons_ne_nil c taken) ?_ hcut
    rw [List.append_nil]
    exact hsplit
  rw [Cursor.stepHere, if_neg hquote, if_pos (Cursor.startsNumber_append hstarts rest), hmore,
    htext]
  rfl

/-! ### Strings -/

/-- Characters that are quoted as themselves, or by a backslash and one character. -/
def Text.Quoted.isShort (c : Char) : Bool :=
  c ∈ ['"', '\\', '\t', '\r', '\n', '\x00'] || !needsCodePoint c

/-- A character that needs no escape is quoted as itself. -/
theorem encodeChar_self {c : Char} (hescape : c ∉ ['"', '\\', '\t', '\r', '\n', '\x00'])
    (hplain : Quoted.needsCodePoint c = false) : Quoted.encodeChar c = [c] := by
  rw [Quoted.encodeChar.eq_def]
  split <;> first
    | exact absurd (by decide) hescape
    | rw [hplain, if_neg Bool.false_ne_true]

/-- A character without a short escape is quoted by its code point. -/
theorem encodeChar_codePoint {c : Char} (h : Quoted.isShort c = false) :
    Quoted.encodeChar c = Quoted.codePoint c := by
  rw [Quoted.isShort, Bool.or_eq_false_iff, decide_eq_false_iff_not, Bool.not_eq_false'] at h
  rw [Quoted.encodeChar.eq_def]
  split <;> first
    | exact absurd (by decide) h.1
    | rw [h.2, if_pos rfl]

/-- What is read of a character that is quoted. No escape has more than one character, so a code
point in braces only loses its backslash. -/
def Text.Quoted.readBack (c : Char) : List Char :=
  if isShort c then [c] else (codePoint c).tail

/-- Characters that neither end a string nor escape another one. -/
def plainInQuotes (text : List Char) : Prop :=
  ∀ c ∈ text, c ∉ ['\\', '\n', '"']

/-- Plain characters are read as themselves. -/
theorem readQuoted_plain {plain : List Char} (h : plainInQuotes plain) (text : List Char)
    (n : Nat) : Cursor.readQuoted '"' (plain ++ text) n
      = (Cursor.readQuoted '"' text (n + byteLength plain)).prepend plain := by
  induction plain generalizing n with
  | nil => rfl
  | cons c plain ih =>
    obtain ⟨hc, hrest⟩ := List.forall_mem_cons.mp h
    have hne : ∀ d ∈ ['\\', '\n', '"'], c ≠ d := by
      rintro d hd rfl
      exact hc hd
    rw [List.cons_append, Cursor.readQuoted_cons (hne '\\' (by decide)),
      if_neg (hne '\n' (by decide)), if_neg (hne '"' (by decide)), ih hrest, byteLength,
      Nat.add_assoc]
    rfl

/-- The digits of a code point are plain. -/
theorem plainInQuotes_toDigits (n : Nat) : plainInQuotes (Nat.toDigits 16 n) := by
  have hdigits : ∀ d < 16, Nat.digitChar d ∉ ['\\', '\n', '"'] := by decide
  induction n using Nat.strongRecOn with
  | ind n ih =>
    intro c hc
    rw [Nat.toDigits_eq_if (by decide)] at hc
    split at hc
    · rw [List.mem_singleton.mp hc]
      exact hdigits n ‹_›
    · rcases List.mem_append.mp hc with hc | hc
      · exact ih (n / 16) (by omega) c hc
      · rw [List.mem_singleton.mp hc]
        exact hdigits (n % 16) (Nat.mod_lt n (by decide))

/-- What is written between quotes for each character is read as some characters, in front of
anything. -/
def ReadsQuoted (write read : Char → List Char) : Prop :=
  ∀ (c : Char) (text : List Char) (n : Nat), Cursor.readQuoted '"' (write c ++ text) n
    = (Cursor.readQuoted '"' text (n + byteLength (write c))).prepend (read c)

/-- What a character is quoted by is read back as `Quoted.readBack` tells. -/
theorem readsQuoted_encodeChar : ReadsQuoted Quoted.encodeChar Quoted.readBack := by
  intro c text n
  by_cases hescape : c ∈ ['"', '\\', '\t', '\r', '\n', '\x00']
  · simp only [List.mem_cons, List.not_mem_nil, or_false] at hescape
    rcases hescape with rfl | rfl | rfl | rfl | rfl | rfl <;> rfl
  cases hshort : Quoted.isShort c with
  | true =>
    have hpoint : Quoted.needsCodePoint c = false := by
      simpa [Quoted.isShort, hescape] using hshort
    have hsubset : ∀ d ∈ ['\\', '\n', '"'], d ∈ ['"', '\\', '\t', '\r', '\n', '\x00'] := by
      simp
    have hplain : plainInQuotes [c] :=
      List.forall_mem_singleton.mpr fun hin => hescape (hsubset c hin)
    rw [encodeChar_self hescape hpoint, Quoted.readBack, if_pos hshort]
    exact readQuoted_plain hplain text n
  | false =>
    -- The letter behind the backslash stands for itself, and the rest is taken as it is.
    have hplain : plainInQuotes ('{' :: (Nat.toDigits 16 c.toNat ++ ['}'])) := by
      refine List.forall_mem_cons.mpr ⟨by decide, fun d hd => ?_⟩
      rcases List.mem_append.mp hd with hd | hd
      · exact plainInQuotes_toDigits c.toNat d hd
      · exact List.mem_singleton.mp hd ▸ by decide
    rw [encodeChar_codePoint hshort, Quoted.readBack, if_neg (by rw [hshort]; decide)]
    have hu : Cursor.readQuoted '"' (Quoted.codePoint c ++ text) n
        = (Cursor.readQuoted '"' ('{' :: (Nat.toDigits 16 c.toNat ++ ['}']) ++ text)
          (n + 1 + 1)).prepend ['u'] := rfl
    rw [hu, readQuoted_plain hplain, Nat.add_assoc, Nat.add_assoc]
    rfl

/-- What is quoted character by character is read up to the quote that closes it. -/
theorem ReadsQuoted.closed {write read : Char → List Char} (h : ReadsQuoted write read)
    (value rest : List Char) (n : Nat) :
    Cursor.readQuoted '"' (value.flatMap write ++ '"' :: rest) n
      = ⟨value.flatMap read, true, ⟨rest, n + byteLength (value.flatMap write) + 1⟩⟩ := by
  induction value generalizing n with
  | nil =>
    rw [List.flatMap_nil, List.nil_append, Cursor.readQuoted_cons (by decide)]
    rfl
  | cons c value ih =>
    rw [List.flatMap_cons, List.append_assoc, h, ih, byteLength_append, Nat.add_assoc n]
    rfl

/-- So it is a single token, in front of anything. -/
theorem ReadsQuoted.stepHere {write read : Char → List Char} (h : ReadsQuoted write read)
    (value rest : List Char) (n : Nat) :
    Cursor.stepHere n '"' (value.flatMap write ++ ['"'] ++ rest)
      = (.ok ⟨.string (String.ofList (value.flatMap read)), n,
            n + byteLength ('"' :: (value.flatMap write ++ ['"']))⟩,
          ⟨rest, n + byteLength ('"' :: (value.flatMap write ++ ['"']))⟩) := by
  have hsize : byteLength ('"' :: (value.flatMap write ++ ['"']))
      = 1 + byteLength (value.flatMap write) + 1 := by
    rw [byteLength, byteLength_append, Nat.add_assoc]
    rfl
  rw [Cursor.stepHere, if_pos (by decide), List.append_assoc, List.singleton_append, h.closed,
    hsize]
  simp only [if_pos, Nat.add_assoc]

/-- A string is read back exactly if no character of it is quoted by its code point: where one is,
the letter `u` stands in its place, and that is quoted as itself. -/
theorem flatMap_readBack_eq_self (value : List Char) :
    value.flatMap Quoted.readBack = value ↔ ∀ c ∈ value, Quoted.isShort c = true := by
  induction value with
  | nil => exact ⟨fun _ => List.forall_mem_nil _, fun _ => rfl⟩
  | cons c value ih =>
    rw [List.flatMap_cons, List.forall_mem_cons, Quoted.readBack]
    cases hshort : Quoted.isShort c with
    | true =>
      rw [if_pos rfl, List.singleton_append, List.cons_inj_right, ih, eq_self, true_and]
    | false =>
      rw [if_neg Bool.false_ne_true]
      refine ⟨fun heq => ?_, fun h => absurd h.1 Bool.false_ne_true⟩
      have hu : 'u' = c := (List.cons.inj heq).1
      rw [← hu] at hshort
      exact absurd hshort (by decide +kernel)

/-- And so it is written for that token. -/
theorem ReadsQuoted.writes {write read : Char → List Char} (h : ReadsQuoted write read)
    (value : List Char) (ends : List Char → Prop) :
    Writes ('"' :: (value.flatMap write ++ ['"'])) [.string (String.ofList (value.flatMap read))]
      ends :=
  writes_of_stepHere (by decide) (by decide) rfl fun rest n _ => h.stepHere value rest n

/-- A string that is quoted is written for what is read back of it. -/
theorem writes_quoted (value : String) (ends : List Char → Prop) : Writes (quoted value).toList
    [.string (String.ofList (value.toList.flatMap Quoted.readBack))] ends := by
  rw [quoted, String.toList_ofList]
  exact readsQuoted_encodeChar.writes value.toList ends

/-- A string whose characters are quoted shortly is written between quotes. -/
theorem writes_string {value : String} (h : ∀ c ∈ value.toList, Quoted.isShort c = true)
    (ends : List Char → Prop) : Writes (quoted value).toList [.string value] ends := by
  have hwrites := writes_quoted value ends
  rwa [(flatMap_readBack_eq_self value.toList).mpr h, String.ofList_toList] at hwrites


/-! ### Marks -/

/-- The characters that go on with a longer mark behind the first one. -/
def Mark.followers (c : Char) : List Char :=
  all.filterMap fun mark =>
    match mark.chars with
    | first :: second :: _ => if first = c then some second else none
    | _ => none

/-- The list of marks has all of them. -/
theorem Mark.mem_all (mark : Mark) : mark ∈ all := by
  cases mark <;> decide

/-- A mark is known by its characters. -/
theorem Mark.chars_injective {mark other : Mark} (h : mark.chars = other.chars) : mark = other := by
  have hall : ∀ m ∈ all, ∀ o ∈ all, m.chars = o.chars → m = o := by decide +kernel
  exact hall mark mark.mem_all other other.mem_all h

/-- A mark of one character is not taken for a longer one, unless it goes on like that. -/
theorem leading?_single {mark : Mark} {c : Char} (hmark : mark.chars = [c]) {rest : List Char}
    (h : ∀ d ∈ rest.head?, d ∉ Mark.followers c) : Mark.leading? (c :: rest) = some mark := by
  -- A mark that also starts here goes on with the next character, which is then a follower of `c`.
  have honly : ∀ other : Mark, other.chars <+: c :: rest → other = mark := by
    intro other hother
    obtain ⟨more, hmore⟩ := hother
    cases hchars : other.chars with
    | nil => exact absurd hchars other.chars_ne_nil
    | cons first behind =>
      rw [hchars, List.cons_append] at hmore
      obtain ⟨rfl, hbehind⟩ := List.cons.inj hmore
      cases behind with
      | nil => exact Mark.chars_injective (hchars.trans hmark.symm)
      | cons second behind =>
        rw [List.cons_append] at hbehind
        refine absurd ?_ (h second (by rw [← hbehind]; rfl))
        exact List.mem_filterMap.mpr ⟨other, other.mem_all, by rw [hchars]; exact if_pos rfl⟩
  cases hfound : Mark.leading? (c :: rest) with
  | none =>
    have hnot := List.find?_eq_none.mp hfound mark mark.mem_all
    rw [List.isPrefixOf_iff_prefix, hmark] at hnot
    exact absurd (List.prefix_append [c] rest) hnot
  | some other =>
    obtain ⟨hother, -⟩ := List.find?_eq_some_iff_append.mp hfound
    rw [honly other (List.isPrefixOf_iff_prefix.mp hother)]

/-- A mark is written as it is, in front of what does not make it a longer mark or a number. -/
theorem writes_mark (mark : Mark) {ends : List Char → Prop}
    (hangle : (Lexeme.mark mark).isAngle = false) (hslash : mark.chars.head? ≠ some '/')
    (hleading : ∀ rest, ends rest → Mark.leading? (mark.chars ++ rest) = some mark)
    (hdot : mark = .dot → ∀ rest, ends rest → Cursor.startsWithDigit rest = false) :
    Writes mark.chars [.mark mark] ends := by
  cases hchars : mark.chars with
  | nil => exact absurd hchars mark.chars_ne_nil
  | cons c taken =>
    -- What else could be read at the first character of a mark: only a dot may start a number.
    have hfirst : (isBlank c || c == '\uFEFF') = false ∧ c.isDigit = false ∧ startsWord c = false
        ∧ ¬ (c = '"' || c = '\'') = true ∧ (c = '.' → mark = .dot ∨ mark = .ellipsis) := by
      cases mark <;> cases hchars <;> decide
    obtain ⟨hblank, hdigit, hword, hquote, hpoint⟩ := hfirst
    have hne : c ≠ '/' := fun heq => hslash (by rw [hchars, heq]; rfl)
    refine writes_of_stepHere hblank hne hangle fun rest n hrest => ?_
    have hnumber : ¬ Cursor.startsNumber c (taken ++ rest) = true := by
      rw [Cursor.startsNumber, hdigit, Bool.false_or, Bool.and_eq_true, beq_iff_eq]
      rintro ⟨rfl, hstarts⟩
      rcases hpoint rfl with rfl | rfl
      · cases hchars
        cases (hdot rfl rest hrest).symm.trans hstarts
      · cases hchars
        cases hstarts
    have hmark : Mark.leading? (c :: (taken ++ rest)) = some mark := by
      rw [← List.cons_append, ← hchars]
      exact hleading rest hrest
    have hdrop : (c :: (taken ++ rest)).drop mark.chars.length = rest := by
      rw [← List.cons_append, ← hchars, List.drop_left]
    rw [Cursor.stepHere, if_neg hquote, if_neg hnumber, if_neg (by rw [hword]; decide), hmark]
    dsimp only
    rw [hdrop, hchars]
    rfl

/-- Marks that no longer mark starts with are written as they are in front of anything. -/
theorem writes_markAlone (mark : Mark) (ends : List Char → Prop)
    (h : mark ∈ [.parenOpen, .parenClose, .braceOpen, .braceClose, .bracketOpen, .bracketClose,
      .comma, .semicolon, .colon, .question]) : Writes mark.chars [.mark mark] ends := by
  have hmark : (Lexeme.mark mark).isAngle = false ∧ mark.chars.head? ≠ some '/' ∧ mark ≠ .dot
      ∧ ∃ c, mark.chars = [c] ∧ Mark.followers c = [] := by
    simp only [List.mem_cons, List.not_mem_nil, or_false] at h
    rcases h with rfl | rfl | rfl | rfl | rfl | rfl | rfl | rfl | rfl | rfl <;>
      exact ⟨rfl, by decide, by decide, _, rfl, by decide⟩
  obtain ⟨hangle, hslash, hdot, c, hone, hnone⟩ := hmark
  refine writes_mark mark hangle hslash (fun rest _ => ?_) fun heq => absurd heq hdot
  rw [hone]
  exact leading?_single hone fun d _ => by rw [hnone]; exact List.not_mem_nil

/-- A mark of one character, in front of one that does not go on with a longer mark. -/
theorem writes_markBefore (mark : Mark) {c : Char} (hmark : mark.chars = [c])
    (hangle : (Lexeme.mark mark).isAngle = false) (hslash : c ≠ '/') (hdot : mark ≠ .dot) :
    Writes [c] [.mark mark] fun rest => ∀ d ∈ rest.head?, d ∉ Mark.followers c := by
  rw [← hmark]
  refine writes_mark mark hangle ?_ (fun rest hrest => ?_) fun heq => absurd heq hdot
  · rw [hmark]
    exact fun heq => hslash (Option.some.inj heq)
  · rw [hmark]
    exact leading?_single hmark hrest

/-! ### Closing angle brackets -/

/-- What does not make a bracket in front of it a comparison. -/
def AngleSafe (text : List Char) : Prop :=
  (text.dropWhile (· == '>')).head? ≠ some '='

namespace Cursor

/-- A mark that starts with a closing bracket is taken off the front. -/
theorem step_angle {mark : Mark} {taken rest : List Char} (hchars : mark.chars = '>' :: taken)
    (h : Mark.leading? ('>' :: (taken ++ rest)) = some mark) (n : Nat) :
    step ⟨'>' :: (taken ++ rest), n⟩ = (.ok (some ⟨.mark mark, n, n + byteLength mark.chars⟩),
      ⟨rest, n + byteLength mark.chars⟩) := by
  have hdrop : ('>' :: (taken ++ rest)).drop mark.chars.length = rest := by
    rw [← List.cons_append, ← hchars, List.drop_left]
  refine step_of_stepHere (by decide) (startsComment_of_ne (by decide) _) ?_
  have hnumber : ¬ startsNumber '>' (taken ++ rest) = true := by simp [startsNumber]
  rw [stepHere, if_neg (by decide), if_neg hnumber, if_neg (by decide), h]
  dsimp only
  rw [hdrop]
  rfl

/-- One by one, its brackets stand in front of the tokens behind it. -/
theorem singly_angle {mark : Mark} {taken rest : List Char} (hchars : mark.chars = '>' :: taken)
    (h : Mark.leading? ('>' :: (taken ++ rest)) = some mark) (n : Nat) :
    singly ⟨'>' :: (taken ++ rest), n⟩ = (singly ⟨rest, n + byteLength mark.chars⟩).map
      (Token.singles ⟨.mark mark, n, n + byteLength mark.chars⟩ ++ ·) := by
  rw [singly, tokens_of_step_some (step_angle hchars h n), singly]
  cases Cursor.tokens ⟨rest, n + byteLength mark.chars⟩ <;> rfl

/-- Brackets in a row from a place on. -/
def angles (n count : Nat) : List Token :=
  (List.range' n count).map fun k => ⟨.mark .greater, k, k + 1⟩

/-- Brackets in a row are as many tokens one by one. -/
theorem singly_angles {rest : List Char} (h : ∀ d ∈ rest.head?, d ≠ '>' ∧ d ≠ '=') (count n : Nat) :
    singly ⟨List.replicate count '>' ++ rest, n⟩
      = (singly ⟨rest, n + count⟩).map (angles n count ++ ·) := by
  -- The scanner takes three brackets at once as long as there are three, and then what is left.
  match count with
  | 0 => exact (map_nil_append _).symm
  | 1 =>
    have hfollowers : Mark.followers '>' = ['>', '=', '>'] := by decide
    have hleading : Mark.leading? ('>' :: ([] ++ rest)) = some .greater :=
      leading?_single rfl fun d hd => by
        rw [hfollowers]
        simpa using ⟨(h d hd).1, (h d hd).2, (h d hd).1⟩
    exact singly_angle rfl hleading n
  | 2 =>
    have hleading : Mark.leading? ('>' :: (['>'] ++ rest)) = some .shiftRight := by
      cases rest with
      | nil => rfl
      | cons d more =>
        have hd : ('>' == d) = false := beq_false_of_ne (h d rfl).1.symm
        simp [Mark.leading?, Mark.all, Mark.chars, List.isPrefixOf, hd]
    exact singly_angle rfl hleading n
  | count + 3 =>
    have hrest := singly_angles h count (n + 3)
    have hleading : Mark.leading? ('>' :: (['>', '>'] ++ (List.replicate count '>' ++ rest)))
        = some .shiftRightUnsigned := rfl
    refine (singly_angle rfl hleading n).trans ?_
    have hsize : byteLength (Mark.chars .shiftRightUnsigned) = 3 := rfl
    rw [hsize, hrest, Nat.add_right_comm n 3 count]
    cases singly ⟨rest, n + count + 3⟩ <;> rfl

end Cursor

/-- A text that is safe behind a bracket is a row of brackets with something else behind it, which
makes no comparison of the last. -/
theorem AngleSafe.split {text : List Char} (h : AngleSafe text) :
    ∃ count rest, text = List.replicate count '>' ++ rest
      ∧ ∀ d ∈ rest.head?, d ≠ '>' ∧ d ≠ '=' := by
  have hrun : text.takeWhile (· == '>') = List.replicate (text.takeWhile (· == '>')).length '>' :=
    List.eq_replicate_iff.mpr ⟨rfl, fun c hc => by simpa using List.mem_takeWhile_imp hc⟩
  refine ⟨(text.takeWhile (· == '>')).length, text.dropWhile (· == '>'), ?_,
    fun d hd => ⟨fun heq => ?_, fun heq => ?_⟩⟩
  · rw [← hrun, List.takeWhile_append_dropWhile]
  · have hstop := List.head?_dropWhile_not (· == '>') text
    rw [Option.mem_def.mp hd, heq] at hstop
    cases hstop
  · rw [heq] at hd
    exact h hd

/-- A closing angle bracket is one lexeme in front of others. -/
theorem writes_greater : Writes ['>'] [.mark .greater] AngleSafe := by
  intro rest n hsafe
  obtain ⟨count, rest, rfl, hrest⟩ := hsafe.split
  refine ⟨[⟨.mark .greater, n, n + 1⟩], rfl, ?_⟩
  have hall := Cursor.singly_angles hrest (count + 1) n
  have hmore := Cursor.singly_angles hrest count (n + 1)
  rw [List.replicate_succ, List.cons_append] at hall
  have hsize : n + byteLength ['>'] = n + 1 := rfl
  rw [Tokenizes, List.singleton_append, hall, hsize, hmore, Nat.add_right_comm n 1 count]
  cases Cursor.singly ⟨rest, n + count + 1⟩ <;> rfl

end Facade
