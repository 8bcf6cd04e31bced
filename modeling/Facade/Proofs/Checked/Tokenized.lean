import Facade.Proofs.Checked.Scanner
import Facade.Proofs.Token.Scanned
import Facade.Proofs.Token.Scans

/-!
# The checked scanner finishes

Wherever the scanner stands in a text, what is left of the text is a rest of it (`At`), so to cut
there passes the check. A loop ends because every round leaves a shorter rest: `loop_ends` asks of
a round only that it gets on, or answers (`Round`), and each loop has a model in what the cursor
does. On every text `tokenize` answers what the cursor answers, and its errors stand between two
characters (`tokenized_tokenize`).
-/

set_option autoImplicit false

namespace Facade.Checked

open Facade.Text

/-! ### Cuts that pass -/

/-- The rest of a text starts at an offset. -/
def At (text : List Char) (pos : Nat) (rest : List Char) : Prop :=
  ∃ front, text = front ++ rest ∧ byteLength front = pos

variable {text rest taken : List Char} {pos : Nat} {c : Char}

/-- All of the text is left at its start. -/
theorem At.start (text : List Char) : At text 0 text :=
  ⟨[], rfl, rfl⟩

/-- Where a rest starts is between two characters. -/
theorem At.boundary (h : At text pos rest) : IsBoundary text pos := by
  obtain ⟨front, rfl, rfl⟩ := h
  exact isBoundary_byteLength front rest

/-- Behind the first characters of the rest comes what follows them. -/
theorem At.skip (h : At text pos (taken ++ rest)) : At text (pos + byteLength taken) rest := by
  obtain ⟨front, rfl, rfl⟩ := h
  exact ⟨front ++ taken, (List.append_assoc _ _ _).symm, byteLength_append _ _⟩

/-- The same where the rest is known as it is cut. -/
theorem At.split {more : List Char} (h : At text pos rest) (heq : taken ++ more = rest) :
    At text (pos + byteLength taken) more := by
  subst heq
  exact h.skip

/-- Behind the first character, the rest is one character shorter. -/
theorem At.tail (h : At text pos (c :: rest)) : At text (pos + c.utf8Size) rest :=
  have hrest : At text pos ([c] ++ rest) := h
  hrest.skip

/-- To cut off the first characters of the rest passes the check. -/
theorem At.slice?_eq (h : At text pos (taken ++ rest)) :
    slice? text pos (pos + byteLength taken) = some taken := by
  have hstart := h.boundary
  have hstop := h.skip.boundary
  obtain ⟨front, rfl, rfl⟩ := h
  rw [slice?, if_pos ⟨Nat.le_add_right _ _, hstart, hstop⟩, slice_middle]

/-- A rest is no longer than the text. -/
theorem At.length_le (h : At text pos rest) : rest.length ≤ text.length := by
  obtain ⟨front, rfl, -⟩ := h
  simp

/-- Nothing is left only at the end of the text. -/
theorem At.eq_byteLength (h : At text pos []) : pos = byteLength text := by
  obtain ⟨front, rfl, rfl⟩ := h
  rw [List.append_nil]

/-- To take all of the rest passes the check. -/
@[simp] theorem At.rest?_eq (h : At text pos rest) : rest? text pos = some rest := by
  have hrest : At text pos (rest ++ []) := by rwa [List.append_nil]
  have hslice := hrest.slice?_eq
  obtain ⟨front, rfl, rfl⟩ := h
  rwa [rest?, byteLength_append]

/-- To look at the next character passes the check. -/
@[simp] theorem At.peek?_eq (h : At text pos rest) : peek? text pos = some rest.head? := by
  rw [peek?, h.rest?_eq, Option.map_some]

/-- To look at the second character passes the check. -/
@[simp] theorem At.second?_eq (h : At text pos rest) :
    second? text pos = some rest.tail.head? := by
  rw [second?, h.rest?_eq, Option.map_some]

/-! ### Loops that end -/

section Loops

variable {σ α β : Type} {offset : σ → Nat} {model : List Char → σ → β} {post : β → α → Prop}
  {body : σ → Option (σ ⊕ α)}

/-- One round in front of the rest of a text. It goes on in front of a shorter one, for which a
model says the same, or it answers what has to be answered. -/
inductive Round (text : List Char) (offset : σ → Nat) (model : List Char → σ → β)
    (post : β → α → Prop) (rest : List Char) (state : σ) : Option (σ ⊕ α) → Prop where
  | again {next : σ} {more : List Char} : At text (offset next) more →
      more.length < rest.length → model more next = model rest state →
      Round text offset model post rest state (some (.inl next))
  | done {answer : α} : post (model rest state) answer →
      Round text offset model post rest state (some (.inr answer))

/-- A loop that gets on with every round ends, and answers what has to be answered. -/
theorem loop_ends (hround : ∀ state rest, At text (offset state) rest →
      Round text offset model post rest state (body state)) (state : σ)
    (h : At text (offset state) rest) :
    ∃ answer, loop none body (text.length + 1) state = some answer
      ∧ post (model rest state) answer := by
  suffices ∀ rounds state rest, At text (offset state) rest → rest.length < rounds →
      ∃ answer, loop none body rounds state = some answer ∧ post (model rest state) answer from
    this _ state rest h (Nat.lt_succ_of_le h.length_le)
  intro rounds
  induction rounds with
  | zero => exact fun _ _ _ hlt => absurd hlt (Nat.not_lt_zero _)
  | succ rounds ih =>
    intro state rest h hlt
    have hbody := hround state rest h
    rw [loop]
    generalize body state = answer at hbody
    cases hbody with
    | @again next more hnext hmore hsame =>
      rw [← hsame]
      exact ih next more hnext (by omega)
    | done hpost => exact ⟨_, rfl, hpost⟩

end Loops

/-! ### Runs of characters -/

/-- One step over a run of characters. -/
theorem round_advanceOne (test : Char → Bool) (h : At text pos rest) :
    Round text id (fun rest pos => pos + byteLength (rest.takeWhile test)) Eq rest pos
      (advanceOne text test pos) := by
  rw [advanceOne, h.peek?_eq]
  cases rest with
  | nil => exact .done rfl
  | cons c rest =>
    dsimp only [Option.bind_eq_bind, Option.bind_some, List.head?_cons]
    by_cases hc : test c = true
    · rw [if_pos hc]
      refine .again h.tail (Nat.lt_succ_self _) ?_
      rw [List.takeWhile_cons_of_pos hc, byteLength, Nat.add_assoc]
    · rw [if_neg hc]
      refine .done ?_
      rw [List.takeWhile_cons_of_neg hc]
      rfl

/-- A walk over a run of characters passes its checks and comes to the end of the run. -/
theorem advanceWhile_eq (test : Char → Bool) (h : At text pos rest) :
    advanceWhile text test pos = some (pos + byteLength (rest.takeWhile test)) := by
  obtain ⟨stop, hstop, heq⟩ := loop_ends (fun _ _ h => round_advanceOne test h) pos h
  rw [advanceWhile, hstop, ← heq]

/-- What is left there is the rest without the run. -/
theorem At.advanceWhile (test : Char → Bool) (h : At text pos rest) :
    At text (pos + byteLength (rest.takeWhile test)) (rest.dropWhile test) :=
  h.split List.takeWhile_append_dropWhile

/-! ### Blank space and comments -/

open Cursor (skipBlank)

/-- A comment to the end of the line ends in front of the line feed, which is blank. -/
theorem skipBlank_restOfLine (rest : List Char) (n : Nat) : skipBlank .lineComment rest n
    = skipBlank .space (rest.dropWhile (· != '\n'))
      (n + byteLength (rest.takeWhile (· != '\n'))) := by
  induction rest generalizing n with
  | nil =>
    rw [Cursor.skipBlank_lineComment_nil]
    exact (Cursor.skipBlank_nil _).symm
  | cons c rest ih =>
    rw [Cursor.skipBlank_lineComment]
    by_cases hc : c = '\n'
    · subst hc
      have hstop : ¬ ('\n' != '\n') = true := by decide
      have hcomment := Cursor.startsComment_of_ne (c := '\n') (by decide) rest
      rw [if_pos rfl, List.dropWhile_cons_of_neg (p := (· != '\n')) hstop,
        List.takeWhile_cons_of_neg (p := (· != '\n')) hstop, Cursor.skipBlank_space hcomment,
        if_pos (by decide)]
      rfl
    · have htest : (c != '\n') = true := bne_iff_ne.mpr hc
      rw [if_neg hc, ih, List.dropWhile_cons_of_pos (p := (· != '\n')) htest,
        List.takeWhile_cons_of_pos (p := (· != '\n')) htest, byteLength, Nat.add_assoc]

/-- Where a comment has an end, blank space goes on behind it. -/
theorem skipBlank_of_findClose {behind : Nat} (h : findClose rest = some behind) :
    ∃ inner more, rest = inner ++ '*' :: '/' :: more ∧ behind = byteLength inner
      ∧ ∀ opened n, skipBlank (.blockComment opened) rest n
        = skipBlank .space more (n + behind + 2) := by
  fun_induction findClose rest generalizing behind with
  | case1 => cases h
  | case2 more =>
    cases h
    exact ⟨[], more, rfl, rfl, fun _ _ => rfl⟩
  | case3 c rest hnot ih =>
    obtain ⟨before, hbefore, rfl⟩ := Option.map_eq_some_iff.mp h
    obtain ⟨inner, more, rfl, rfl, hskip⟩ := ih hbefore
    refine ⟨c :: inner, more, rfl, rfl, fun opened n => ?_⟩
    rw [Cursor.skipBlank_blockComment, hskip]
    · congr 1
      omega
    · rintro ⟨rfl, hslash⟩
      obtain ⟨tail, htail⟩ := List.head?_eq_some_iff.mp hslash
      exact hnot tail rfl htail

/-- Where a comment has no end, the walk fails in front of the comment. -/
theorem skipBlank_of_not_findClose (h : findClose rest = none) (opened : Cursor) (n : Nat) :
    skipBlank (.blockComment opened) rest n
      = .error (⟨.unclosedComment, opened.offset - 2⟩, opened) := by
  fun_induction findClose rest generalizing n with
  | case1 => rfl
  | case2 more => cases h
  | case3 c rest hnot ih =>
    rw [Cursor.skipBlank_blockComment, ih (Option.map_eq_none_iff.mp h)]
    rintro ⟨rfl, hslash⟩
    obtain ⟨tail, htail⟩ := List.head?_eq_some_iff.mp hslash
    exact hnot tail rfl htail

/-- What a walk over blank space answers, and what the checked one does. -/
inductive Skipped (text : List Char) :
    Except (ScanError × Cursor) Cursor → Option (Except ScanError Nat) → Prop where
  | ok {pos : Nat} {rest : List Char} : At text pos rest →
      Skipped text (.ok ⟨rest, pos⟩) (some (.ok pos))
  | error {error : ScanError} {after : Cursor} : IsBoundary text error.position →
      Skipped text (.error (error, after)) (some (.error error))

/-- One round of a walk over blank space. -/
def SkipRound (text rest : List Char) (pos : Nat) : Option (Nat ⊕ Except ScanError Nat) → Prop :=
  Round text id (skipBlank .space) (fun walk answer => Skipped text walk (some answer)) rest pos

/-- A comment to the end of the line is one round. -/
theorem round_lineComment (h : At text pos ('/' :: '/' :: rest)) :
    SkipRound text ('/' :: '/' :: rest) pos
      ((advanceWhile text (· != '\n') pos).map .inl) := by
  rw [advanceWhile_eq _ h]
  refine .again (h.advanceWhile _) ?_ ?_
  · have hle := Cursor.length_dropWhile_le (· != '\n') rest
    show (rest.dropWhile (· != '\n')).length < rest.length + 1 + 1
    omega
  · rw [Cursor.skipBlank_opens_lineComment, skipBlank_restOfLine]
    show skipBlank .space (rest.dropWhile (· != '\n'))
      (pos + (1 + (1 + byteLength (rest.takeWhile (· != '\n'))))) = _
    congr 1
    omega

/-- A comment between two marks is one round, whether it has an end or not. -/
theorem round_blockComment (h : At text pos ('/' :: '*' :: rest)) :
    SkipRound text ('/' :: '*' :: rest) pos (some (match findClose rest with
      | some behind => .inl (pos + 2 + behind + 2)
      | none => .inr (.error ⟨.unclosedComment, pos⟩))) := by
  have hinside : At text (pos + 2) rest := h.tail.tail
  have hskip := Cursor.skipBlank_opens_blockComment rest pos
  cases hclose : findClose rest with
  | some behind =>
    obtain ⟨inner, more, rfl, rfl, hbehind⟩ := skipBlank_of_findClose hclose
    have hmore : At text (pos + 2 + byteLength inner + 2) more := hinside.skip.tail.tail
    refine .again hmore ?_ (hskip.trans (hbehind _ _)).symm
    simp
    omega
  | none =>
    refine .done ?_
    rw [hskip, skipBlank_of_not_findClose hclose]
    exact .error h.boundary

/-- Blank space, a comment of either kind, or neither: each is one round. -/
theorem round_skipOne (h : At text pos rest) : SkipRound text rest pos (skipOne text pos) := by
  rw [skipOne, h.peek?_eq]
  cases rest with
  | nil => exact .done (.ok h)
  | cons c rest =>
    dsimp only [Option.bind_eq_bind, Option.bind_some, List.head?_cons]
    rw [h.second?_eq]
    dsimp only [Option.bind_eq_bind, Option.bind_some, List.tail_cons]
    by_cases hblank : (isBlank c || c == '\uFEFF') = true
    · rw [if_pos hblank]
      exact .again h.tail (Nat.lt_succ_self _) (Cursor.skipBlank_blank hblank rest pos).symm
    rw [if_neg hblank]
    by_cases hline : c = '/' ∧ rest.head? = some '/'
    · obtain ⟨rfl, hhead⟩ := hline
      obtain ⟨rest, rfl⟩ := List.head?_eq_some_iff.mp hhead
      have hround := round_lineComment h
      rw [if_pos ⟨rfl, rfl⟩]
      cases hwalk : advanceWhile text (· != '\n') pos <;> rwa [hwalk] at hround
    rw [if_neg hline]
    by_cases hopening : c = '/' ∧ rest.head? = some '*'
    · obtain ⟨rfl, hhead⟩ := hopening
      obtain ⟨rest, rfl⟩ := List.head?_eq_some_iff.mp hhead
      have hinside : At text (pos + 2) rest := h.tail.tail
      have hround := round_blockComment h
      rw [if_pos ⟨rfl, rfl⟩, hinside.rest?_eq, Option.bind_some]
      cases hclose : findClose rest <;> rwa [hclose] at hround
    · rw [if_neg hopening]
      -- Neither blank space nor a comment starts here, so the reader of blank space stops as well.
      refine .done ?_
      have hcomment : Cursor.startsComment (c :: rest) = false := by
        cases rest <;> simp_all [Cursor.startsComment]
      rw [Cursor.skipBlank_space hcomment, if_neg hblank]
      exact .ok h

/-- The walk over blank space finishes, and answers what the cursor does. -/
theorem skipped_skipTrivia (h : At text pos rest) :
    Skipped text (skipBlank .space rest pos) (skipTrivia text pos) := by
  obtain ⟨answer, hanswer, hskipped⟩ := loop_ends (fun _ _ h => round_skipOne h) pos h
  rwa [skipTrivia, hanswer]

/-! ### Strings -/

open Cursor (Quotation readQuoted)

/-- What reading behind a quote answers, and what the checked one does. -/
inductive Quoted (text : List Char) (start : Nat) :
    Quotation → Except ScanError (List Char × Nat) → Prop where
  | closed {value rest : List Char} {pos : Nat} : At text pos rest →
      Quoted text start ⟨value, true, ⟨rest, pos⟩⟩ (.ok (value, pos))
  | unclosed (value : List Char) (after : Cursor) :
      Quoted text start ⟨value, false, after⟩ (.error ⟨.unclosedString, start⟩)

/-- What was read first stands first. -/
theorem prepend_prepend (first second : List Char) (q : Quotation) :
    (q.prepend second).prepend first = q.prepend (first ++ second) := by
  rw [Quotation.prepend, Quotation.prepend, Quotation.prepend, List.append_assoc]

/-- A character of a string, an escape, the quote that closes it or the end of the text: each is one
round. -/
theorem round_readOne (quote : Char) (start : Nat) {chars : List Char} (h : At text pos rest) :
    Round text Prod.fst (fun rest state => (readQuoted quote rest state.1).prepend state.2)
      (Quoted text start) rest (pos, chars) (readOne text quote start (pos, chars)) := by
  rw [readOne, h.peek?_eq]
  cases rest with
  | nil => exact .done (.unclosed _ _)
  | cons c rest =>
    dsimp only [Option.bind_eq_bind, Option.bind_some, List.head?_cons]
    -- A backslash takes the next character with it, so the round moves two characters.
    by_cases hescape : c = '\\'
    · subst hescape
      have hbehind : At text (pos + 1) rest := h.tail
      rw [if_pos rfl, hbehind.peek?_eq]
      cases rest with
      | nil => exact .done (.unclosed _ _)
      | cons escaped rest =>
        refine .again hbehind.tail (Nat.lt_succ_of_lt (Nat.lt_succ_self _)) ?_
        dsimp only
        rw [readQuoted, prepend_prepend]
    rw [if_neg hescape]
    -- Any other character ends the text or is kept, and this is the equation for either.
    have hquoted := Cursor.readQuoted_cons hescape quote rest pos
    by_cases hfeed : c = '\n'
    · rw [if_pos hfeed] at hquoted ⊢
      refine .done ?_
      dsimp only
      rw [hquoted]
      exact .unclosed _ _
    rw [if_neg hfeed] at hquoted ⊢
    by_cases hclose : c = quote
    · rw [if_pos hclose] at hquoted ⊢
      refine .done ?_
      dsimp only
      rw [hquoted, Quotation.prepend, List.append_nil]
      exact .closed h.tail
    · rw [if_neg hclose] at hquoted ⊢
      refine .again h.tail (Nat.lt_succ_self _) ?_
      dsimp only
      rw [hquoted, prepend_prepend]

/-- To read a string finishes, and answers what the cursor does. -/
theorem readString_eq (quote : Char) (start : Nat) (h : At text pos rest) :
    ∃ answer, readString text quote start pos = some answer
      ∧ Quoted text start (readQuoted quote rest pos) answer := by
  obtain ⟨answer, hanswer, hquoted⟩ :=
    loop_ends (fun _ _ h => round_readOne quote start h) (pos, []) h
  exact ⟨answer, hanswer, hquoted⟩

/-! ### Numbers -/

open Cursor (splitFraction splitSign splitExponent splitNumber startsWithDigit)

/-- A digit comes next in the same sense for both. -/
theorem any_head?_isDigit (rest : List Char) :
    rest.head?.any Char.isDigit = startsWithDigit rest := by
  cases rest <;> rfl

/-- To pass the digits behind a dot comes to where they are split off. -/
theorem readFraction_eq (h : At text pos rest) :
    readFraction text pos = some (pos + byteLength (splitFraction rest).1) := by
  rw [readFraction, h.peek?_eq]
  dsimp only [Option.bind_eq_bind, Option.bind_some]
  rw [h.second?_eq]
  dsimp only [Option.bind_eq_bind, Option.bind_some]
  rw [any_head?_isDigit]
  by_cases hpoint : rest.head? = some '.'
  · obtain ⟨rest, rfl⟩ := List.head?_eq_some_iff.mp hpoint
    have hbehind : At text (pos + 1) rest := h.tail
    rw [splitFraction]
    by_cases hdigit : startsWithDigit rest = true
    · rw [if_pos ⟨rfl, hdigit⟩, if_pos hdigit, advanceWhile_eq _ hbehind, Nat.add_assoc]
      rfl
    · rw [if_neg fun hboth => hdigit hboth.2, if_neg hdigit]
      rfl
  · rw [if_neg fun hboth => hpoint hboth.1]
    cases rest with
    | nil => rfl
    | cons c rest =>
      rw [splitFraction_of_ne fun heq => hpoint (congrArg some heq)]
      rfl

/-- To pass a sign comes to where it is split off. -/
theorem readSign_eq (h : At text pos rest) :
    readSign text pos = some (pos + byteLength (splitSign rest).1) := by
  rw [readSign, h.peek?_eq]
  dsimp only [Option.bind_eq_bind, Option.bind_some]
  by_cases hsign : rest.head? = some '+' ∨ rest.head? = some '-'
  · rw [if_pos hsign]
    rcases hsign with hhead | hhead <;>
      obtain ⟨more, rfl⟩ := List.head?_eq_some_iff.mp hhead <;> rfl
  · rw [if_neg hsign]
    unfold splitSign
    split
    · exact absurd (.inl rfl) hsign
    · exact absurd (.inr rfl) hsign
    · rfl

/-- To pass an exponent comes to where it is split off. -/
theorem readExponent_eq (h : At text pos rest) :
    readExponent text pos = some (pos + byteLength (splitExponent rest).1) := by
  rw [readExponent, h.peek?_eq]
  cases rest with
  | nil => rfl
  | cons e rest =>
    have hone (he : e = 'e' ∨ e = 'E') : e.utf8Size = 1 := by
      rcases he with rfl | rfl <;> rfl
    rw [splitExponent_cons]
    dsimp only [Option.bind_eq_bind, Option.bind_some, List.head?_cons]
    by_cases he : e = 'e' ∨ e = 'E'
    · have hbehind : At text (pos + 1) rest := hone he ▸ h.tail
      have hdigits := hbehind.split (splitSign_append rest)
      rw [if_pos (by simpa using he), readSign_eq hbehind]
      dsimp only [Option.bind_some]
      rw [digitAt?, hdigits.peek?_eq]
      dsimp only [Option.bind_eq_bind, Option.bind_some, Option.pure_def]
      rw [any_head?_isDigit]
      by_cases hdigit : startsWithDigit (splitSign rest).2 = true
      · rw [if_pos hdigit, if_pos ⟨he, hdigit⟩, advanceWhile_eq _ hdigits, byteLength,
          byteLength_append, hone he]
        congr 1
        omega
      · rw [if_neg hdigit, if_neg fun hboth => hdigit hboth.2]
        rfl
    · rw [if_neg (by simpa using he), if_neg fun hboth => he hboth.1]
      rfl

/-- To pass a number comes to where it is split off. -/
theorem passNumber_eq (h : At text pos rest) :
    passNumber text pos = some (pos + byteLength (splitNumber rest).1) := by
  rw [passNumber, h.rest?_eq]
  dsimp only [Option.bind_eq_bind, Option.bind_some]
  -- A hexadecimal number goes up to the first character that is no digit of it; any other number is
  -- read in three parts, each of which goes on where the one before stopped.
  by_cases hhex : ['0', 'x'] <+: rest ∨ ['0', 'X'] <+: rest
  · rw [if_pos hhex]
    obtain ⟨mark, more, hmark, rfl⟩ :
        ∃ mark more, (mark = 'x' ∨ mark = 'X') ∧ rest = '0' :: mark :: more := by
      rcases hhex with ⟨more, rfl⟩ | ⟨more, rfl⟩
      · exact ⟨'x', more, .inl rfl, rfl⟩
      · exact ⟨'X', more, .inr rfl, rfl⟩
    have hone : mark.utf8Size = 1 := by
      rcases hmark with rfl | rfl <;> rfl
    have hbehind : At text (pos + 2) more := by
      have hbehind := h.tail.tail
      rwa [hone] at hbehind
    rw [advanceWhile_eq _ hbehind, splitNumber_hex mark hmark, byteLength, byteLength, hone]
    congr 1
    show pos + 2 + _ = pos + (1 + _)
    omega
  · rw [if_neg hhex]
    have hmark : hexMark? rest = none := by
      cases hsome : hexMark? rest with
      | none => rfl
      | some mark =>
        obtain ⟨rfl | rfl, more, rfl⟩ := hexMark?_eq_some hsome
        · exact absurd (.inl ⟨more, rfl⟩) hhex
        · exact absurd (.inr ⟨more, rfl⟩) hhex
    have hfraction := h.advanceWhile Char.isDigit
    have hexponent := hfraction.split (splitFraction_append _)
    rw [advanceWhile_eq _ h, Option.bind_some, readFraction_eq hfraction, Option.bind_some,
      readExponent_eq hexponent, splitNumber_decimal hmark, byteLength_append, byteLength_append,
      Nat.add_assoc, Nat.add_assoc, Nat.add_assoc]

/-- To read a number answers with its characters. -/
theorem readNumber_eq (h : At text pos rest) : readNumber text pos
    = some ((splitNumber rest).1, pos + byteLength (splitNumber rest).1) := by
  rw [readNumber, passNumber_eq h]
  rw [← Cursor.splitNumber_append rest] at h
  dsimp only [Option.bind_eq_bind, Option.bind_some]
  rw [h.slice?_eq]
  rfl

/-- To read a word answers with its characters. -/
theorem readWord_eq (h : At text pos rest) : readWord text pos
    = some (rest.takeWhile continuesWord, pos + byteLength (rest.takeWhile continuesWord)) := by
  rw [readWord, advanceWhile_eq _ h]
  rw [← List.takeWhile_append_dropWhile (p := continuesWord) (l := rest)] at h
  dsimp only [Option.bind_eq_bind, Option.bind_some]
  rw [h.slice?_eq]
  rfl

/-! ### Tokens -/

/-- What taking a token answers, and what the checked one does. -/
inductive Stepped (text : List Char) (start : Nat) :
    Except ScanError Token × Cursor → Option (Except ScanError (Lexeme × Nat)) → Prop where
  | ok {lexeme : Lexeme} {stop : Nat} {rest : List Char} : At text stop rest →
      Stepped text start (.ok ⟨lexeme, start, stop⟩, ⟨rest, stop⟩) (some (.ok (lexeme, stop)))
  | error {error : ScanError} {after : Cursor} : IsBoundary text error.position →
      Stepped text start (.error error, after) (some (.error error))

/-- To take a token finishes, and answers what the cursor does. -/
theorem stepped_readToken (h : At text pos (c :: rest)) :
    Stepped text pos (Cursor.stepHere pos c rest) (readToken text pos c) := by
  rw [Cursor.stepHere, readToken]
  by_cases hquote : c = '"' ∨ c = '\''
  · have hone : c.utf8Size = 1 := by
      rcases hquote with rfl | rfl <;> rfl
    have hbehind : At text (pos + 1) rest := hone ▸ h.tail
    obtain ⟨answer, hanswer, hquoted⟩ := readString_eq c pos hbehind
    rw [if_pos (by simpa using hquote), if_pos hquote, hone, hanswer]
    generalize Cursor.readQuoted c rest (pos + 1) = quotation at hquoted
    cases hquoted with
    | closed hrest => exact .ok hrest
    | unclosed => exact .error h.boundary
  rw [if_neg (by simpa using hquote), if_neg hquote, h.second?_eq]
  dsimp only [Option.bind_eq_bind, Option.bind_some, List.tail_cons]
  rw [any_head?_isDigit]
  -- The two tests for a number differ in form only: this one looks at the next character itself.
  have hstarts : Cursor.startsNumber c rest = true
      ↔ c.isDigit = true ∨ c = '.' ∧ startsWithDigit rest = true := by
    simp [Cursor.startsNumber]
  by_cases hnumber : Cursor.startsNumber c rest = true
  · rw [if_pos hnumber, if_pos (hstarts.mp hnumber), readNumber_eq h]
    exact .ok (h.split (Cursor.splitNumber_append _))
  rw [if_neg hnumber, if_neg fun hboth => hnumber (hstarts.mpr hboth)]
  by_cases hword : startsWord c = true
  -- A word is read from its first character on, which the loop counts as one that goes on.
  · have htake : (c :: rest).takeWhile continuesWord = c :: rest.takeWhile continuesWord :=
      List.takeWhile_cons_of_pos (continuesWord_of_startsWord hword)
    have hdrop : (c :: rest).dropWhile continuesWord = rest.dropWhile continuesWord :=
      List.dropWhile_cons_of_pos (continuesWord_of_startsWord hword)
    have hbehind := h.advanceWhile continuesWord
    rw [htake, hdrop] at hbehind
    rw [if_pos hword, if_pos hword, readWord_eq h, htake]
    exact .ok hbehind
  rw [if_neg hword, if_neg hword, h.rest?_eq]
  dsimp only [Option.bind_some]
  cases hmark : Mark.leading? (c :: rest) with
  | none => exact .error h.boundary
  | some mark =>
    -- A mark is found in front of the text, so the position behind it is a boundary.
    have hfront : mark.chars <+: c :: rest := by
      obtain ⟨hfront, -⟩ := List.find?_eq_some_iff_append.mp hmark
      exact List.isPrefixOf_iff_prefix.mp hfront
    exact .ok (h.split (List.prefix_iff_eq_append.mp hfront))

/-- What a step answers, and what the checked one does. -/
inductive Next (text : List Char) :
    Except ScanError (Option Token) × Cursor → Option (Except ScanError (Cell × Nat)) → Prop where
  | token {token : Token} {rest : List Char} : At text token.stop rest →
      Next text (.ok (some token), ⟨rest, token.stop⟩)
        (some (.ok (.ofToken token, token.stop)))
  | atEnd : Next text (.ok none, ⟨[], byteLength text⟩)
      (some (.ok (.atEnd (byteLength text), byteLength text)))
  | error {error : ScanError} {after : Cursor} : IsBoundary text error.position →
      Next text (.error error, after) (some (.error error))

/-- A step finishes, and answers what a step of the cursor does. -/
theorem next_nextToken (h : At text pos rest) :
    Next text (Cursor.step ⟨rest, pos⟩) (nextToken text pos) := by
  have hskipped := skipped_skipTrivia h
  rw [Cursor.step, nextToken]
  dsimp only
  generalize skipBlank .space rest pos = walk at hskipped ⊢
  generalize skipTrivia text pos = answer at hskipped ⊢
  cases hskipped with
  | error hboundary => exact .error hboundary
  | @ok start rest hstart =>
    dsimp only [Option.bind_eq_bind, Option.bind_some]
    rw [hstart.peek?_eq]
    cases rest with
    | nil =>
      rw [hstart.eq_byteLength]
      exact .atEnd
    | cons c rest =>
      have hstepped := stepped_readToken hstart
      dsimp only [Option.bind_some, List.head?_cons]
      generalize Cursor.stepHere start c rest = step at hstepped ⊢
      generalize readToken text start c = answer at hstepped ⊢
      cases hstepped with
      | ok hrest => exact .token hrest
      | error hboundary => exact .error hboundary

/-- The cells of tokens, with the end of the text behind them. -/
def cellsOf (tokens : List Token) (stop : Nat) : List Cell :=
  tokens.map .ofToken ++ [.atEnd stop]

/-- The answer of the checked scanner that stands for an answer of the cursor, where errors stand
between two characters. -/
inductive Tokenized (text : List Char) :
    Except ScanError (List Cell) → Except ScanError (List Cell) → Prop where
  | ok (cells : List Cell) : Tokenized text (.ok cells) (.ok cells)
  | error {error : ScanError} : IsBoundary text error.position →
      Tokenized text (.error error) (.error error)

/-- A token, the end of the text or an error: each is one round of the scanner. -/
theorem round_tokenizeOne {cells : List Cell} (h : At text pos rest) :
    Round text Prod.fst (fun rest state => (Cursor.tokens ⟨rest, state.1⟩).map fun tokens =>
        state.2 ++ cellsOf tokens (byteLength text))
      (Tokenized text) rest (pos, cells) (tokenizeOne text (pos, cells)) := by
  have hnext := next_nextToken h
  rw [tokenizeOne]
  generalize hstep : Cursor.step ⟨rest, pos⟩ = step at hnext
  generalize nextToken text pos = answer at hnext ⊢
  cases hnext with
  | @token token more hmore =>
    refine .again hmore (Cursor.step_length_lt hstep) ?_
    dsimp only
    rw [Cursor.tokens_of_step_some hstep]
    generalize Cursor.tokens ⟨more, token.stop⟩ = answer
    cases answer with
    | error => rfl
    | ok tokens => simp [Except.map, cellsOf]
  | atEnd =>
    refine .done ?_
    dsimp only
    rw [Cursor.tokens_of_step_none hstep]
    exact .ok _
  | error hboundary =>
    refine .done ?_
    dsimp only
    rw [Cursor.tokens_of_step_error hstep]
    exact .error hboundary

/-- On every text the checked scanner finishes, and answers what the scanner answers. -/
theorem tokenized_tokenize (text : String) : ∃ answer, tokenize text.toList = some answer
    ∧ Tokenized text.toList ((Token.scan text).map (cellsOf · (byteLength text.toList)))
        answer := by
  obtain ⟨answer, hanswer, htokenized⟩ :=
    loop_ends (fun _ _ h => round_tokenizeOne h) (0, []) (At.start text.toList)
  exact ⟨answer, hanswer, htokenized⟩

end Facade.Checked
