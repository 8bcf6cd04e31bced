import Facade.Proofs.Token.Scans

/-!
# The tokens of one text below another

A text that can be scanned to its end is followed by a line feed, and another text comes behind
that. The scanner does not notice the first text any more when it comes to the second: the line
feed ends a comment that runs to the end of the line, and comments of the other kind are closed.
So the tokens are those of the one and then those of the other, some bytes further on, and a text
that cannot be scanned has its fault there: `scan_lines`.
-/

set_option autoImplicit false

namespace Facade

open Facade.Text

/-- The fault of a text, some bytes further on. -/
def ScanError.shift (bytes : Nat) (error : ScanError) : ScanError :=
  ⟨error.fault, error.position + bytes⟩

namespace Cursor

variable {text blank : List Char} {n m : Nat} {cursor : Cursor} {tokens : List Token}

/-! ### The line feed -/

/-- Blank space up to the end of a text goes on with the text below. -/
theorem skipBlank_line {inside inside' : Blank} (hlike : inside.Like inside')
    (h : skipBlank inside blank n = .ok ⟨[], m⟩) (text : List Char) (k : Nat) :
    skipBlank inside' (blank ++ '\n' :: text) k
      = skipBlank .space text (k + byteLength blank + 1) := by
  -- The characters that are skipped first move the rest by their bytes.
  have hbehind : ∀ (front rest : List Char) (k : Nat),
      skipBlank .space text (k + byteLength front + byteLength rest + 1)
        = skipBlank .space text (k + byteLength (front ++ rest) + 1) := by
    intro front rest k
    rw [byteLength_append, Nat.add_assoc k]
  fun_induction skipBlank inside blank n generalizing inside' k with
  | case1 blank n ih =>
    cases hlike
    exact (ih .lineComment h (k + 2)).trans (hbehind ['/', '/'] blank k)
  | case2 blank n ih =>
    cases hlike
    exact (ih (.blockComment _ _) h (k + 2)).trans (hbehind ['/', '*'] blank k)
  | case3 c blank n hline hblock hblank ih =>
    cases hlike
    rw [List.cons_append, skipBlank_blank hblank, ih .space h]
    exact hbehind [c] blank k
  | case4 => cases h
  | case5 c blank n ih =>
    cases hlike
    refine (ih ?_ h (k + c.utf8Size)).trans (hbehind [c] blank k)
    split
    · exact .space
    · exact .lineComment
  | case6 opened blank n ih =>
    cases hlike
    exact (ih .space h (k + 2)).trans (hbehind ['*', '/'] blank k)
  | case7 opened c blank n hnot ih =>
    cases hlike with
    | blockComment _ opened' =>
      -- What comes behind the last character is the line feed, which closes no comment.
      have hopen : ¬ (c = '*' ∧ (blank ++ '\n' :: text).head? = some '/') := by
        rintro ⟨rfl, hslash⟩
        cases blank with
        | nil => cases hslash
        | cons d blank =>
          cases Option.some.inj hslash
          exact hnot blank rfl rfl
      rw [List.cons_append, skipBlank_blockComment hopen, ih (.blockComment _ _) h]
      exact hbehind [c] blank k
  | case8 => cases h
  | case9 inside n hnot =>
    cases hlike with
    | space => rfl
    | lineComment => rfl
    | blockComment opened => exact absurd rfl (hnot opened)

/-- Behind a text that ends without a fault, the tokens are those of the text below. -/
theorem tokens_line (h : Cursor.tokens ⟨blank, n⟩ = .ok []) (text : List Char) (k : Nat) :
    Cursor.tokens ⟨blank ++ '\n' :: text, k⟩
      = Cursor.tokens ⟨text, k + byteLength blank + 1⟩ := by
  obtain ⟨_, hstep⟩ := step_of_tokens_nil h
  cases branch_step hstep with
  | finish hskip =>
    refine tokens_congr ?_
    rw [Cursor.step, Cursor.step, skipBlank_line .space hskip]

/-- The tokens of a text without a fault, and those of the text below. -/
theorem tokens_lines {front : List Char} (h : Cursor.tokens ⟨front, 0⟩ = .ok tokens)
    (text : List Char) : Cursor.tokens ⟨front ++ '\n' :: text, 0⟩
      = (Cursor.tokens ⟨text, byteLength front + 1⟩).map (tokens ++ ·) := by
  rw [← List.append_nil tokens] at h
  obtain ⟨after, hscans, hnone⟩ := scans_of_tokens h
  obtain ⟨taken, base, hfront, -, hbase, hspells⟩ := hscans.spells
  rw [shift_zero] at hbase
  obtain rfl : front = taken ++ after.rest := hfront
  have hcut : Cut Stops after.rest (after.rest ++ '\n' :: text) := by
    have hstops : Stops ('\n' :: text) := fun c hc => .inr (Option.some.inj hc).symm
    simpa using Cut.intro after.rest [] hstops
  rw [List.append_assoc, (hspells _ 0 hcut).tokens_eq, tokens_line hnone, shift_zero, hbase,
    byteLength_append, Nat.zero_add]

/-! ### Faults -/

/-- What a walk is inside of, some bytes further on. -/
def Blank.moved (bytes : Nat) : Blank → Blank
  | .space => .space
  | .lineComment => .lineComment
  | .blockComment opened => .blockComment ⟨opened.rest, opened.offset + bytes⟩

/-- A fault in blank space is met some bytes further on as well. -/
theorem skipBlank_error_moved {inside : Blank} {error : ScanError} {after : Cursor}
    (hopened : ∀ opened, inside = .blockComment opened → 2 ≤ opened.offset)
    (h : skipBlank inside text n = .error (error, after)) (k : Nat) :
    ∃ after', skipBlank (inside.moved k) text (n + k) = .error (error.shift k, after') := by
  fun_induction skipBlank inside text n with
  | case1 text n ih =>
    obtain ⟨after', hmoved⟩ := ih (fun _ => Blank.noConfusion) h
    rw [Nat.add_right_comm n 2 k] at hmoved
    exact ⟨after', hmoved⟩
  | case2 text n ih =>
    have hle : ∀ opened, Blank.blockComment ⟨text, n + 2⟩ = .blockComment opened →
        2 ≤ opened.offset := by
      intro opened heq
      cases heq
      exact Nat.le_add_left 2 n
    obtain ⟨after', hmoved⟩ := ih hle h
    rw [Blank.moved, Nat.add_right_comm n 2 k] at hmoved
    exact ⟨after', hmoved⟩
  | case3 c text n hline hblock hblank ih =>
    obtain ⟨after', hmoved⟩ := ih (fun _ => Blank.noConfusion) h
    rw [Blank.moved, Nat.add_right_comm] at hmoved
    refine ⟨after', ?_⟩
    rw [Blank.moved, skipBlank_blank hblank, hmoved]
  | case4 => cases h
  | case5 c text n ih =>
    obtain ⟨after', hmoved⟩ := ih (fun opened heq => by split at heq <;> cases heq) h
    have hinside : Blank.moved k (if c = '\n' then .space else .lineComment)
        = if c = '\n' then .space else .lineComment := by
      split <;> rfl
    rw [hinside, Nat.add_right_comm] at hmoved
    exact ⟨after', hmoved⟩
  | case6 opened text n ih =>
    obtain ⟨after', hmoved⟩ := ih (fun _ => Blank.noConfusion) h
    rw [Nat.add_right_comm n 2 k] at hmoved
    exact ⟨after', hmoved⟩
  | case7 opened c text n hnot ih =>
    obtain ⟨after', hmoved⟩ := ih hopened h
    have hopen : ¬ (c = '*' ∧ text.head? = some '/') := by
      rintro ⟨rfl, hslash⟩
      obtain ⟨more, rfl⟩ := List.head?_eq_some_iff.mp hslash
      exact hnot more rfl rfl
    rw [Blank.moved, Nat.add_right_comm] at hmoved
    refine ⟨after', ?_⟩
    rw [Blank.moved, skipBlank_blockComment hopen, hmoved]
  -- The fault is reported where the comment opens, two characters in front of its text.
  | case8 opened n =>
    have hposition : opened.offset + k - 2 = opened.offset - 2 + k :=
      Nat.sub_add_comm (hopened opened rfl)
    cases h
    rw [ScanError.shift, ← hposition]
    exact ⟨_, rfl⟩
  | case9 => cases h

/-- Whether a string is closed does not depend on where it stands. -/
theorem closed_readQuoted (quote : Char) (text : List Char) (n k : Nat) :
    (readQuoted quote text (n + k)).closed = (readQuoted quote text n).closed := by
  fun_induction readQuoted quote text n with
  | case1 | case2 => rfl
  | case3 c text n ih =>
    rw [Nat.add_right_comm, Nat.add_right_comm n 1 k] at ih
    exact ih
  | case4 text n hsingle hescape =>
    rw [readQuoted_cons (by decide), if_pos rfl]
  -- The quote that closes is no backslash, or it would have escaped something.
  | case5 text n hsingle hescape hline =>
    have hquote := ne_backslash hsingle hescape
    rw [readQuoted_cons hquote, if_neg hline, if_pos rfl]
  | case6 c text n hsingle hescape hline hquote ih =>
    have hc := ne_backslash hsingle hescape
    rw [Nat.add_right_comm] at ih
    rw [readQuoted_cons hc, if_neg hline, if_neg hquote]
    exact ih

/-- A fault at a character stands there. -/
theorem stepHere_error_moved {c : Char} {error : ScanError} {after : Cursor}
    (h : stepHere n c text = (.error error, after)) (k : Nat) :
    ∃ after', stepHere (n + k) c text = (.error (error.shift k), after') := by
  rw [stepHere, Nat.add_right_comm]
  cases branch_stepHere h with
  | unclosed hquote hopen =>
    rw [← closed_readQuoted c text (n + 1) k] at hopen
    rw [if_pos hquote]
    dsimp only
    rw [hopen]
    exact ⟨_, rfl⟩
  | stray hquote hnumber hword hmark =>
    rw [if_neg hquote, hnumber, if_neg Bool.false_ne_true, if_neg hword, hmark]
    exact ⟨_, rfl⟩

/-- A step that fails, fails wherever the text stands. -/
theorem step_error_moved {error : ScanError} {after : Cursor}
    (h : step ⟨text, n⟩ = (.error error, after)) (k : Nat) :
    ∃ after', step ⟨text, n + k⟩ = (.error (error.shift k), after') := by
  cases branch_step h with
  | comment hskip =>
    obtain ⟨after', hmoved⟩ := skipBlank_error_moved (fun _ => Blank.noConfusion) hskip k
    have hspace : skipBlank .space text (n + k) = _ := hmoved
    rw [step, hspace]
    exact ⟨after', rfl⟩
  | @fault c rest _ _ _ hskip hhere =>
    obtain ⟨taken, rfl, rfl, hskips⟩ := skips_of_skipBlank hskip
    obtain ⟨after', hmoved⟩ := stepHere_error_moved hhere k
    have hspace := hskips.skip (c :: rest) ⟨rfl, hskips.comment⟩ .space (n + k) .space
    rw [step, hspace, Nat.add_right_comm]
    simp only [hmoved]
    exact ⟨after', rfl⟩

/-- Some steps lead to every fault. -/
theorem scans_of_error {error : ScanError} (h : cursor.tokens = .error error) :
    ∃ tokens before after, Scans cursor tokens before ∧ before.step = (.error error, after) := by
  fun_induction Cursor.tokens cursor with
  | case1 => cases h
  | case2 cursor token after hstep other hrest ih =>
    obtain ⟨tokens, before, last, hscans, hlast⟩ := ih (hrest.trans h)
    exact ⟨token :: tokens, before, last, .cons hstep hscans, hlast⟩
  | case3 => cases h
  | case4 cursor other after hstep =>
    cases h
    exact ⟨[], cursor, after, .nil cursor, hstep⟩

/-- A text with a fault has it wherever it stands. -/
theorem tokens_error_moved {error : ScanError} (h : Cursor.tokens ⟨text, 0⟩ = .error error)
    (k : Nat) : Cursor.tokens ⟨text, k⟩ = .error (error.shift k) := by
  obtain ⟨tokens, ⟨rest, offset⟩, after, hscans, hfault⟩ := scans_of_error h
  obtain ⟨taken, base, rfl, hoffset, -, hspells⟩ := hscans.spells
  obtain ⟨after', hmoved⟩ := step_error_moved hfault k
  have hstart : k + byteLength taken = offset + k := by
    rw [Nat.add_comm, ← Nat.zero_add (byteLength taken)]
    exact congrArg (· + k) hoffset.symm
  have hmoved' : step ⟨rest, k + byteLength taken⟩ = (.error (error.shift k), after') := by
    rw [hstart, hmoved]
  rw [(hspells rest k (Cut.refl rest)).tokens_eq, tokens_of_step_error hmoved']
  rfl

end Cursor

/-- The tokens of a text without a fault and of a text below are those of the one and of the
other, and so is the fault if that has one. -/
theorem Token.scan_lines {front : String} {tokens : List Token} (h : Token.scan front = .ok tokens)
    (text : String) : Token.scan (front ++ "\n" ++ text) = match Token.scan text with
      | .ok more => .ok (tokens ++ more.map (Token.shift (byteLength front.toList + 1)))
      | .error error => .error (error.shift (byteLength front.toList + 1)) := by
  have hchars : (front ++ "\n" ++ text).toList = front.toList ++ '\n' :: text.toList := by simp
  have hlines := Cursor.tokens_lines h text.toList
  rw [Token.scan, Cursor.ofText, hchars, hlines]
  cases hmore : Token.scan text with
  | ok more =>
    rw [Cursor.tokens_moved hmore]
    rfl
  | error error =>
    rw [Cursor.tokens_error_moved hmore]
    rfl

end Facade
