import Facade.Proofs.Checked.Tokenized
import Mathlib.Logic.Function.Iterate

/-!
# Where the scanner stands after faults

A scanner that meets a fault may be asked for more tokens. Each fault leaves it in a place of its
own: on a stray character, behind the opening of a comment, behind the line that a string breaks off
on. `Outcome` says once what a step answers and where it stands then, in terms of the characters in
front of it. From that, a step goes on from where it stood before, so after any number of steps the
scanner stands between two characters of the text, and every step that meets neither the end nor a
stray character gets on (`wellPlaced_later`).
-/

set_option autoImplicit false

namespace Facade.Cursor

open Facade.Text

/-- The cursor behind a number of steps, whatever they answer. -/
def later (calls : Nat) (cursor : Cursor) : Cursor :=
  (fun cursor => cursor.step.2)^[calls] cursor

/-! ### Strings that break off -/

/-- Characters behind an opening quote that a string goes on over: neither the quote nor a line
feed, but any character behind a backslash. -/
inductive GoesOver (quote : Char) : List Char → Prop where
  | nil : GoesOver quote []
  | plain {c : Char} {run : List Char} : c ≠ '\\' → c ≠ '\n' → c ≠ quote → GoesOver quote run →
      GoesOver quote (c :: run)
  | escape (c : Char) {run : List Char} : GoesOver quote run → GoesOver quote ('\\' :: c :: run)

/-- What is taken behind an opening quote of a string without an end, and what is left: all up to a
line feed that is not escaped, the line feed included, or all there is. -/
inductive BreaksOff (quote : Char) : List Char → List Char → Prop where
  | lineFeed {run : List Char} (rest : List Char) : GoesOver quote run →
      BreaksOff quote (run ++ ['\n']) rest
  | textEnd {run : List Char} : GoesOver quote run → BreaksOff quote run []
  | backslash {run : List Char} : GoesOver quote run → BreaksOff quote (run ++ ['\\']) []

variable {quote c : Char} {text rest taken : List Char} {n : Nat} {error : ScanError}
  {after : Cursor}

/-- A string that breaks off may have one more plain character in front. -/
theorem BreaksOff.plain (h : BreaksOff quote taken rest) (hbackslash : c ≠ '\\') (hline : c ≠ '\n')
    (hquote : c ≠ quote) : BreaksOff quote (c :: taken) rest := by
  cases h with
  | lineFeed rest hrun => exact .lineFeed rest (.plain hbackslash hline hquote hrun)
  | textEnd hrun => exact .textEnd (.plain hbackslash hline hquote hrun)
  | backslash hrun => exact .backslash (.plain hbackslash hline hquote hrun)

/-- It may have one more escaped character in front. -/
theorem BreaksOff.escape (h : BreaksOff quote taken rest) (c : Char) :
    BreaksOff quote ('\\' :: c :: taken) rest := by
  cases h with
  | lineFeed rest hrun => exact .lineFeed rest (.escape c hrun)
  | textEnd hrun => exact .textEnd (.escape c hrun)
  | backslash hrun => exact .backslash (.escape c hrun)

/-- What is read of a string without an end. -/
theorem breaksOff_of_not_closed (h : (readQuoted quote text n).closed = false) : ∃ taken,
    text = taken ++ (readQuoted quote text n).after.rest
      ∧ (readQuoted quote text n).after.offset = n + byteLength taken
      ∧ BreaksOff quote taken (readQuoted quote text n).after.rest := by
  fun_induction readQuoted quote text n with
  | case1 n => exact ⟨[], rfl, rfl, .textEnd .nil⟩
  | case2 n => exact ⟨['\\'], rfl, rfl, .backslash .nil⟩
  -- A backslash takes the character behind it, be it a line feed.
  | case3 c text n ih =>
    obtain ⟨taken, htext, hoffset, hbreaks⟩ := ih h
    refine ⟨'\\' :: c :: taken, congrArg (fun text => '\\' :: c :: text) htext, ?_,
      hbreaks.escape c⟩
    refine hoffset.trans ?_
    show n + 1 + c.utf8Size + _ = n + (1 + (c.utf8Size + _))
    omega
  | case4 text n hescape => exact ⟨['\n'], rfl, rfl, .lineFeed _ .nil⟩
  | case5 text n hsingle hescape hline => cases h
  | case6 c text n hsingle hescape hline hquote ih =>
    have hbackslash := ne_backslash hsingle hescape
    obtain ⟨taken, htext, hoffset, hbreaks⟩ := ih h
    exact ⟨c :: taken, congrArg (fun text => c :: text) htext,
      hoffset.trans (Nat.add_assoc _ _ _), hbreaks.plain hbackslash hline hquote⟩

/-! ### Comments without an end -/

/-- A comment is opened in a text that starts at an offset, and the cursor stands behind that. -/
def OpensComment (text : List Char) (n : Nat) (error : ScanError) (after : Cursor) : Prop :=
  ∃ front rest, text = front ++ '/' :: '*' :: rest
    ∧ error = ⟨.unclosedComment, n + byteLength front⟩ ∧ after = ⟨rest, n + byteLength front + 2⟩

/-- A comment that is opened in the rest of a text is opened in the text. -/
theorem OpensComment.append (front : List Char)
    (h : OpensComment text (n + byteLength front) error after) :
    OpensComment (front ++ text) n error after := by
  obtain ⟨more, rest, rfl, rfl, rfl⟩ := h
  refine ⟨front ++ more, rest, (List.append_assoc _ _ _).symm, ?_, ?_⟩
  · rw [byteLength_append, Nat.add_assoc]
  · rw [byteLength_append, Nat.add_assoc n]

/-- Where no end of a comment is found, either the walk started inside of it or it was opened on the
way. -/
theorem opensComment_of_skipBlank {inside : Blank}
    (h : skipBlank inside text n = .error (error, after)) :
    (inside = .blockComment after ∧ error = ⟨.unclosedComment, after.offset - 2⟩)
      ∨ OpensComment text n error after := by
  fun_induction skipBlank inside text n with
  | case1 text n ih =>
    obtain ⟨hinside, -⟩ | hopens := ih h
    · cases hinside
    · exact .inr (.append ['/', '/'] hopens)
  -- Either this comment has no end, or one that is opened behind its end.
  | case2 text n ih =>
    obtain ⟨hinside, herror⟩ | hopens := ih h
    · cases hinside
      exact .inr ⟨[], text, rfl, herror, rfl⟩
    · exact .inr (.append ['/', '*'] hopens)
  | case3 c text n hline hblock hblank ih =>
    obtain ⟨hinside, -⟩ | hopens := ih h
    · cases hinside
    · exact .inr (.append [c] hopens)
  | case4 => cases h
  | case5 c text n ih =>
    obtain ⟨hinside, -⟩ | hopens := ih h
    · split at hinside <;> cases hinside
    · exact .inr (.append [c] hopens)
  | case6 opened text n ih =>
    obtain ⟨hinside, -⟩ | hopens := ih h
    · cases hinside
    · exact .inr (.append ['*', '/'] hopens)
  | case7 opened c text n hnot ih => exact (ih h).imp_right (.append [c])
  | case8 opened n =>
    cases h
    exact .inl ⟨rfl, rfl⟩
  | case9 => cases h

/-! ### What a step can do -/

/-- What a step from a text that starts at an offset answers, and the cursor behind it. -/
inductive Outcome (text : List Char) (n : Nat) :
    Except ScanError (Option Token) × Cursor → Prop where
  | finish : Outcome text n (.ok none, ⟨[], n + byteLength text⟩)
  | token {blank body rest : List Char} (lexeme : Lexeme) : text = blank ++ (body ++ rest) →
      body ≠ [] → Outcome text n
        (.ok (some ⟨lexeme, n + byteLength blank, n + byteLength blank + byteLength body⟩),
          ⟨rest, n + byteLength blank + byteLength body⟩)
  -- A next step answers the same.
  | stray {blank rest : List Char} {c : Char} : text = blank ++ c :: rest →
      step ⟨c :: rest, n + byteLength blank⟩ = (.error ⟨.strayCharacter c, n + byteLength blank⟩,
        ⟨c :: rest, n + byteLength blank⟩) → Outcome text n
          (.error ⟨.strayCharacter c, n + byteLength blank⟩, ⟨c :: rest, n + byteLength blank⟩)
  | comment {front rest : List Char} : text = front ++ '/' :: '*' :: rest → Outcome text n
      (.error ⟨.unclosedComment, n + byteLength front⟩, ⟨rest, n + byteLength front + 2⟩)
  | string {blank taken rest : List Char} {quote : Char} : quote = '"' ∨ quote = '\'' →
      text = blank ++ quote :: (taken ++ rest) → BreaksOff quote taken rest → Outcome text n
        (.error ⟨.unclosedString, n + byteLength blank⟩,
          ⟨rest, n + byteLength blank + 1 + byteLength taken⟩)

/-- Where no token starts with a character, either the character is stray or it opens a string. -/
theorem error_of_stepHere (h : stepHere n c text = (.error error, after)) :
    (error = ⟨.strayCharacter c, n⟩ ∧ after = ⟨c :: text, n⟩)
      ∨ (c = '"' ∨ c = '\'') ∧ error = ⟨.unclosedString, n⟩ ∧ ∃ taken rest,
        text = taken ++ rest ∧ after = ⟨rest, n + 1 + byteLength taken⟩
          ∧ BreaksOff c taken rest := by
  cases branch_stepHere h with
  | stray => exact .inl ⟨rfl, rfl⟩
  | unclosed hquote hopen =>
    obtain ⟨taken, htext, hoffset, hbreaks⟩ := breaksOff_of_not_closed hopen
    simp only [Bool.or_eq_true, decide_eq_true_eq] at hquote
    exact .inr ⟨hquote, rfl, taken, _, htext, by rw [← hoffset], hbreaks⟩

/-- Every step has one of these outcomes. -/
theorem outcome_step (text : List Char) (n : Nat) : Outcome text n (step ⟨text, n⟩) := by
  generalize hstep : step ⟨text, n⟩ = answer
  cases branch_step hstep with
  | comment hskip =>
    obtain ⟨hinside, -⟩ | ⟨front, rest, htext, rfl, rfl⟩ := opensComment_of_skipBlank hskip
    · cases hinside
    · exact .comment htext
  | finish hskip =>
    obtain ⟨blank, htext, rfl, -⟩ := skips_of_skipBlank hskip
    rw [List.append_nil] at htext
    exact htext ▸ .finish
  | @token c rest _ token after hskip hhere =>
    obtain ⟨blank, rfl, rfl, -⟩ := skips_of_skipBlank hskip
    obtain ⟨taken, rfl, hoffset, htoken, -⟩ := begins_of_stepHere hhere
    have hafter : after = ⟨after.rest, n + byteLength blank + byteLength (c :: taken)⟩ := by
      rw [← hoffset]
    rw [htoken, hafter]
    exact .token token.lexeme rfl (List.cons_ne_nil c taken)
  | @fault c rest _ _ _ hskip hhere =>
    have hblank := not_blank_of_skipBlank hskip
    obtain ⟨blank, rfl, rfl, hskips⟩ := skips_of_skipBlank hskip
    obtain ⟨rfl, rfl⟩ | ⟨hquote, rfl, taken, behind, rfl, rfl, hbreaks⟩ := error_of_stepHere hhere
    · refine .stray rfl ?_
      -- The character is not skipped as blank space, neither now nor the next time.
      have hstays : skipBlank .space (c :: rest) (n + byteLength blank)
          = .ok ⟨c :: rest, n + byteLength blank⟩ :=
        (skips_nil hskips.comment hblank).skip (c :: rest) ⟨rfl, hskips.comment⟩ .space _ .space
      rw [step, hstays]
      dsimp only
      rw [hhere]
    · exact .string hquote rfl hbreaks

/-! ### Where steps lead to -/

/-- A step leaves a rest of the text. -/
theorem Outcome.leaves {answer : Except ScanError (Option Token) × Cursor}
    (h : Outcome text n answer) :
    ∃ taken, text = taken ++ answer.2.rest ∧ answer.2.offset = n + byteLength taken := by
  cases h with
  | finish => exact ⟨text, (List.append_nil text).symm, rfl⟩
  | @token blank body rest lexeme htext =>
    refine ⟨blank ++ body, by rw [htext, List.append_assoc], ?_⟩
    rw [byteLength_append, Nat.add_assoc]
  | stray htext => exact ⟨_, htext, rfl⟩
  | @comment front rest htext =>
    refine ⟨front ++ ['/', '*'], by rw [htext, List.append_assoc]; rfl, ?_⟩
    rw [byteLength_append, ← Nat.add_assoc]
    rfl
  | @string blank taken rest quote hquote htext =>
    have hone : quote.utf8Size = 1 := by rcases hquote with rfl | rfl <;> rfl
    refine ⟨blank ++ quote :: taken, by rw [htext, List.append_assoc, List.cons_append], ?_⟩
    rw [byteLength_append, byteLength, hone]
    dsimp only
    omega

/-- A step leads from a place in a text to a place in the text. -/
theorem at_step {text : List Char} {cursor : Cursor}
    (h : Checked.At text cursor.offset cursor.rest) :
    Checked.At text cursor.step.2.offset cursor.step.2.rest := by
  obtain ⟨taken, htaken, hoffset⟩ := (outcome_step cursor.rest cursor.offset).leaves
  -- The text is cut once more, behind what the step took.
  rw [htaken] at h
  exact hoffset ▸ h.skip

/-- Steps never lead back. -/
theorem offset_le_later (cursor : Cursor) (calls : Nat) :
    cursor.offset ≤ (cursor.later calls).offset := by
  induction calls generalizing cursor with
  | zero => exact Nat.le_refl _
  | succ calls ih =>
    obtain ⟨taken, -, hoffset⟩ := (outcome_step cursor.rest cursor.offset).leaves
    have hstep : cursor.offset ≤ cursor.step.2.offset := hoffset ▸ Nat.le_add_right _ _
    exact hstep.trans (ih cursor.step.2)

/-- A step that leads nowhere answers the same forever. -/
theorem step_later_of_stays {answer : Except ScanError (Option Token)} {cursor : Cursor}
    (h : cursor.step = (answer, cursor)) (calls : Nat) :
    (cursor.later calls).step = (answer, cursor) := by
  have hstays : cursor.step.2 = cursor := congrArg Prod.snd h
  rw [later, Function.iterate_fixed hstays, h]

/-- The scanner stands between two characters of a text, or at one of its ends, and the next step
leads on from there. Its answer says where to. -/
structure WellPlaced (text : List Char) (before : Cursor) : Prop where
  place : Checked.At text before.offset before.rest
  forward : ∀ calls, before.offset ≤ (before.later calls).offset
  token : ∀ token after, before.step = (.ok (some token), after) →
    before.offset ≤ token.start ∧ token.start < token.stop ∧ token.stop = after.offset
  finish : ∀ after, before.step = (.ok none, after) → after = ⟨[], byteLength text⟩
    ∧ ∀ calls, (after.later calls).step = (.ok none, after)
  stray : ∀ c position after, before.step = (.error ⟨.strayCharacter c, position⟩, after) →
    after.offset = position ∧ after.rest.head? = some c
      ∧ ∀ calls, (after.later calls).step = (.error ⟨.strayCharacter c, position⟩, after)
  comment : ∀ position after, before.step = (.error ⟨.unclosedComment, position⟩, after) →
    Checked.At text position ('/' :: '*' :: after.rest) ∧ after.offset = position + 2
  string : ∀ position after, before.step = (.error ⟨.unclosedString, position⟩, after) →
    ∃ quote taken, (quote = '"' ∨ quote = '\'')
      ∧ Checked.At text position (quote :: (taken ++ after.rest))
      ∧ BreaksOff quote taken after.rest ∧ after.offset = position + 1 + byteLength taken
  advances : ∀ answer after, before.step = (answer, after) → answer ≠ .ok none →
    (∀ c position, answer ≠ .error ⟨.strayCharacter c, position⟩) → before.offset < after.offset

/-- At a place in a text, the scanner is well placed. -/
theorem wellPlaced_of_at {text : List Char} {before : Cursor}
    (h : Checked.At text before.offset before.rest) : WellPlaced text before := by
  have houtcome := outcome_step before.rest before.offset
  refine ⟨h, offset_le_later before, fun token after hstep => ?_, fun after hstep => ?_,
    fun c position after hstep => ?_, fun position after hstep => ?_,
    fun position after hstep => ?_, fun answer after hstep hnone hstray => ?_⟩
  -- Each clause is about one kind of answer, and the outcomes say what comes with it.
  all_goals rw [hstep] at houtcome
  case refine_1 =>
    cases houtcome with
    | token lexeme htext hne =>
      have hpos := byteLength_pos hne
      exact ⟨Nat.le_add_right _ _, by dsimp only; omega, rfl⟩
  case refine_2 =>
    cases houtcome
    -- At the end the cursor stays, so every later answer is the end again.
    have hend : Checked.At text (before.offset + byteLength before.rest) [] :=
      h.split (List.append_nil before.rest)
    refine ⟨by rw [hend.eq_byteLength], step_later_of_stays ?_⟩
    rw [step, skipBlank_nil]
  case refine_3 =>
    cases houtcome with
    | stray htext hstays => exact ⟨rfl, rfl, step_later_of_stays hstays⟩
  case refine_4 =>
    cases houtcome with
    | comment htext => exact ⟨h.split htext.symm, rfl⟩
  case refine_5 =>
    cases houtcome with
    | string hquote htext hbreaks => exact ⟨_, _, hquote, h.split htext.symm, hbreaks, rfl⟩
  case refine_6 =>
    cases houtcome with
    | finish => exact absurd rfl hnone
    | stray => exact absurd rfl (hstray _ _)
    | token lexeme htext hne =>
      have hpos := byteLength_pos hne
      dsimp only
      omega
    | comment | string => dsimp only; omega

/-- However often the scanner was asked for a token, and whatever it answered, it is well placed. -/
theorem wellPlaced_later (text : String) (calls : Nat) :
    WellPlaced text.toList ((ofText text).later calls) := by
  refine wellPlaced_of_at ?_
  induction calls with
  | zero => exact Checked.At.start _
  | succ calls ih =>
    rw [later, Function.iterate_succ_apply']
    exact at_step ih

-- A comment without an end, a string that breaks off, and a stray character.
example : ((ofText "/*'é\n#").steps 4).map (fun answer => answer.2.offset) = [2, 6, 6, 6] := by
  decide +kernel

end Facade.Cursor
