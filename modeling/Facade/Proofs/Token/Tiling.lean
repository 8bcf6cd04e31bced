import Facade.Proofs.Token.Longest
import Facade.Text.Joined

/-!
# The tokens of a text tile it

A text that can be scanned falls into its tokens and what lies between them, and the two together
leave nothing out: between the tokens is only blank space (`BlankSpace`), and each token is as long
as it can be and makes the same token by itself (`IsToken`). `Tiles` says this from one end of a
text to the other, along the steps of the scanner, and `tiling_of_scan` reads off it what holds of
the places of the tokens.
-/

set_option autoImplicit false

namespace Facade

open Facade.Text

/-! ### Blank space -/

/-- Blank characters, byte order marks and comments with their ends. A comment that runs to the end
of the line may do without the line feed where the text ends. -/
inductive BlankSpace (atEnd : Prop) : List Char → Prop where
  | nil : BlankSpace atEnd []
  | char {c : Char} {more : List Char} : (isBlank c || c == '\uFEFF') = true →
      BlankSpace atEnd more → BlankSpace atEnd (c :: more)
  | lineComment {inner more : List Char} : '\n' ∉ inner → BlankSpace atEnd more →
      BlankSpace atEnd ('/' :: '/' :: (inner ++ '\n' :: more))
  | lastComment {inner : List Char} : atEnd → '\n' ∉ inner →
      BlankSpace atEnd ('/' :: '/' :: inner)
  -- The end of the comment is the first there is, also if a star of the comment is in front of it.
  | blockComment {inner more : List Char} : ¬ ['*', '/'] <:+: inner ++ ['*'] →
      BlankSpace atEnd more → BlankSpace atEnd ('/' :: '*' :: (inner ++ '*' :: '/' :: more))

/-- Where the gap behind some of the first tokens of a text starts. -/
def gapStart (n : Nat) (tokens : List Token) : Nat :=
  (tokens.getLast?.map Token.stop).getD n

/-- Where the gap in front of the other tokens of a text ends. -/
def gapStop (stop : Nat) (tokens : List Token) : Nat :=
  (tokens.head?.map Token.start).getD stop

/-- The last gap starts behind the last token. -/
theorem gapStart_cons (n : Nat) (token : Token) (tokens : List Token) :
    gapStart n (token :: tokens) = gapStart token.stop tokens := by
  rw [gapStart, gapStart, List.getLast?_cons]
  cases tokens.getLast? <;> rfl

/-- The part of a text that a token is made of. -/
def Token.textIn (text : List Char) (token : Token) : String :=
  String.ofList (slice text token.start token.stop)

namespace Cursor

variable {text rest blank : List Char} {n m : Nat} {cursor after : Cursor} {tokens : List Token}

/-- What a walk over blank space takes, if it starts inside of a comment or outside. -/
def Blank.Takes (atEnd : Prop) : Blank → List Char → Prop
  | .space, taken => BlankSpace atEnd taken
  | .lineComment, taken => (atEnd ∧ '\n' ∉ taken)
      ∨ ∃ inner more, taken = inner ++ '\n' :: more ∧ '\n' ∉ inner ∧ BlankSpace atEnd more
  | .blockComment _, taken => ∃ inner more, taken = inner ++ '*' :: '/' :: more
      ∧ ¬ ['*', '/'] <:+: inner ++ ['*'] ∧ BlankSpace atEnd more

/-- Blank space is walked over to the end of what it is. -/
theorem takes_of_skipBlank {inside : Blank} (h : skipBlank inside text n = .ok ⟨rest, m⟩) :
    ∃ taken, text = taken ++ rest ∧ inside.Takes (rest = []) taken := by
  fun_induction skipBlank inside text n with
  | case1 text n ih =>
    obtain ⟨taken, rfl, htakes⟩ := ih h
    refine ⟨'/' :: '/' :: taken, rfl, ?_⟩
    rcases htakes with ⟨hend, hinner⟩ | ⟨inner, more, rfl, hinner, hmore⟩
    · exact .lastComment hend hinner
    · exact .lineComment hinner hmore
  | case2 text n ih =>
    obtain ⟨_, rfl, inner, more, rfl, hinner, hmore⟩ := ih h
    exact ⟨'/' :: '*' :: (inner ++ '*' :: '/' :: more), rfl, .blockComment hinner hmore⟩
  | case3 c text n hline hblock hblank ih =>
    obtain ⟨taken, rfl, htakes⟩ := ih h
    exact ⟨c :: taken, rfl, .char hblank htakes⟩
  | case4 c text n hline hblock hblank =>
    cases h
    exact ⟨[], rfl, .nil⟩
  | case5 c text n ih =>
    obtain ⟨taken, rfl, htakes⟩ := ih h
    refine ⟨c :: taken, rfl, ?_⟩
    by_cases hc : c = '\n'
    · rw [if_pos hc] at htakes
      exact .inr ⟨[], taken, by rw [hc, List.nil_append], List.not_mem_nil, htakes⟩
    · rw [if_neg hc] at htakes
      rcases htakes with ⟨hend, hinner⟩ | ⟨inner, more, rfl, hinner, hmore⟩
      · exact .inl ⟨hend, List.not_mem_cons_of_ne_of_not_mem (Ne.symm hc) hinner⟩
      · exact .inr ⟨c :: inner, more, rfl,
          List.not_mem_cons_of_ne_of_not_mem (Ne.symm hc) hinner, hmore⟩
  | case6 opened text n ih =>
    obtain ⟨taken, rfl, htakes⟩ := ih h
    exact ⟨'*' :: '/' :: taken, rfl, [], taken, rfl, by decide, htakes⟩
  | case7 opened c text n hnot ih =>
    obtain ⟨_, rfl, inner, more, rfl, hinner, hmore⟩ := ih h
    refine ⟨c :: (inner ++ '*' :: '/' :: more), rfl, c :: inner, more, rfl, ?_, hmore⟩
    intro hclosed
    -- An end that starts at `c` would have been met there.
    rcases List.infix_cons_iff.mp hclosed with hfirst | hlater
    · obtain ⟨hstar, hslash⟩ := List.cons_prefix_cons.mp hfirst
      cases inner with
      | nil => exact absurd hslash (by decide)
      | cons d inner =>
        obtain ⟨rfl, -⟩ := List.cons_prefix_cons.mp hslash
        exact hnot _ hstar.symm rfl
    · exact hinner hlater
  | case8 opened n => cases h
  | case9 inside n hnot =>
    cases h
    refine ⟨[], rfl, ?_⟩
    cases inside with
    | space => exact .nil
    | lineComment => exact .inl ⟨rfl, List.not_mem_nil⟩
    | blockComment opened => exact absurd rfl (hnot opened)

/-! ### One token -/

/-- Some characters make a token, in front of what follows them and by themselves, and no more of
the text from their start on makes one. -/
structure IsToken (body rest : List Char) (lexeme : Lexeme) : Prop where
  lexes : Lexes [] body rest lexeme
  longest : ∀ extra, extra <+: rest → ∀ other,
    Cursor.tokens ⟨body ++ extra, 0⟩ = .ok [⟨other, 0, byteLength (body ++ extra)⟩] → extra = []

/-- In front of a blank, and at the end of a text, a token is taken as it is. -/
theorem IsToken.step_eq {body new : List Char} {lexeme : Lexeme} (h : IsToken body rest lexeme)
    (hstops : Stops new) (k : Nat) : step ⟨body ++ new, k⟩
      = (.ok (some ⟨lexeme, k, k + byteLength body⟩), ⟨new, k + byteLength body⟩) :=
  h.lexes.step new k (.intro [] rest hstops)

/-- A token by itself is all that its characters make. -/
theorem IsToken.tokens_eq {body : List Char} {lexeme : Lexeme} (h : IsToken body rest lexeme)
    (k : Nat) : Cursor.tokens ⟨body, k⟩ = .ok [⟨lexeme, k, k + byteLength body⟩] := by
  have hstep := h.step_eq Stops.nil k
  rw [List.append_nil] at hstep
  rw [tokens_of_step_some hstep, tokens_of_step_none rfl]
  rfl

/-- A text that is one token in full is taken whole at once. -/
theorem stepHere_of_tokens {c : Char} {other : Lexeme}
    (h : Cursor.tokens ⟨c :: text, 0⟩ = .ok [⟨other, 0, byteLength (c :: text)⟩]) :
    ∃ token m, stepHere 0 c text = (.ok token, ⟨[], m⟩) := by
  obtain ⟨between, hstep, -⟩ := step_of_tokens_cons h
  obtain ⟨blank, d, taken, htext, -, -, hhere⟩ := stepHere_of_step hstep
  obtain ⟨_, htaken, hm, htoken, -⟩ := begins_of_stepHere hhere
  cases List.append_cancel_right htaken
  -- The token starts where the text does, so there is no blank space in front of it.
  have hstart : 0 = 0 + byteLength blank := congrArg Token.start htoken
  obtain rfl : blank = [] := eq_nil_of_byteLength (by omega)
  obtain ⟨rfl, rfl⟩ := List.cons.inj htext
  -- It stops where the text does, so nothing is left.
  have hstop : byteLength (c :: (taken ++ between.rest)) = between.offset :=
    congrArg Token.stop htoken
  rw [hm, ← List.cons_append, byteLength_append] at hstop
  have hrest : between.rest = [] := by
    rw [byteLength, Nat.zero_add] at hstop
    exact eq_nil_of_byteLength (by omega)
  rw [hrest] at hhere
  exact ⟨_, _, by rw [hrest]; exact hhere⟩

/-- The token that a step takes, with the blank space in front of it. -/
theorem isToken_of_step {token : Token}
    (h : step ⟨text, n⟩ = (.ok (some token), ⟨rest, m⟩)) :
    ∃ blank body, text = blank ++ (body ++ rest) ∧ BlankSpace False blank
      ∧ token = ⟨token.lexeme, n + byteLength blank, m⟩
      ∧ m = n + byteLength blank + byteLength body ∧ IsToken body rest token.lexeme := by
  obtain ⟨blank, c, taken, rfl, hskip, hskips, hhere⟩ := stepHere_of_step h
  obtain ⟨_, htaken, hm, htoken, hbegins⟩ := begins_of_stepHere hhere
  cases List.append_cancel_right htaken
  obtain ⟨_, hblank, htakes⟩ := takes_of_skipBlank hskip
  cases List.append_cancel_right hblank
  have hbare := skips_nil hskips.comment (not_blank_of_skipBlank hskip)
  refine ⟨blank, c :: taken, rfl, ?_, htoken, hm, hbegins.lexes hbare, ?_⟩
  · have hnone : (c :: (taken ++ rest) = []) = False := by simp
    rwa [Blank.Takes, hnone] at htakes
  · intro extra hextra other halone
    obtain ⟨token, m, hother⟩ := stepHere_of_tokens halone
    exact longest_of_stepHere hhere extra 0 m token hextra hother

/-! ### All tokens -/

/-- Tokens in order, with blank space in front of each and behind the last, from an offset up to the
end of a text. -/
inductive Tiles : Nat → List Char → List Token → Prop where
  | last {n : Nat} {blank : List Char} : BlankSpace True blank → Tiles n blank []
  | token {n : Nat} {blank body rest : List Char} {lexeme : Lexeme} {tokens : List Token} :
      BlankSpace False blank → IsToken body rest lexeme →
      Tiles (n + byteLength blank + byteLength body) rest tokens →
      Tiles n (blank ++ (body ++ rest))
        (⟨lexeme, n + byteLength blank, n + byteLength blank + byteLength body⟩ :: tokens)

/-- Without a token, there is only blank space. -/
theorem blankSpace_of_step (h : step ⟨text, n⟩ = (.ok none, after)) :
    BlankSpace True text ∧ after = ⟨[], n + byteLength text⟩ := by
  cases branch_step h with
  | finish hskip =>
    obtain ⟨taken, htext, rfl, -⟩ := skips_of_skipBlank hskip
    obtain ⟨taken', htext', htakes⟩ := takes_of_skipBlank hskip
    rw [List.append_nil] at htext htext'
    subst htext htext'
    rw [Blank.Takes, eq_self] at htakes
    exact ⟨htakes, rfl⟩

/-- The tokens of a text tile it, with blank space in the gaps. -/
theorem tiles_of_tokens (h : Cursor.tokens ⟨text, n⟩ = .ok tokens) : Tiles n text tokens := by
  induction tokens generalizing text n with
  | nil =>
    obtain ⟨_, hstep⟩ := step_of_tokens_nil h
    exact .last (blankSpace_of_step hstep).1
  | cons token tokens ih =>
    obtain ⟨_, hstep, hmore⟩ := step_of_tokens_cons h
    obtain ⟨blank, body, rfl, hblank, htoken, hoffset, hbody⟩ := isToken_of_step hstep
    have hrest := ih hmore
    rw [htoken, hoffset]
    rw [hoffset] at hrest
    exact .token hblank hbody hrest

/-! ### Places -/

variable {front : List Char}

/-- Each token is a part of the text. -/
theorem Tiles.parts (h : Tiles (byteLength front) rest tokens) : ∀ token ∈ tokens,
    ∃ before body behind, front ++ rest = before ++ (body ++ behind)
      ∧ token = ⟨token.lexeme, byteLength before, byteLength before + byteLength body⟩
      ∧ IsToken body behind token.lexeme := by
  generalize hn : byteLength front = n at h
  induction h generalizing front with
  | last => exact fun _ hin => absurd hin List.not_mem_nil
  | @token n blank body rest lexeme tokens _ hbody _ ih =>
    have hmore := @ih (front ++ (blank ++ body)) (by simp only [byteLength_append]; omega)
    simp only [List.append_assoc] at hmore
    refine List.forall_mem_cons.mpr ⟨⟨front ++ blank, body, rest, ?_, ?_, hbody⟩, hmore⟩
    · rw [List.append_assoc]
    · rw [byteLength_append, hn]

/-- No token starts in front of the offset, and each ends before the next one starts. -/
theorem Tiles.ordered (h : Tiles n text tokens) : (∀ token ∈ tokens, n ≤ token.start)
    ∧ tokens.Pairwise fun token later => token.stop ≤ later.start := by
  induction h with
  | last => exact ⟨fun _ hin => absurd hin List.not_mem_nil, .nil⟩
  | @token n blank body rest lexeme tokens _ _ _ ih =>
    refine ⟨List.forall_mem_cons.mpr ⟨Nat.le_add_right _ _, fun token hin => ?_⟩,
      List.pairwise_cons.mpr ⟨ih.1, ih.2⟩⟩
    have hle := ih.1 token hin
    omega

/-- Between neighbours, and at both ends, is blank space. -/
theorem Tiles.gaps (h : Tiles (byteLength front) rest tokens) (before behind : List Token)
    (htokens : tokens = before ++ behind) :
    BlankSpace (behind = []) (slice (front ++ rest) (gapStart (byteLength front) before)
      (gapStop (byteLength (front ++ rest)) behind)) := by
  generalize hn : byteLength front = n at h
  induction h generalizing front before with
  | @last n blank hblank =>
    obtain ⟨rfl, rfl⟩ := List.append_eq_nil_iff.mp htokens.symm
    have hslice := slice_middle front blank []
    rw [List.append_nil] at hslice
    rw [byteLength_append, ← hn, eq_self]
    exact (congrArg (BlankSpace True) hslice).mpr hblank
  | @token n blank body rest lexeme tokens hblank hbody _ ih =>
    cases before with
    | nil =>
      obtain rfl : _ = behind := htokens
      have hslice := slice_middle front blank (body ++ rest)
      rw [hn] at hslice
      have hnone : (Token.mk lexeme (n + byteLength blank) (n + byteLength blank + byteLength body)
          :: tokens = []) = False := by simp
      rw [hnone]
      exact (congrArg (BlankSpace False) hslice).mpr hblank
    | cons first before =>
      obtain ⟨rfl, htail⟩ := List.cons.inj htokens
      have hmore := @ih (front ++ (blank ++ body)) before htail
        (by simp only [byteLength_append]; omega)
      rw [gapStart_cons]
      simpa only [List.append_assoc] using hmore

/-! ### The texts of the tokens -/

/-- Tokens that are written one after the other, with a space between neighbours, are taken as the
same tokens. -/
theorem Tiles.joined (h : Tiles (byteLength front) rest tokens) (k : Nat) : ∃ again,
    Cursor.tokens ⟨(Text.joined " " (tokens.map (Token.textIn (front ++ rest)))).toList, k⟩
      = .ok again ∧ again.map Token.lexeme = tokens.map Token.lexeme := by
  generalize hn : byteLength front = n at h
  induction h generalizing front k with
  | last => exact ⟨[], tokens_of_step_none rfl, rfl⟩
  | @token n blank body rest lexeme tokens _ hbody _ ih =>
    -- The rest is written behind `body` and a space, or there is no rest.
    have htext : Token.textIn (front ++ (blank ++ (body ++ rest)))
        ⟨lexeme, n + byteLength blank, n + byteLength blank + byteLength body⟩
          = String.ofList body := by
      have hslice := slice_behind front blank body rest
      rw [hn] at hslice
      exact congrArg String.ofList hslice
    have hsize : byteLength (front ++ (blank ++ body))
        = n + byteLength blank + byteLength body := by
      simp only [byteLength_append]
      omega
    have hmore := fun k => @ih (front ++ (blank ++ body)) k hsize
    simp only [List.append_assoc] at hmore
    rw [List.map_cons, htext]
    cases tokens with
    | nil =>
      refine ⟨[⟨lexeme, k, k + byteLength body⟩], ?_, rfl⟩
      rw [List.map_nil, joined_singleton, String.toList_ofList]
      exact hbody.tokens_eq k
    | cons next tokens =>
      obtain ⟨again, hagain, hlexemes⟩ := hmore (k + byteLength body + 1)
      refine ⟨⟨lexeme, k, k + byteLength body⟩ :: again, ?_, congrArg (List.cons lexeme) hlexemes⟩
      rw [List.map_cons, joined_cons_cons, ← List.map_cons, String.toList_append,
        String.toList_append, String.toList_ofList, List.append_assoc]
      have hspace : Stops ((" " : String).toList ++ (Text.joined " " ((next :: tokens).map
          (Token.textIn (front ++ (blank ++ (body ++ rest)))))).toList) :=
        fun c hc => .inl (Option.some.inj hc).symm
      have hrest := (tokens_blank (c := ' ') rfl _ (k + byteLength body)).trans hagain
      rw [tokens_of_step_some (hbody.step_eq hspace k)]
      exact congrArg (Except.map _) hrest

/-! ### The end of the text -/

/-- The steps take the tokens one by one and then meet the end of the text, and only there. -/
theorem steps_of_tokens (h : Cursor.tokens ⟨text, n⟩ = .ok tokens) {bound : Nat}
    (hbound : tokens.length < bound) :
    (steps bound ⟨text, n⟩).map Prod.fst = tokens.map (fun token => .ok (some token)) ++ [.ok none]
      ∧ (steps bound ⟨text, n⟩).getLast? = some (.ok none, ⟨[], n + byteLength text⟩) := by
  induction tokens generalizing text n bound with
  | nil =>
    obtain ⟨_, hstep⟩ := step_of_tokens_nil h
    obtain ⟨-, rfl⟩ := blankSpace_of_step hstep
    obtain ⟨bound, rfl⟩ := Nat.exists_eq_succ_of_ne_zero (Nat.ne_of_gt hbound)
    rw [steps, hstep]
    exact ⟨rfl, rfl⟩
  | cons token tokens ih =>
    obtain ⟨_, hstep, hmore⟩ := step_of_tokens_cons h
    obtain ⟨blank, body, rfl, -, hoffset, -⟩ := lexes_of_step hstep
    obtain ⟨bound, rfl⟩ := Nat.exists_eq_succ_of_ne_zero (Nat.ne_of_gt (Nat.zero_lt_of_lt hbound))
    obtain ⟨hanswers, hlast⟩ := ih hmore (Nat.lt_of_succ_lt_succ hbound)
    rw [steps, hstep]
    dsimp only
    rw [List.map_cons, hanswers, List.getLast?_cons, hlast, hoffset]
    refine ⟨rfl, ?_⟩
    simp only [byteLength_append, Nat.add_assoc, Option.getD_some]

end Cursor

/-! ### The tiling -/

/-- How tokens lie in a text. -/
structure Tiling (text : String) (tokens : List Token) : Prop where
  ordered : tokens.Pairwise fun token later => token.stop ≤ later.start
  spans : ∀ token ∈ tokens, token.start < token.stop ∧ token.stop ≤ text.utf8ByteSize
    ∧ IsBoundary text.toList token.start ∧ IsBoundary text.toList token.stop
  gaps : ∀ before behind, tokens = before ++ behind →
    BlankSpace (behind = []) (slice text.toList (gapStart 0 before)
      (gapStop text.utf8ByteSize behind))
  alone : ∀ token ∈ tokens, Token.scan (token.textIn text.toList)
    = .ok [⟨token.lexeme, 0, token.stop - token.start⟩]
  longest : ∀ token ∈ tokens, ∀ stop, token.stop < stop → IsBoundary text.toList stop →
    ∀ lexeme, Token.scan (Token.textIn text.toList ⟨lexeme, token.start, stop⟩)
      ≠ .ok [⟨lexeme, 0, stop - token.start⟩]
  finish : ∀ bound, tokens.length < bound →
    ((Cursor.ofText text).steps bound).map Prod.fst
        = tokens.map (fun token => .ok (some token)) ++ [.ok none]
      ∧ ((Cursor.ofText text).steps bound).getLast? = some (.ok none, ⟨[], text.utf8ByteSize⟩)
  joined : ∃ again, Token.scan (Text.joined " " (tokens.map (Token.textIn text.toList))) = .ok again
    ∧ again.map Token.lexeme = tokens.map Token.lexeme

/-- What comes before a boundary behind a token goes on from the token. -/
theorem prefix_of_boundary {before body behind : List Char} {stop : Nat}
    (hstop : byteLength before + byteLength body ≤ stop)
    (h : IsBoundary (before ++ (body ++ behind)) stop) : ∃ extra, extra <+: behind
      ∧ stop = byteLength before + byteLength (body ++ extra)
      ∧ slice (before ++ (body ++ behind)) (byteLength before) stop = body ++ extra := by
  obtain ⟨front, rest, htext, rfl⟩ := h
  have hfront : before ++ body <+: before ++ body ++ behind := List.prefix_append _ _
  rw [List.append_assoc _ _ behind, htext] at hfront
  obtain ⟨extra, rfl⟩ : before ++ body <+: front := by
    rcases List.prefix_or_prefix_of_prefix hfront (List.prefix_append front rest) with h | h
    · exact h
    -- The other way round, both have the same length, and so they are the same.
    · obtain ⟨more, hmore⟩ := h
      have hlength := congrArg byteLength hmore
      rw [byteLength_append, byteLength_append] at hlength
      have hnone : more = [] := eq_nil_of_byteLength (by omega)
      exact ⟨[], by rw [List.append_nil, ← hmore, hnone, List.append_nil]⟩
  simp only [List.append_assoc, List.append_cancel_left_eq] at htext
  subst htext
  have hsize : byteLength (before ++ body ++ extra)
      = byteLength before + byteLength (body ++ extra) := by
    rw [List.append_assoc, byteLength_append]
  refine ⟨extra, List.prefix_append _ _, hsize, ?_⟩
  rw [hsize, ← List.append_assoc body]
  exact slice_middle before (body ++ extra) rest

/-- The scanner cuts a text into the longest tokens there are, with only blank space between. -/
theorem Token.tiling_of_scan {text : String} {tokens : List Token}
    (h : Token.scan text = .ok tokens) : Tiling text tokens := by
  have hlength : byteLength text.toList = text.utf8ByteSize := byteLength_toList text
  have htiles : Cursor.Tiles (byteLength []) text.toList tokens := Cursor.tiles_of_tokens h
  refine ⟨htiles.ordered.2, fun token hin => ?_, fun before behind htokens => ?_,
    fun token hin => ?_, fun token hin stop hstop hboundary lexeme halone => ?_,
    fun bound hbound => ?_, htiles.joined 0⟩
  -- A token is not empty, inside of the text, and starts and ends between characters.
  case refine_1 =>
    obtain ⟨before, body, behind, htext, htoken, hbody⟩ := htiles.parts token hin
    have hpos := byteLength_pos hbody.lexes.nonempty
    have hboundary : IsBoundary text.toList (byteLength before + byteLength body) :=
      ⟨before ++ body, behind, by rw [List.append_assoc]; exact htext, byteLength_append _ _⟩
    have hle := hboundary.le
    rw [htoken, ← hlength]
    exact ⟨by dsimp only; omega, hle, ⟨before, body ++ behind, htext, rfl⟩, hboundary⟩
  case refine_2 =>
    rw [← hlength]
    exact htiles.gaps before behind htokens
  -- On its own, the text of a token is scanned as that token.
  case refine_3 =>
    obtain ⟨before, body, behind, htext, htoken, hbody⟩ := htiles.parts token hin
    rw [List.nil_append] at htext
    have hslice := slice_middle before body behind
    have halone := hbody.tokens_eq 0
    rw [Nat.zero_add] at halone
    rw [htoken, Token.textIn, htext, hslice, Token.scan, Cursor.ofText, String.toList_ofList,
      Nat.add_sub_cancel_left]
    exact halone
  -- A longer text that is one token would be a longer body, and the body is the longest there is.
  case refine_4 =>
    obtain ⟨before, body, behind, htext, htoken, hbody⟩ := htiles.parts token hin
    rw [List.nil_append] at htext
    rw [htoken] at hstop halone
    rw [htext] at hboundary halone
    obtain ⟨extra, hextra, rfl, hslice⟩ := prefix_of_boundary (Nat.le_of_lt hstop) hboundary
    dsimp only at halone hstop
    rw [Token.textIn, hslice, Token.scan, Cursor.ofText, String.toList_ofList,
      Nat.add_sub_cancel_left] at halone
    rw [hbody.longest extra hextra lexeme halone, List.append_nil] at hstop
    exact Nat.lt_irrefl _ hstop
  case refine_5 =>
    have hsteps := Cursor.steps_of_tokens h hbound
    rw [Nat.zero_add, hlength] at hsteps
    exact hsteps

/-- A number that has no exponent after all, a mark that is no longer one, and comments around
them. -/
theorem Token.tiling_of_scan_number : ∃ tokens,
    Token.scan "é /* >> */ 1.5e>>= 'x' // end" = .ok tokens
      ∧ Tiling "é /* >> */ 1.5e>>= 'x' // end" tokens := by
  have hscan : Token.scan "é /* >> */ 1.5e>>= 'x' // end"
      = .ok [⟨.name "é", 0, 2⟩, ⟨.number "1.5", 12, 15⟩, ⟨.name "e", 15, 16⟩,
        ⟨.mark .shiftRight, 16, 18⟩, ⟨.mark .assign, 18, 19⟩, ⟨.string "x", 20, 23⟩] := by
    decide +kernel
  exact ⟨_, hscan, tiling_of_scan hscan⟩

end Facade
