import Facade.Proofs.Declaration.Walks
import Facade.Proofs.Declaration.WithoutTexts

/-!
# Layout does not change what is read

Two texts with the same lexemes may have different blank space, comments and spellings of strings
between and in their tokens. Readers do not see any of this: what they see of a token is its lexeme,
and its place shows up again only as the place of a remark or an error. `layout` is the simulation
of the streams of one text by those of the other. It keeps each token next to its counterpart, also
when a closing angle bracket was taken off both, and then both start as many bytes behind the
start of the tokens they are made of.

The texts of the statements that are kept as they are written are the only thing that differs, so
files are compared without them (`ofText_layout`).
-/

set_option autoImplicit false

namespace Facade

open Facade.Text (byteLength)
open Reader (front?)

/-! ### Places -/

/-- A token that is not empty, and is as long as its mark if it is one. -/
structure Token.Fits (token : Token) : Prop where
  nonempty : token.start < token.stop
  mark : ∀ mark, token.lexeme = .mark mark → token.stop = token.start + mark.chars.length

/-- The characters of a mark are one byte each. -/
theorem Mark.byteLength_chars (mark : Mark) : byteLength mark.chars = mark.chars.length := by
  cases mark <;> rfl

/-- A token of the scanner is not empty, and as long as its mark. -/
theorem Cursor.fits_stepHere {offset : Nat} {c : Char} {rest : List Char} {token : Token}
    {after : Cursor} (h : stepHere offset c rest = (.ok token, after)) : token.Fits where
  nonempty := by
    obtain ⟨taken, -, hm, htoken, -⟩ := begins_of_stepHere h
    have hpos := Text.byteLength_pos (List.cons_ne_nil c taken)
    rw [htoken]
    show offset < after.offset
    omega
  mark := by
    intro mark hmark
    have hchars := chars_of_stepHere h hmark
    obtain ⟨taken, hrest, hm, htoken, -⟩ := begins_of_stepHere h
    rw [hrest, ← List.cons_append] at hchars
    rw [htoken, ← mark.byteLength_chars, List.append_cancel_right hchars]
    exact hm

/-- Two positions at the same offset inside of tokens with the same number, or at the ends of two
texts. -/
inductive SamePlace (tokens tokens' : List Token) (stop stop' : Nat) : Nat → Nat → Prop where
  | inside {number offset : Nat} {token token' : Token} :
      tokens[number]? = some token → tokens'[number]? = some token' →
      token.start + offset < token.stop → token'.start + offset < token'.stop →
      SamePlace tokens tokens' stop stop' (token.start + offset) (token'.start + offset)
  | atEnd : SamePlace tokens tokens' stop stop' stop stop'

/-- Two tokens with the same lexeme, each what is left of one of the original tokens behind the same
number of bytes. -/
structure Counterpart (tokens tokens' : List Token) (token token' : Token) : Prop where
  lexeme : token.lexeme = token'.lexeme
  fits : token.Fits
  fits' : token'.Fits
  origin : ∃ (number offset : Nat) (original original' : Token),
    tokens[number]? = some original ∧ tokens'[number]? = some original'
      ∧ token.start = original.start + offset ∧ token'.start = original'.start + offset
      ∧ token.stop = original.stop ∧ token'.stop = original'.stop

variable {tokens tokens' : List Token} {stop stop' : Nat} {token token' : Token}

/-- Counterparts start at the same place. -/
theorem Counterpart.samePlace (h : Counterpart tokens tokens' token token') :
    SamePlace tokens tokens' stop stop' token.start token'.start := by
  obtain ⟨number, offset, original, original', hfound, hfound', hstart, hstart', hstop, hstop'⟩ :=
    h.origin
  have hlt := h.fits.nonempty
  have hlt' := h.fits'.nonempty
  rw [hstart, hstart']
  exact .inside hfound hfound' (by omega) (by omega)

/-- A mark without a bracket in front is shorter by one character. -/
theorem Mark.length_chars_of_behindAngle? {mark behind : Mark}
    (h : mark.behindAngle? = some (some behind)) :
    mark.chars.length = behind.chars.length + 1 := by
  cases mark <;> cases h <;> rfl

/-- What is left of a token behind one bracket. -/
def Token.behindBracket (token : Token) (behind : Mark) : Token :=
  ⟨.mark behind, token.start + 1, token.stop⟩

/-- What is left of a mark behind a bracket is as long as the mark that it is. -/
theorem Token.Fits.behindBracket {mark behind : Mark} (h : token.Fits)
    (hmark : token.lexeme = .mark mark) (hbehind : mark.behindAngle? = some (some behind)) :
    (token.behindBracket behind).Fits := by
  have hlength := h.mark mark hmark
  have hchars := mark.length_chars_of_behindAngle? hbehind
  have hpos := List.length_pos_iff.mpr behind.chars_ne_nil
  refine ⟨?_, fun other hother => ?_⟩
  · show token.start + 1 < token.stop
    omega
  · cases Lexeme.mark.inj hother
    show token.stop = token.start + 1 + behind.chars.length
    omega

/-- What is left of counterparts behind a bracket are counterparts. -/
theorem Counterpart.behindBracket {mark behind : Mark} (h : Counterpart tokens tokens' token token')
    (hmark : token.lexeme = .mark mark) (hbehind : mark.behindAngle? = some (some behind)) :
    Counterpart tokens tokens' (token.behindBracket behind) (token'.behindBracket behind) := by
  obtain ⟨number, offset, original, original', hfound, hfound', hstart, hstart', hstop, hstop'⟩ :=
    h.origin
  refine ⟨rfl, h.fits.behindBracket hmark hbehind,
    h.fits'.behindBracket (h.lexeme ▸ hmark) hbehind, number, offset + 1, original, original',
    hfound, hfound', ?_, ?_, hstop, hstop'⟩
  · exact congrArg (· + 1) hstart
  · exact congrArg (· + 1) hstart'

/-! ### The simulation -/

/-- Behind half of a mark come the rest of it, if there is any, and the other tokens. -/
theorem Stream.behindAngle_cons {mark : Mark} {left : Option Mark}
    (hmark : token.lexeme = .mark mark) (hleft : mark.behindAngle? = some left)
    (rest : List Token) (stop : Nat) : behindAngle ⟨token :: rest, stop⟩
      = ⟨(left.map token.behindBracket).toList ++ rest, stop⟩ := by
  obtain ⟨lexeme, start, behind⟩ := token
  cases (hmark : lexeme = .mark mark)
  rw [behindAngle]
  dsimp only
  rw [hleft]
  cases left <;> rfl

/-- Streams of two texts, what is left of their tokens in step. -/
structure Stream.Layout (tokens tokens' : List Token) (stop stop' : Nat)
    (first second : Stream) : Prop where
  tokens : List.Forall₂ (Counterpart tokens tokens') first.tokens second.tokens
  stop : first.stop = stop
  stop' : second.stop = stop'

namespace Stream.Layout

variable {first second : Stream}

/-- The same lexeme comes next in both streams. -/
theorem next?_eq (h : Layout tokens tokens' stop stop' first second) :
    first.next? = second.next? := by
  obtain ⟨_, _⟩ := first
  obtain ⟨_, _⟩ := second
  cases h.tokens with
  | nil => rfl
  | cons htoken _ => exact congrArg some htoken.lexeme

/-- Both streams are as long. -/
theorem size_eq (h : Layout tokens tokens' stop stop' first second) :
    first.size = second.size :=
  h.tokens.length_eq

/-- Both streams stand at the same place. -/
theorem samePlace (h : Layout tokens tokens' stop stop' first second) :
    SamePlace tokens tokens' stop stop' first.position second.position := by
  obtain ⟨_, _⟩ := first
  obtain ⟨_, _⟩ := second
  cases h.stop
  cases h.stop'
  cases h.tokens with
  | nil => exact .atEnd
  | cons htoken _ => exact htoken.samePlace

/-- They are still in step behind one token of each. -/
theorem tail (h : Layout tokens tokens' stop stop' first second) :
    Layout tokens tokens' stop stop' first.tail second.tail where
  tokens := by
    obtain ⟨_, _⟩ := first
    obtain ⟨_, _⟩ := second
    cases h.tokens with
    | nil => exact .nil
    | cons _ hrest => exact hrest
  stop := h.stop
  stop' := h.stop'

/-- They are still in step behind one bracket of each. -/
theorem behindAngle (h : Layout tokens tokens' stop stop' first second)
    (hangle : first.startsAngle = true) :
    Layout tokens tokens' stop stop' first.behindAngle second.behindAngle := by
  refine ⟨?_, first.stop_behindAngle.trans h.stop, second.stop_behindAngle.trans h.stop'⟩
  obtain ⟨_, stop⟩ := first
  obtain ⟨_, stop'⟩ := second
  cases h.tokens with
  | nil => cases hangle
  | @cons token token' rest rest' htoken hrest =>
    have hangle : token.lexeme.isAngle = true := hangle
    obtain ⟨mark, hmark⟩ : ∃ mark, token.lexeme = .mark mark := by
      cases hlexeme : token.lexeme with
      | mark mark => exact ⟨mark, rfl⟩
      | _ => rw [hlexeme] at hangle; cases hangle
    rw [hmark] at hangle
    obtain ⟨left, hleft⟩ := Option.isSome_iff_exists.mp hangle
    -- Both lose one bracket, and the rest of the mark is there in both or in neither.
    rw [behindAngle_cons hmark hleft, behindAngle_cons (htoken.lexeme ▸ hmark) hleft]
    cases left with
    | none => exact hrest
    | some behind => exact .cons (htoken.behindBracket hmark hleft) hrest

end Stream.Layout

/-- The simulation of the streams of a text by those of another with the same lexemes. -/
def layout (tokens tokens' : List Token) (stop stop' : Nat) : Simulation where
  streams := Stream.Layout tokens tokens' stop stop'
  depths := .inr fun h => h.size_eq
  positions := SamePlace tokens tokens' stop stop'
  errors error error' := error.fault = error'.fault
    ∧ SamePlace tokens tokens' stop stop' error.position error'.position
  next h := .inl h.next?_eq
  tail h _ _ := h.tail
  angle h hangle := h.behindAngle hangle
  position h := h.samePlace
  error h wanted := ⟨congrArg (SyntaxFault.expected wanted) h.next?_eq, h.samePlace⟩

/-! ### Statements -/

variable {rest rest' : List Token}

/-- The first tokens of both have the same lexeme. -/
theorem front?_eq (h : List.Forall₂ (Counterpart tokens tokens') rest rest') :
    front? rest = front? rest' := by
  cases h with
  | nil => rfl
  | cons htoken _ => exact congrArg some htoken.lexeme

/-- Behind the brace that closes the last bracket, both walks end, with a semicolon or without. -/
theorem endsAlike_brace {position position' behind behind' : Nat}
    (htoken : token.lexeme = token'.lexeme) (hbrace : token.lexeme = .mark .braceClose)
    (h : List.Forall₂ (Counterpart tokens tokens') rest rest') :
    (layout tokens tokens' stop stop').EndsAlike [] [] position position' stop stop'
      (Reader.splitStatement 1 behind (token :: rest))
      (Reader.splitStatement 1 behind' (token' :: rest')) := by
  have hbrace' := htoken.symm.trans hbrace
  by_cases hsemicolon : front? rest = some (.mark .semicolon)
  · cases h with
    | nil => cases hsemicolon
    | cons hnext hmore =>
      have hlexeme := Option.some.inj hsemicolon
      rw [Reader.splitStatement_brace_semicolon hbrace hlexeme,
        Reader.splitStatement_brace_semicolon hbrace' (hnext.lexeme.symm.trans hlexeme)]
      exact .done rfl ⟨hmore, rfl, rfl⟩
  · rw [Reader.splitStatement_closes hbrace behind hsemicolon,
      Reader.splitStatement_closes hbrace' behind' (front?_eq h ▸ hsemicolon)]
    exact .done rfl ⟨h, rfl, rfl⟩

/-- Two walks over tokens in step end alike. -/
theorem endsAlike_layout {position position' behind behind' depth : Nat}
    {first second : List Token} (h : List.Forall₂ (Counterpart tokens tokens') first second) :
    (layout tokens tokens' stop stop').EndsAlike [] [] position position' stop stop'
      (Reader.splitStatement depth behind first) (Reader.splitStatement depth behind' second) := by
  induction h generalizing depth behind behind' with
  | nil =>
    cases depth with
    | zero => exact .done rfl ⟨.nil, rfl, rfl⟩
    | succ depth => exact .unclosed ⟨.nil, rfl, rfl⟩
  | @cons token token' rest rest' htoken hrest ih =>
    have hall := List.Forall₂.cons htoken hrest
    have hlexeme := htoken.lexeme
    cases Reader.walkStep depth token.lexeme with
    | leaves hdepth hbrace =>
      cases hdepth
      rw [Reader.splitStatement_leaves hbrace,
        Reader.splitStatement_leaves (hlexeme.symm.trans hbrace)]
      exact .done rfl ⟨hall, rfl, rfl⟩
    | fails _ hfails =>
      rw [hfails token _ _ rfl, hfails token' _ _ hlexeme.symm]
      exact .stray ⟨hall, rfl, rfl⟩
    | ends hdepth hsemicolon =>
      cases hdepth
      rw [Reader.splitStatement_ends hsemicolon,
        Reader.splitStatement_ends (hlexeme.symm.trans hsemicolon)]
      exact .done rfl ⟨hrest, rfl, rfl⟩
    | closes hdepth hbrace =>
      cases hdepth
      exact endsAlike_brace hlexeme hbrace hrest
    | goes deeper hgoes =>
      rw [hgoes token _ _ rfl, hgoes token' _ _ hlexeme.symm]
      exact ih

/-! ### Files -/

/-- Both texts fail with the same fault at positions that stand for each other, or both are read as
the same declarations, up to the texts that are kept, and with the same remarks. -/
inductive ReadAlike (place : Nat → Nat → Prop) :
    Except SyntaxError Document → Except SyntaxError Document → Prop where
  | error {fault : SyntaxFault} {position position' : Nat} : place position position' →
      ReadAlike place (.error ⟨fault, position⟩) (.error ⟨fault, position'⟩)
  | ok {document document' : Document} :
      document.declarations.map Declaration.withoutTexts
        = document'.declarations.map Declaration.withoutTexts →
      document.lost.map LostRest.message = document'.lost.map LostRest.message →
      ReadAlike place (.ok document) (.ok document')

/-- The tokens of two texts with the same lexemes are in step. -/
theorem counterparts_of_scan {text text' : String} (h : Token.scan text = .ok tokens)
    (h' : Token.scan text' = .ok tokens')
    (hsame : tokens.map Token.lexeme = tokens'.map Token.lexeme) :
    List.Forall₂ (Counterpart tokens tokens') tokens tokens' := by
  have hfits := Cursor.forall_tokens Cursor.fits_stepHere h
  have hfits' := Cursor.forall_tokens Cursor.fits_stepHere h'
  have hlength : tokens.length = tokens'.length := by
    rw [← List.length_map Token.lexeme, hsame, List.length_map]
  refine List.forall₂_iff_get.mpr ⟨hlength, fun number hlt hlt' => ?_⟩
  have hlexeme : (tokens.map Token.lexeme)[number]? = (tokens'.map Token.lexeme)[number]? := by
    rw [hsame]
  rw [List.getElem?_map, List.getElem?_map, List.getElem?_eq_getElem hlt,
    List.getElem?_eq_getElem hlt'] at hlexeme
  exact ⟨Option.some.inj hlexeme, hfits _ (List.getElem_mem hlt), hfits' _ (List.getElem_mem hlt'),
    number, 0, _, _, List.getElem?_eq_getElem hlt, List.getElem?_eq_getElem hlt', rfl, rfl, rfl,
    rfl⟩

/-- Remarks that stand for each other have the same message. -/
theorem messages_eq {S : Simulation} {lost lost' : List LostRest}
    (h : List.Forall₂ S.SameLost lost lost') :
    lost.map LostRest.message = lost'.map LostRest.message := by
  induction h with
  | nil => rfl
  | @cons one other _ _ hsame _ ih =>
    obtain ⟨name, type, position⟩ := one
    obtain ⟨name', type', position'⟩ := other
    obtain ⟨rfl : name = name', rfl : type = type', -⟩ := hsame
    exact congrArg₂ List.cons rfl ih

/-- Without the characters of the texts, streams in step are read alike. -/
theorem readAlike_ofStream {first second : Stream}
    (h : Stream.Layout tokens tokens' stop stop' first second) :
    ReadAlike (SamePlace tokens tokens' stop stop') (Document.ofStream [] first)
      (Document.ofStream [] second) := by
  have hverbatim : (layout tokens tokens' stop stop').Verbatim [] [] := by
    intro first second position position' hstreams _
    rw [hstreams.stop, hstreams.stop']
    exact endsAlike_layout hstreams.tokens
  have houtcome := Simulation.alike_declarationsOfText hverbatim h (Nat.lt_succ_self _)
    (Nat.lt_succ_of_le (Nat.le_of_eq h.size_eq.symm))
  rw [Document.ofStream, Document.ofStream]
  generalize Reader.declarations Option.isNone (Reader.declaration []) first = answer at houtcome
  generalize Reader.declarations Option.isNone (Reader.declaration []) second = answer' at houtcome
  cases houtcome with
  | @ok value lost lost' rest rest' hlost =>
    have hmessages := messages_eq hlost
    show ReadAlike _ (.ok ⟨value, lost⟩) (.ok ⟨value, lost'⟩)
    exact .ok rfl hmessages
  | @error error error' herror =>
    obtain ⟨fault, position⟩ := error
    obtain ⟨fault', position'⟩ := error'
    obtain ⟨rfl : fault = fault', hplace⟩ := herror
    exact .error hplace

/-- Two texts with the same lexemes are read alike, whatever their layout. -/
theorem Document.ofText_layout {text text' : String} (h : Token.scan text = .ok tokens)
    (h' : Token.scan text' = .ok tokens')
    (hsame : tokens.map Token.lexeme = tokens'.map Token.lexeme) :
    ReadAlike (SamePlace tokens tokens' text.utf8ByteSize text'.utf8ByteSize) (ofText text)
      (ofText text') := by
  have hlayout : Stream.Layout tokens tokens' text.utf8ByteSize text'.utf8ByteSize
      ⟨tokens, text.utf8ByteSize⟩ ⟨tokens', text'.utf8ByteSize⟩ :=
    ⟨counterparts_of_scan h h' hsame, rfl, rfl⟩
  have hread := readAlike_ofStream hlayout
  rw [ofStream_withoutTexts text.toList, ofStream_withoutTexts text'.toList] at hread
  rw [ofText, ofText, h, h']
  dsimp only
  generalize ofStream text.toList ⟨tokens, text.utf8ByteSize⟩ = answer at hread
  generalize ofStream text'.toList ⟨tokens', text'.utf8ByteSize⟩ = answer' at hread
  -- Both answers are known up to texts, so the cases are those of the answers themselves.
  cases answer with
  | error error =>
    cases answer' with
    | error error' =>
      cases hread with
      | error hplace => exact .error hplace
    | ok document' => cases hread
  | ok document =>
    cases answer' with
    | error error' => cases hread
    | ok document' =>
      cases hread with
      | ok hdeclarations hlost =>
        simp only [← withoutTextsAll_eq_map, withoutTextsAll_twice] at hdeclarations
        refine .ok ?_ hlost
        rw [← withoutTextsAll_eq_map, ← withoutTextsAll_eq_map, hdeclarations]

/-- Both texts have one bracket too many, the second half of a longer mark. -/
theorem Document.ofText_layout_bracket : ∃ tokens tokens',
    Token.scan "var x: A<B>>;" = .ok tokens ∧ Token.scan "var x /* é */ : A<B >> ;" = .ok tokens'
      ∧ tokens.map Token.lexeme = tokens'.map Token.lexeme
      ∧ ReadAlike (SamePlace tokens tokens' 13 25) (ofText "var x: A<B>>;")
        (ofText "var x /* é */ : A<B >> ;") := by
  have hscan : Token.scan "var x: A<B>>;"
      = .ok [⟨.word .varWord, 0, 3⟩, ⟨.name "x", 4, 5⟩, ⟨.mark .colon, 5, 6⟩, ⟨.name "A", 7, 8⟩,
        ⟨.mark .less, 8, 9⟩, ⟨.name "B", 9, 10⟩, ⟨.mark .shiftRight, 10, 12⟩,
        ⟨.mark .semicolon, 12, 13⟩] := by decide +kernel
  have hscan' : Token.scan "var x /* é */ : A<B >> ;"
      = .ok [⟨.word .varWord, 0, 3⟩, ⟨.name "x", 4, 5⟩, ⟨.mark .colon, 15, 16⟩,
        ⟨.name "A", 17, 18⟩, ⟨.mark .less, 18, 19⟩, ⟨.name "B", 19, 20⟩,
        ⟨.mark .shiftRight, 21, 23⟩, ⟨.mark .semicolon, 24, 25⟩] := by decide +kernel
  exact ⟨_, _, hscan, hscan', rfl, ofText_layout hscan hscan' rfl⟩

end Facade
