import Facade.Proofs.Declaration.Settled.Declarations
import Facade.Proofs.Text.Place
import Facade.Proofs.Token.Lines

/-!
# One text below another

A text that ends with a semicolon, or has no tokens at all, may be followed by another on the next
line. What is read then is what is read of both, one after the other, and nothing that comes behind
the semicolon changes what is read in front of it: `ofText_lines`.

The first text is read in three steps. The statements that are kept as they are written are cut out
of the longer text just so (`upTo`), the declarations are settled when they come to the end of
the first text (`declarations_followed`), and what comes behind is read as it is by itself, some
bytes further on (`declarations_below`).
-/

set_option autoImplicit false

namespace Facade

open Facade.Text (byteLength slice)

/-! ### Places -/

namespace Text.Place

/-- A run of characters leads as far, however many lines come before it. -/
theorem afterAll_lower (place : Place) (lines : Nat) (run : List Char) :
    Place.afterAll ⟨place.line + lines, place.column⟩ run
      = ⟨(place.afterAll run).line + lines, (place.afterAll run).column⟩ := by
  induction run generalizing place with
  | nil => rfl
  | cons c run ih =>
    have hafter : after ⟨place.line + lines, place.column⟩ c
        = ⟨(place.after c).line + lines, (place.after c).column⟩ := by
      by_cases hc : c = '\n'
      · simp only [after, if_pos hc, Nat.add_right_comm]
      · simp only [after, if_neg hc]
    show (after ⟨place.line + lines, place.column⟩ c).afterAll run = _
    rw [hafter]
    exact ih (place.after c)

/-- A place in a text below another stands in the same column, as many lines further down as the
other has, and one more. -/
theorem ofByte_line (front text : List Char) (offset : Nat) :
    ofByte (front ++ '\n' :: text) (offset + (byteLength front + 1))
      = ⟨(ofByte text offset).line + (front.count '\n' + 1), (ofByte text offset).column⟩ := by
  have hbytes : byteLength front + 1 = byteLength (front ++ ['\n']) := by
    rw [byteLength_append]
    rfl
  -- Behind the line feed the walk is at the start of a line, as at the start of a text.
  have hline : first.afterAll (front ++ ['\n'])
      = ⟨first.line + (front.count '\n' + 1), first.column⟩ := by
    rw [afterAll_append]
    show after (first.afterAll front) '\n' = _
    rw [after, if_pos rfl, line_afterAll, Nat.add_assoc]
    rfl
  rw [ofByte, List.append_cons, hbytes, upToByte_append, afterAll_append, hline, afterAll_lower]
  rfl

end Text.Place

/-! ### Statements of the first text -/

/-- Behind a bracket, no token ends further on than before. -/
theorem Stream.stop_behindAngle_le {stream : Stream} {bytes : Nat}
    (h : ∀ token ∈ stream.tokens, token.stop ≤ bytes) :
    ∀ token ∈ stream.behindAngle.tokens, token.stop ≤ bytes := by
  rw [Stream.behindAngle]
  split
  · rename_i htokens
    rw [htokens, List.forall_mem_cons] at h
    split
    · exact List.forall_mem_cons.mpr h
    · exact h.2
  · exact h

/-- The simulation of streams by themselves, if no token ends behind some bytes. -/
def upTo (bytes : Nat) : Simulation where
  streams first second := first = second ∧ ∀ token ∈ first.tokens, token.stop ≤ bytes
  depths := .inr fun h => congrArg Stream.size h.1
  positions := Eq
  errors := Eq
  next h := .inl (congrArg Stream.next? h.1)
  tail h _ _ := ⟨congrArg Stream.tail h.1, fun token hin => h.2 token (List.mem_of_mem_tail hin)⟩
  angle h _ := ⟨congrArg Stream.behindAngle h.1, Stream.stop_behindAngle_le h.2⟩
  position h := congrArg Stream.position h.1
  error h _ := by rw [h.1]

/-- A statement that ends in a text is cut out of a longer text just so. -/
theorem verbatim_upTo (text more : List Char) :
    (upTo (byteLength text)).Verbatim text (text ++ more) := by
  rintro stream _ position _ ⟨rfl, hstop⟩ rfl
  have hrest : ∀ {rest : List Token}, rest <:+ stream.tokens →
      (upTo (byteLength text)).streams ⟨rest, stream.stop⟩ ⟨rest, stream.stop⟩ :=
    fun hsuffix => ⟨rfl, fun token hin => hstop token (hsuffix.subset hin)⟩
  cases hsplit : Reader.splitStatement 0 position stream.tokens with
  | done behind rest =>
    obtain ⟨taken, htokens⟩ := Simulation.suffix_splitStatement hsplit
    have hbehind := (Reader.walks_of_splitStatement (htokens.symm ▸ hsplit)).1
    refine .done (Text.slice_of_le ?_ more).symm (hrest ⟨taken, htokens⟩)
    -- The statement ends with a token of the text, or has none.
    rw [hbehind, Reader.lastStop]
    cases hlast : taken.getLast? with
    | none => exact .inr rfl
    | some last =>
      refine .inl (hstop last ?_)
      rw [← htokens]
      exact List.mem_append_left rest (List.mem_of_getLast? hlast)
  | stray rest => exact .stray (hrest (Simulation.suffix_of_stray hsplit))
  | unclosed => exact .unclosed (hrest List.nil_suffix)

/-- If no token ends behind a text, what is read of it is read of a longer text just so. -/
theorem Reader.declarations_upTo {text : List Char} {stream : Stream}
    (h : ∀ token ∈ stream.tokens, token.stop ≤ byteLength text) (more : List Char) :
    declarations Option.isNone (declaration (text ++ more)) stream
      = declarations Option.isNone (declaration text) stream := by
  have houtcome := Simulation.alike_declarationsOfText (verbatim_upTo text more)
    (show (upTo (byteLength text)).streams stream stream from ⟨rfl, h⟩) (Nat.lt_succ_self _)
    (Nat.lt_succ_self _)
  suffices hsame : Simulation.same.Outcome (stream.size + 1) (stream.size + 1)
      (declarations Option.isNone (declaration text) stream)
      (declarations Option.isNone (declaration (text ++ more)) stream) from
    (Simulation.eq_of_same hsame).symm
  generalize declarations Option.isNone (declaration text) stream = answer at houtcome ⊢
  generalize declarations Option.isNone (declaration (text ++ more)) stream = answer' at houtcome ⊢
  cases houtcome with
  | ok hlost hrest hlt hlt' =>
    exact .ok (hlost.imp fun _ _ hsame => ⟨hsame.name, hsame.type, hsame.position⟩) hrest.1 hlt hlt'
  | error herror => exact .error herror

/-! ### Declarations of both texts -/

/-- What is read of one text and then of another. -/
def Reading.andThen {α : Type} (reading behind : Reading (List α)) : Reading (List α) :=
  ⟨reading.value ++ behind.value, reading.lost ++ behind.lost, behind.rest⟩

namespace Reader

/-- A declaration takes a token. -/
theorem ensures_declaration_lt (text : List Char) (stream : Stream) :
    (declaration text).Ensures stream fun _ rest => rest.size < stream.size := by
  intro reading hread
  have houtcome := Simulation.takes_declaration (Simulation.verbatim_same text)
    (rfl : stream = stream) (Nat.lt_succ_self _) (Nat.lt_succ_self _)
  rw [hread] at houtcome
  cases houtcome with
  | ok _ _ hlt _ => exact hlt

/-- If the declarations come to the end of tokens that end with a semicolon, those behind are read
by themselves. -/
theorem declarations_followed (text : List Char) {stream : Stream}
    {reading : Reading (List Declaration)} (hended : stream.tokens = [] ∨ stream.Ended)
    (h : declarations Option.isNone (declaration text) stream = .ok reading) (more : List Token)
    (stop : Nat) : declarations Option.isNone (declaration text) (stream.followed more stop)
      = (declarations Option.isNone (declaration text) ⟨more, stop⟩).map reading.andThen := by
  have hstops : ∀ lexeme : Lexeme, lexeme.isAngle = true → ¬ (some lexeme).isNone = true :=
    fun _ _ => Bool.false_ne_true
  -- Every declaration leaves less, and so does a semicolon.
  induction hsize : stream.size using Nat.strong_induction_on generalizing stream reading with
  | _ n ih =>
    rcases hended with hnil | hended
    -- Nothing is left of the first text.
    · rw [declarations_nil hstops text (by rw [Stream.next?_eq_none.mpr hnil]; rfl)] at h
      cases h
      rw [Stream.followed, hnil, List.nil_append]
      cases declarations Option.isNone (declaration text) ⟨more, stop⟩ <;> rfl
    · obtain ⟨lexeme, hnext⟩ := hended.next?_isSome
      have hgo : stream.next?.isNone = false := by rw [hnext]; rfl
      have hgo' : (stream.followed more stop).next?.isNone = false := by
        rw [Stream.next?_followed hended, hgo]
      by_cases hsemicolon : stream.next? = some (.mark .semicolon)
      · rw [declarations_semicolon hstops text hgo hsemicolon] at h
        have hsemicolon' : (stream.followed more stop).next? = some (.mark .semicolon) := by
          rw [Stream.next?_followed hended, hsemicolon]
        rw [declarations_semicolon hstops text hgo' hsemicolon', Stream.tail_followed hended]
        exact ih _ (hsize ▸ Stream.size_tail_lt hnext) (hended.or_nil (List.tail_suffix _)) h rfl
      -- A declaration is settled, and what it leaves is nothing or ends with the semicolon again.
      · rw [declarations_bind hstops text hgo hsemicolon] at h
        obtain ⟨first, _, hfirst, hothers, rfl⟩ := bind_eq_ok.mp h
        obtain ⟨others, _, hrest, hpure, rfl⟩ := bind_eq_ok.mp hothers
        cases hpure
        obtain ⟨hleft, hsame⟩ := whole_declaration text stream hended more stop first hfirst trivial
        have hlt := ensures_declaration_lt text stream first hfirst
        have hbehind := ih _ (hsize ▸ hlt) hleft hrest rfl
        have hsemicolon' : (stream.followed more stop).next? ≠ some (.mark .semicolon) := by
          rwa [Stream.next?_followed hended]
        rw [declarations_bind hstops text hgo' hsemicolon', bind_eq, hsame]
        dsimp only [Reading.followed]
        rw [bind_eq, hbehind]
        cases declarations Option.isNone (declaration text) ⟨more, stop⟩ with
        | error error => rfl
        | ok behind => simp [Except.map, Reading.andThen, pure]

/-- What stands below a text is read as it is by itself, some bytes further on. -/
theorem declarations_below {front : List Char} {stream : Stream}
    {reading : Reading (List Declaration)}
    (hstop : ∀ token ∈ stream.tokens, token.stop ≤ byteLength front)
    (hended : stream.tokens = [] ∨ stream.Ended)
    (h : declarations Option.isNone (declaration front) stream = .ok reading)
    (blank text : List Char) {bytes : Nat} (hbytes : byteLength (front ++ blank) = bytes)
    (behind : Stream) :
    declarations Option.isNone (declaration (front ++ blank ++ text))
        (stream.followed (behind.moved bytes).tokens (behind.moved bytes).stop)
      = match declarations Option.isNone (declaration text) behind with
        | .ok second => .ok ⟨reading.value ++ second.value,
            reading.lost ++ second.lost.map (LostRest.shift bytes), second.rest.moved bytes⟩
        | .error error => .error (error.shift bytes) := by
  have hfront : declarations Option.isNone (declaration (front ++ blank ++ text)) stream
      = .ok reading := by
    rw [List.append_assoc, declarations_upTo hstop, h]
  have hmoved := declarations_moved_eq (front ++ blank) text behind
  rw [hbytes] at hmoved
  have hbehind : declarations Option.isNone (declaration (front ++ blank ++ text))
      ⟨(behind.moved bytes).tokens, (behind.moved bytes).stop⟩ = _ := hmoved
  rw [declarations_followed _ hended hfront, hbehind]
  cases declarations Option.isNone (declaration text) behind <;> rfl

end Reader

/-! ### Files -/

namespace Document

variable {front : String} {tokens : List Token} {document : Document}

/-- What is read of a text below one that ends with a semicolon, is read behind that. -/
theorem ofText_below (hscan : Token.scan front = .ok tokens)
    (hlast : ∀ last ∈ tokens.getLast?, last.lexeme = .mark .semicolon)
    (hfront : ofText front = .ok document) (text : String) :
    ofText (front ++ "\n" ++ text) = match ofText text with
      | .ok behind => .ok ⟨document.declarations ++ behind.declarations,
          document.lost ++ behind.lost.map (LostRest.shift (front.utf8ByteSize + 1))⟩
      | .error error => .error (error.shift (front.utf8ByteSize + 1)) := by
  have hchars : (front ++ "\n" ++ text).toList = front.toList ++ ['\n'] ++ text.toList := by simp
  have hbytes : byteLength (front.toList ++ ['\n']) = front.utf8ByteSize + 1 := by
    rw [Text.byteLength_append, Text.byteLength_toList]
    rfl
  have hsize : (front ++ "\n" ++ text).utf8ByteSize
      = text.utf8ByteSize + (front.utf8ByteSize + 1) := by
    rw [String.utf8ByteSize_append, String.utf8ByteSize_append, Nat.add_comm]
    rfl
  have hended : tokens = [] ∨ Stream.Ended ⟨tokens, front.utf8ByteSize⟩ := by
    cases hnone : tokens.getLast? with
    | none => exact .inl (List.getLast?_eq_none_iff.mp hnone)
    | some last =>
      refine .inr ?_
      rw [Stream.Ended, hnone]
      exact congrArg some (hlast last hnone)
  have hlines := Token.scan_lines hscan text
  rw [Text.byteLength_toList] at hlines
  rw [ofText, hscan] at hfront
  rw [ofText, hlines, ofText]
  cases Token.scan text with
  -- A fault of the scanner is found before anything is read.
  | error error => rfl
  | ok more =>
    dsimp only [ofStream] at hfront
    split at hfront
    · rename_i reading hreading
      cases hfront
      -- The tokens are those of the first text, followed by those of the second, moved.
      have hboth := Reader.declarations_below (Token.stop_le hscan) hended hreading ['\n']
        text.toList hbytes ⟨more, text.utf8ByteSize⟩
      dsimp only [Stream.followed, Stream.moved] at hboth
      rw [← hchars, ← hsize] at hboth
      dsimp only [ofStream]
      rw [hboth]
      cases Reader.declarations Option.isNone (Reader.declaration text.toList)
        ⟨more, text.utf8ByteSize⟩ <;> rfl
    · cases hfront

/-- If a text is read, and ends with a semicolon or has no tokens, a text below it changes nothing
of what is read of it. That text is read as it is by itself: its declarations and remarks come
behind those of the first, and its error is the error of both, in the same column, as many lines
further down as the first has. -/
theorem ofText_lines (hscan : Token.scan front = .ok tokens)
    (hlast : ∀ last ∈ tokens.getLast?, last.lexeme = .mark .semicolon)
    (hfront : ofText front = .ok document) (text : String) :
    (∀ behind, ofText text = .ok behind → ofText (front ++ "\n" ++ text)
      = .ok ⟨document.declarations ++ behind.declarations,
          document.lost ++ behind.lost.map (LostRest.shift (front.utf8ByteSize + 1))⟩)
    ∧ ∀ error, ofText text = .error error →
      ∃ error', ofText (front ++ "\n" ++ text) = .error error'
        ∧ error'.fault = error.fault
        ∧ error'.position = error.position + (front.utf8ByteSize + 1)
        ∧ error'.place (front ++ "\n" ++ text)
          = ⟨(error.place text).line + (front.toList.count '\n' + 1),
              (error.place text).column⟩ := by
  have hread := ofText_below hscan hlast hfront text
  constructor
  · intro behind hbehind
    rw [hread, hbehind]
  · intro error herror
    have hchars : (front ++ "\n" ++ text).toList = front.toList ++ '\n' :: text.toList := by simp
    rw [herror] at hread
    refine ⟨_, hread, rfl, rfl, ?_⟩
    rw [SyntaxError.place, hchars, ← Text.byteLength_toList]
    exact Text.Place.ofByte_line front.toList text.toList error.position

/-- Below a comment, a parameter loses its dots, and a name is missing. -/
theorem ofText_lines_comment :
    ofText ("var x;\n// é" ++ "\n" ++ "function f(...a);")
      = .ok ⟨[.variable "x" none, .function "f" ⟨[], [⟨"a", false, none⟩], none⟩],
          [⟨"a", none, 24⟩]⟩
    ∧ ∃ error, ofText ("var x;\n// é" ++ "\n" ++ "var ;") = .error error
        ∧ error.fault = .expected .name (some (.mark .semicolon))
        ∧ error.position = 17
        ∧ error.place ("var x;\n// é" ++ "\n" ++ "var ;") = ⟨3, 5⟩ := by
  have hscan : Token.scan "var x;\n// é"
      = .ok [⟨.word .varWord, 0, 3⟩, ⟨.name "x", 4, 5⟩, ⟨.mark .semicolon, 5, 6⟩] := by
    decide +kernel
  have hfront : ofText "var x;\n// é" = .ok ⟨[.variable "x" none], []⟩ := by with_unfolding_all rfl
  have hrest : ofText "function f(...a);"
      = .ok ⟨[.function "f" ⟨[], [⟨"a", false, none⟩], none⟩], [⟨"a", none, 11⟩]⟩ := by
    with_unfolding_all rfl
  have hmissing : ofText "var ;" = .error ⟨.expected .name (some (.mark .semicolon)), 4⟩ := by
    with_unfolding_all rfl
  exact ⟨(ofText_lines hscan (by decide) hfront "function f(...a);").1 _ hrest,
    (ofText_lines hscan (by decide) hfront "var ;").2 _ hmissing⟩

end Document

end Facade
