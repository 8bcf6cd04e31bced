import Facade.Proofs.Declaration.Layout

/-!
# Closing angle brackets, cut by the scanner

The scanner takes the longest mark, so where two lists of type arguments end it makes one token of
what are two brackets to the reader, and the reader takes that token apart as it goes on. It could
as well have been given every bracket as a token of one byte: `Document.ofText_singles` says that a
file is read as the same document from these tokens, with its remarks at the same places, and that
it fails at the same place if it fails.
-/

set_option autoImplicit false

namespace Facade

/-- A character of a mark that starts with a bracket, as a token by itself. -/
def Token.ofCharacter (c : Char) (start : Nat) : Token :=
  ⟨.mark (if c = '>' then .greater else .assign), start, start + 1⟩

/-- A mark that starts with a closing angle bracket is one token for each of its characters, with a
byte for each; any other token is one by itself. -/
theorem Token.Fits.singles_eq {token : Token} (h : token.Fits) :
    token.singles = match token.lexeme with
      | .mark mark => if (Lexeme.mark mark).isAngle
          then mark.chars.zipIdx.map fun (c, number) => ofCharacter c (token.start + number)
          else [token]
      | _ => [token] := by
  obtain ⟨lexeme, start, stop⟩ := token
  cases lexeme with
  | mark mark =>
    have hstop : stop = start + mark.chars.length := h.mark mark rfl
    subst hstop
    cases mark <;> rfl
  | _ => rfl

/-- A file that is scanned is read from its tokens as from those in which every closing angle
bracket stands for itself: as the same document, or not at all for want of the same at the same
place. -/
theorem Document.ofText_singles {text : String} {tokens : List Token}
    (h : Token.scan text = .ok tokens) :
    (∀ token ∈ tokens, token.singles = match token.lexeme with
        | .mark mark => if (Lexeme.mark mark).isAngle
            then mark.chars.zipIdx.map fun (c, number) => Token.ofCharacter c (token.start + number)
            else [token]
        | _ => [token])
      ∧ (∀ document, ofStream text.toList ⟨singles tokens, text.utf8ByteSize⟩ = .ok document
          ↔ ofText text = .ok document)
      ∧ ReadSame (ofStream text.toList ⟨singles tokens, text.utf8ByteSize⟩) (ofText text) := by
  have hfits := Cursor.forall_tokens Cursor.fits_stepHere h
  have hofText : ofText text = ofStream text.toList ⟨tokens, text.utf8ByteSize⟩ := by
    rw [ofText, h]
  rw [hofText]
  exact ⟨fun token hin => (hfits token hin).singles_eq, fun _ => ofStream_singles,
    readSame_singles text.toList tokens text.utf8ByteSize⟩

/-- Two lists of type arguments end at once, and a list of type parameters ends in front of an
equals sign. -/
theorem Document.ofText_singles_alias : ∃ tokens document,
    Token.scan "type X<T>=A<B<T>>;" = .ok tokens
      ∧ singles tokens = [⟨.word .typeWord, 0, 4⟩, ⟨.name "X", 5, 6⟩, ⟨.mark .less, 6, 7⟩,
        ⟨.name "T", 7, 8⟩, ⟨.mark .greater, 8, 9⟩, ⟨.mark .assign, 9, 10⟩, ⟨.name "A", 10, 11⟩,
        ⟨.mark .less, 11, 12⟩, ⟨.name "B", 12, 13⟩, ⟨.mark .less, 13, 14⟩, ⟨.name "T", 14, 15⟩,
        ⟨.mark .greater, 15, 16⟩, ⟨.mark .greater, 16, 17⟩, ⟨.mark .semicolon, 17, 18⟩]
      ∧ document.declarations
        = [.alias "X" [⟨"T", none, none⟩] (.named ["A"] [.named ["B"] [.named ["T"] []]])]
      ∧ ofStream "type X<T>=A<B<T>>;".toList ⟨singles tokens, 18⟩ = .ok document := by
  have hscan : Token.scan "type X<T>=A<B<T>>;"
      = .ok [⟨.word .typeWord, 0, 4⟩, ⟨.name "X", 5, 6⟩, ⟨.mark .less, 6, 7⟩, ⟨.name "T", 7, 8⟩,
        ⟨.mark .atLeast, 8, 10⟩, ⟨.name "A", 10, 11⟩, ⟨.mark .less, 11, 12⟩, ⟨.name "B", 12, 13⟩,
        ⟨.mark .less, 13, 14⟩, ⟨.name "T", 14, 15⟩, ⟨.mark .shiftRight, 15, 17⟩,
        ⟨.mark .semicolon, 17, 18⟩] := by decide +kernel
  have hread : ofText "type X<T>=A<B<T>>;" = .ok ⟨[.alias "X" [⟨"T", none, none⟩]
      (.named ["A"] [.named ["B"] [.named ["T"] []]])], []⟩ := by with_unfolding_all rfl
  exact ⟨_, _, hscan, rfl, rfl, ((ofText_singles hscan).2.1 _).mpr hread⟩

end Facade
