import Facade.Proofs.Declaration.Singly
import Facade.Proofs.Text.Slice
import Facade.Proofs.Token.Scans

/-!
# Readers do not mind where a text stands

The tokens of a text that stands behind another are its own tokens, some bytes further on. This is
a simulation, and the statements that are kept as they are written are cut out of the longer text
at the same characters, so the declarations of a text are the same behind another, and its remarks
and its error are, some bytes further on: `declarations_moved_eq`.
-/

set_option autoImplicit false

namespace Facade

open Facade.Text (byteLength slice)

namespace Stream

/-- The stream of a text that stands some bytes further on. -/
def moved (bytes : Nat) (stream : Stream) : Stream :=
  ⟨stream.tokens.map (Token.shift bytes), stream.stop + bytes⟩

variable (bytes : Nat) (stream : Stream)

/-- A stream that is moved shows the same lexeme. -/
theorem next?_moved : (stream.moved bytes).next? = stream.next? := by
  obtain ⟨tokens, stop⟩ := stream
  cases tokens <;> rfl

/-- It is as long. -/
theorem size_moved : (stream.moved bytes).size = stream.size :=
  List.length_map _

/-- It is still moved behind one token. -/
theorem tail_moved : (stream.moved bytes).tail = stream.tail.moved bytes := by
  obtain ⟨tokens, stop⟩ := stream
  cases tokens <;> rfl

/-- It stands as many bytes further on. -/
theorem position_moved : (stream.moved bytes).position = stream.position + bytes := by
  obtain ⟨tokens, stop⟩ := stream
  cases tokens <;> rfl

/-- It is still moved behind one bracket. -/
theorem behindAngle_moved : (stream.moved bytes).behindAngle = stream.behindAngle.moved bytes := by
  obtain ⟨tokens, stop⟩ := stream
  match tokens with
  | [] => rfl
  | ⟨lexeme, start, behind⟩ :: rest =>
    have hstart : start + bytes + 1 = start + 1 + bytes := Nat.add_right_comm _ _ _
    cases lexeme with
    | mark m =>
      cases m <;> simp [moved, behindAngle, Token.shift, Mark.behindAngle?, hstart]
    | _ => rfl

end Stream

/-- The remark of a text, some bytes further on. -/
def LostRest.shift (bytes : Nat) (lost : LostRest) : LostRest :=
  ⟨lost.name, lost.type, lost.position + bytes⟩

/-- The error of a text, some bytes further on. -/
def SyntaxError.shift (bytes : Nat) (error : SyntaxError) : SyntaxError :=
  ⟨error.fault, error.position + bytes⟩

/-- The simulation of streams by those some bytes further on. -/
def moved (bytes : Nat) : Simulation where
  streams first second := second = first.moved bytes
  depths := .inr fun {first _} h => h ▸ (first.size_moved bytes).symm
  positions position position' := position' = position + bytes
  errors error error' := error' = error.shift bytes
  next := by
    rintro first _ rfl
    exact .inl (first.next?_moved bytes).symm
  tail := by
    rintro first _ lexeme rfl _ _
    exact first.tail_moved bytes
  angle := by
    rintro first _ rfl _
    exact first.behindAngle_moved bytes
  position := by
    rintro first _ rfl
    exact first.position_moved bytes
  error := by
    rintro first _ rfl wanted
    rw [first.next?_moved, first.position_moved]
    rfl

namespace Reader

/-- The end of a walk over a statement, some bytes further on. -/
def StatementEnd.moved (bytes : Nat) : StatementEnd → StatementEnd
  | .done stop rest => .done (stop + bytes) (rest.map (Token.shift bytes))
  | .stray rest => .stray (rest.map (Token.shift bytes))
  | .unclosed => .unclosed

/-- The walk ends at a closing brace that is moved as at the brace, so many bytes further on. -/
theorem splitStatement_brace_moved (bytes start behind stop : Nat) (rest : List Token) :
    splitStatement 1 (stop + bytes)
        (⟨.mark .braceClose, start + bytes, behind + bytes⟩ :: rest.map (Token.shift bytes))
      = (splitStatement 1 stop (⟨.mark .braceClose, start, behind⟩ :: rest)).moved bytes := by
  match rest with
  | [] => rfl
  | ⟨lexeme, start, behind⟩ :: more =>
    cases lexeme with
    | mark m => cases m <;> rfl
    | _ => rfl

/-- The walk over a statement is the same some bytes further on. -/
theorem splitStatement_moved (bytes depth stop : Nat) (tokens : List Token) :
    splitStatement depth (stop + bytes) (tokens.map (Token.shift bytes))
      = (splitStatement depth stop tokens).moved bytes := by
  induction tokens generalizing depth stop with
  | nil => cases depth <;> rfl
  | cons token rest ih =>
    rw [List.map_cons]
    have hlexeme : (token.shift bytes).lexeme = token.lexeme := rfl
    cases walkStep depth token.lexeme with
    | leaves hdepth hbrace =>
      cases hdepth
      rw [splitStatement_leaves hbrace, splitStatement_leaves (hlexeme.trans hbrace)]
      rfl
    | fails _ hfails =>
      rw [hfails (token.shift bytes) _ _ hlexeme, hfails token _ _ rfl]
      rfl
    | ends hdepth hsemicolon =>
      cases hdepth
      rw [splitStatement_ends hsemicolon, splitStatement_ends (hlexeme.trans hsemicolon)]
      rfl
    | closes hdepth hbrace =>
      obtain ⟨lexeme, start, behind⟩ := token
      cases hdepth
      cases (hbrace : lexeme = .mark .braceClose)
      exact splitStatement_brace_moved bytes start behind stop rest
    | goes deeper hgoes =>
      rw [hgoes (token.shift bytes) _ _ hlexeme, hgoes token _ _ rfl]
      exact ih deeper token.stop

end Reader

/-- A statement that is cut out of a text is cut out of one behind another just so. -/
theorem verbatim_moved (front text : List Char) :
    (moved (byteLength front)).Verbatim text (front ++ text) := by
  rintro first _ position _ rfl rfl
  have hends := Reader.splitStatement_moved (byteLength front) 0 position first.tokens
  show Simulation.EndsAlike _ _ _ _ _ _ _ _ (Reader.splitStatement 0 (position + byteLength front)
    (first.tokens.map (Token.shift (byteLength front))))
  rw [hends]
  cases Reader.splitStatement 0 position first.tokens with
  | done behind rest => exact .done (Text.slice_append front text position behind).symm rfl
  | stray rest => exact .stray rfl
  | unclosed => exact .unclosed rfl

/-- Under `moved`, remarks that stand for each other are those some bytes further on. -/
theorem eq_of_forall₂_moved {bytes : Nat} {lost lost' : List LostRest}
    (h : List.Forall₂ (moved bytes).SameLost lost lost') :
    lost' = lost.map (LostRest.shift bytes) := by
  induction h with
  | nil => rfl
  | @cons one other _ _ hsame _ ih =>
    obtain ⟨name, type, position⟩ := other
    obtain ⟨hname, htype, hposition⟩ := hsame
    cases hname
    cases htype
    cases (hposition : position = one.position + bytes)
    rw [ih]
    rfl

/-- A file is read just so behind another text. -/
theorem Reader.declarations_moved_eq (front text : List Char) (stream : Stream) :
    declarations Option.isNone (declaration (front ++ text)) (stream.moved (byteLength front))
      = match declarations Option.isNone (declaration text) stream with
        | .ok reading => .ok ⟨reading.value,
            reading.lost.map (LostRest.shift (byteLength front)),
            reading.rest.moved (byteLength front)⟩
        | .error error => .error (error.shift (byteLength front)) := by
  have houtcome := Simulation.alike_declarationsOfText (verbatim_moved front text)
    (show (moved (byteLength front)).streams stream _ from rfl) (Nat.lt_succ_self _)
    (Nat.lt_succ_of_le (Nat.le_of_eq (stream.size_moved _)))
  generalize declarations Option.isNone (declaration text) stream = answer at houtcome ⊢
  generalize declarations Option.isNone (declaration (front ++ text))
    (stream.moved (byteLength front)) = answer' at houtcome ⊢
  cases houtcome with
  | @ok value lost lost' rest rest' hlost hrest =>
    cases (hrest : rest' = rest.moved (byteLength front))
    rw [eq_of_forall₂_moved hlost]
  | @error error error' herror =>
    cases (herror : error' = error.shift (byteLength front))
    rfl

/-- A file that is read is read just so behind another text. -/
theorem Reader.declarations_moved {text : List Char} {stream : Stream}
    {reading : Reading (List Declaration)} (front : List Char)
    (h : declarations Option.isNone (declaration text) stream = .ok reading) :
    ∃ after, declarations Option.isNone (declaration (front ++ text))
      (stream.moved (byteLength front)) = .ok after ∧ after.value = reading.value := by
  rw [declarations_moved_eq, h]
  exact ⟨_, rfl, rfl⟩

end Facade
