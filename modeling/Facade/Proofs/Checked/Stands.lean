import Facade.Proofs.Checked.Parser
import Facade.Proofs.Checked.Tokenized
import Facade.Proofs.Text.Place

/-!
# Where the checked parser stands

The parser stands at an index in a list of cells, and a reader at the start of a stream. They stand
at the same place (`Stands`) if the cells from the index on are the tokens of the stream, and the
tokens stand in the text one after the other (`Places`). Of a token that is a mark it has to be
known that the mark is what is written there (`Located`), since the parser takes marks apart.

From there, no lookup leaves the cells (`ahead_eq`), and every position is one of a boundary, of
which the line and the column can be told (`place?_eq`).
-/

set_option autoImplicit false

namespace Facade.Checked

open Facade.Text

variable {text : List Char}

/-! ### Places in a text -/

/-- A text without a line feed has no last one. -/
theorem lastLineFeed?_of_not_mem {line : List Char} (h : '\n' ∉ line) :
    lastLineFeed? line = none := by
  induction line with
  | nil => rfl
  | cons c rest ih =>
    rw [lastLineFeed?, ih fun hin => h (List.mem_cons_of_mem c hin), if_neg]
    rintro rfl
    exact h List.mem_cons_self

/-- The last line feed is the one behind which there is none. -/
theorem lastLineFeed?_append (front : List Char) {line : List Char} (h : '\n' ∉ line) :
    lastLineFeed? (front ++ '\n' :: line) = some (byteLength front) := by
  induction front with
  | nil =>
    rw [List.nil_append, lastLineFeed?, lastLineFeed?_of_not_mem h, if_pos rfl]
    rfl
  | cons c front ih =>
    rw [List.cons_append, lastLineFeed?, ih]
    rfl

/-- Up to a boundary, the place can be found. -/
theorem place?_eq {offset : Nat} (h : IsBoundary text offset) :
    place? text offset = some (Place.ofByte text offset) := by
  obtain ⟨front, rest, rfl, rfl⟩ := h
  have hslice : slice? (front ++ rest) 0 (byteLength front) = some front := by
    have hslice := (At.start (front ++ rest)).slice?_eq
    rwa [Nat.zero_add] at hslice
  have hplace : Place.ofByte (front ++ rest) (byteLength front) = Place.first.afterAll front := by
    rw [Place.ofByte, upToByte_byteLength]
  rw [place?, hslice, hplace]
  dsimp only [Option.bind_eq_bind, Option.bind_some]
  -- The column counts the characters behind the last line feed, or all of them on the first line.
  rcases exists_last_line front with hline | ⟨lines, line, rfl, hline⟩
  · have hwhole := (At.start front).rest?_eq
    rw [rest?] at hwhole
    rw [lastLineFeed?_of_not_mem hline, Place.afterAll_of_not_mem hline, Option.elim_none, hwhole,
      List.count_eq_zero.mpr hline, Nat.add_comm Place.first.column]
    rfl
  · have hfeed : At (lines ++ '\n' :: line) (byteLength lines + 1) line :=
      At.tail ⟨lines, rfl, rfl⟩
    have hbehind := hfeed.rest?_eq
    have hplace : Place.first.afterAll (lines ++ '\n' :: line)
        = (⟨(Place.first.afterAll lines).line + 1, 1⟩ : Place).afterAll line :=
      Place.afterAll_append _ lines ('\n' :: line)
    rw [rest?] at hbehind
    rw [lastLineFeed?_append lines hline, Option.elim_some, hbehind, hplace,
      Place.afterAll_of_not_mem hline, Place.line_afterAll, List.count_append, List.count_cons_self,
      List.count_eq_zero.mpr hline, Nat.add_comm Place.first.line]
    dsimp only [Option.bind_some]
    rw [Nat.add_comm line.length]
    rfl

/-- An error at a boundary can be reported. -/
theorem report_eq {α : Type} {error : SyntaxError} (h : IsBoundary text error.position) :
    report (α := α) text error = some (.error ⟨error, Place.ofByte text error.position⟩) := by
  rw [report, Nat.min_eq_left h.le]
  dsimp only [Option.bind_eq_bind]
  rw [place?_eq h]
  rfl

/-! ### Tokens in a text -/

/-- A token, as it stands in a text. -/
structure Located (text : List Char) (token : Token) (body rest : List Char) : Prop where
  start : At text token.start (body ++ rest)
  stop : token.stop = token.start + byteLength body
  mark : ∀ mark, token.lexeme = .mark mark → body = mark.chars

/-- Tokens that stand in a text one after the other, none of them in front of an offset. -/
inductive Places (text : List Char) : Nat → List Token → Prop where
  | nil {pos : Nat} : pos ≤ byteLength text → Places text pos []
  | cons {pos : Nat} {token : Token} {body rest : List Char} {tokens : List Token} :
      pos ≤ token.start → Located text token body rest → Places text token.stop tokens →
      Places text pos (token :: tokens)

/-- Tokens that stand behind an offset stand behind every earlier one. -/
theorem Places.anti {pos pos' : Nat} {tokens : List Token} (h : Places text pos tokens)
    (hle : pos' ≤ pos) : Places text pos' tokens := by
  cases h with
  | nil hend => exact .nil (Nat.le_trans hle hend)
  | cons hstart htoken hrest => exact .cons (Nat.le_trans hle hstart) htoken hrest

/-- The first of the tokens ends behind the offset, between two characters, and the others stand
behind it. -/
theorem Places.cons_stop {pos : Nat} {token : Token} {tokens : List Token}
    (h : Places text pos (token :: tokens)) :
    pos ≤ token.stop ∧ IsBoundary text token.stop ∧ Places text token.stop tokens := by
  cases h with
  | @cons _ _ body more _ hle htoken hrest =>
    obtain ⟨hstart, hstop, -⟩ := htoken
    have hboundary := hstart.skip.boundary
    rw [← hstop] at hboundary
    exact ⟨by omega, hboundary, hrest⟩

/-- The last of the tokens stand behind the same offset, since none of them is moved. -/
theorem Places.suffix {pos : Nat} {tokens rest : List Token} (h : Places text pos tokens)
    (hsuffix : rest <:+ tokens) : Places text pos rest := by
  obtain ⟨front, rfl⟩ := hsuffix
  induction front with
  | nil => exact h
  | cons token front ih =>
    obtain ⟨hle, -, hrest⟩ := h.cons_stop
    exact ih (hrest.anti hle)

/-- The tokens of a text stand in it one after the other. -/
theorem places_of_tokens {cursor : Cursor} {tokens : List Token}
    (h : cursor.tokens = .ok tokens) (hat : At text cursor.offset cursor.rest) :
    Places text cursor.offset tokens := by
  fun_induction Cursor.tokens cursor generalizing tokens with
  | case1 cursor token after hstep rest hrest ih =>
    cases h
    obtain ⟨cursor, offset⟩ := cursor
    obtain ⟨more, stop⟩ := after
    obtain ⟨blank, c, taken, rfl, -, -, hhere⟩ := Cursor.stepHere_of_step hstep
    obtain ⟨again, htaken, hstop, htoken, -⟩ := Cursor.begins_of_stepHere hhere
    -- Both descriptions of the step leave the same text behind, so they took the same characters.
    cases List.append_cancel_right htaken
    have hstart : At text token.start (c :: taken ++ more) := by
      rw [htoken]
      exact hat.skip
    have htoken' : token.stop = token.start + byteLength (c :: taken) := by
      rw [htoken]
      exact hstop
    refine .cons ?_ ⟨hstart, htoken', fun mark hmark => ?_⟩ ?_
    · rw [htoken]
      exact Nat.le_add_right _ _
    · exact (List.append_cancel_right (Cursor.chars_of_stepHere hhere hmark)).symm
    · have hbehind : token.stop = stop := by rw [htoken]
      have hmore : At text stop more := by
        rw [← hbehind, htoken']
        exact hstart.skip
      rw [hbehind]
      exact ih hrest hmore
  | case2 => cases h
  | case3 cursor after hstep =>
    cases h
    exact .nil hat.boundary.le
  | case4 => cases h

/-! ### Where a parser stands -/

/-- A parser stands in a stream: from its index on, its cells are the tokens of the stream, and they
stand in the text. -/
structure Stands (text : List Char) (state : State) (stream : Stream) : Prop where
  cells : state.cells.drop state.pos = cellsOf stream.tokens stream.stop
  stop : stream.stop = byteLength text
  places : Places text 0 stream.tokens

variable {state state' : State} {stream rest : Stream}

/-- There is one cell more than there are tokens, the one for the end of the text. -/
theorem length_cellsOf (tokens : List Token) (stop : Nat) :
    (cellsOf tokens stop).length = tokens.length + 1 := by
  simp [cellsOf]

/-- Where the cells of tokens start there is a cell: the first of them. -/
theorem lt_length_of_drop {cells : List Cell} {index stop : Nat} {tokens : List Token}
    (h : cells.drop index = cellsOf tokens stop) : index < cells.length := by
  have hlength := congrArg List.length h
  rw [List.length_drop, length_cellsOf] at hlength
  omega

/-- The cell at an index is the first of those from the index on. -/
theorem getElem?_of_drop {cells : List Cell} {index stop : Nat} {tokens : List Token}
    (h : cells.drop index = cellsOf tokens stop) : cells[index]? = (cellsOf tokens stop)[0]? := by
  rw [← h, List.getElem?_drop, Nat.add_zero]

/-- The kind of the cell at an index is that of the first token from there on. -/
theorem kind_of_drop {cells : List Cell} {index stop : Nat} {tokens : List Token}
    (h : cells.drop index = cellsOf tokens stop) :
    cells[index]?.bind Cell.kind = tokens.head?.map Token.lexeme := by
  rw [getElem?_of_drop h]
  cases tokens <;> rfl

/-- Behind the index of the parser there are as many cells as the stream has tokens, and one
more. -/
theorem Stands.length_cells (h : Stands text state stream) :
    state.cells.length = state.pos + stream.size + 1 := by
  have hlength := congrArg List.length h.cells
  rw [List.length_drop, length_cellsOf] at hlength
  show _ = state.pos + stream.tokens.length + 1
  omega

/-- The cell of a token, or of the end of the text. -/
def cellAt (stream : Stream) (n : Nat) : Cell :=
  (stream.tokens[n]?).elim (.atEnd stream.stop) .ofToken

/-- A number of cells ahead of the parser stands the token as far ahead in the stream. -/
theorem Stands.cells_getElem? (h : Stands text state stream) (n : Nat) :
    state.cells[state.pos + n]? = (cellsOf stream.tokens stream.stop)[n]? := by
  rw [← h.cells, List.getElem?_drop]

/-- The stream stands between two characters, and its tokens are behind that place. -/
theorem Stands.position (h : Stands text state stream) : Places text stream.position stream.tokens
    ∧ IsBoundary text stream.position := by
  obtain ⟨tokens, stop⟩ := stream
  obtain ⟨-, hstop, hplaces⟩ := h
  cases hplaces with
  | nil =>
    cases (hstop : stop = byteLength text)
    exact ⟨.nil (Nat.le_refl _), isBoundary_end text⟩
  | cons _ htoken hrest => exact ⟨.cons (Nat.le_refl _) htoken hrest, htoken.start.boundary⟩

/-! ### Steps -/

namespace Machine

/-- Two machines in a row: the second starts in the state the first leaves, if the first
succeeds. -/
theorem bind_eq {α β : Type} (machine : Machine α) (next : α → Machine β) (text : List Char)
    (state : State) : (machine >>= next) text state = match machine text state with
      | none => none
      | some (.error failure) => some (.error failure)
      | some (.ok (value, state)) => next value text state :=
  rfl

/-- Behind a machine that succeeds, the next one runs on its value and its state. -/
theorem bind_of_ok {α β : Type} {machine : Machine α} {value : α}
    (h : machine text state = some (.ok (value, state'))) (next : α → Machine β) :
    (machine >>= next) text state = next value text state' := by
  rw [bind_eq, h]

/-- How machines in a row are grouped does not matter. -/
theorem bind_assoc {α β γ : Type} (machine : Machine α) (next : α → Machine β)
    (last : β → Machine γ) :
    machine >>= next >>= last = machine >>= fun value => next value >>= last := by
  funext text state
  simp only [bind_eq]
  cases machine text state with
  | none => rfl
  | some answer => cases answer <;> rfl

/-- To read the state is to run the next machine on it. -/
theorem getState_bind {β : Type} (next : State → Machine β) (text : List Char) (state : State) :
    (getState >>= next) text state = next state text state :=
  rfl

/-- A slice that is in bounds gives its characters to the next machine. -/
theorem cut_bind {β : Type} {start stop : Nat} {kept : List Char}
    (h : slice? text start stop = some kept) (next : List Char → Machine β) (state : State) :
    (cut start stop >>= next) text state = next kept text state := by
  rw [bind_eq, cut, h]
  rfl

/-- An answer that is there is given to the next machine. -/
theorem check_bind {α β : Type} {answer : Option α} {value : α} (h : answer = some value)
    (next : α → Machine β) (text : List Char) (state : State) :
    (check answer >>= next) text state = next value text state := by
  rw [h]
  rfl

end Machine

open Machine

/-- The last index is that of the cell for the end of the text. -/
theorem lastIndex_eq (h : Stands text state stream) :
    lastIndex text state = some (.ok (state.pos + stream.size, state)) := by
  have hsub : sub? (state.pos + stream.size + 1) 1 = some (state.pos + stream.size) :=
    if_pos (Nat.le_add_left 1 _)
  rw [lastIndex, getState_bind, h.length_cells, hsub]
  rfl

/-- An index that is held at the last one finds a cell: that of the token, or of the end. -/
theorem getElem?_cellsOf (stream : Stream) (n : Nat) :
    (cellsOf stream.tokens stream.stop)[min n stream.size]? = some (cellAt stream n) := by
  have hlength : (stream.tokens.map Cell.ofToken).length = stream.size := List.length_map _
  rw [cellsOf, cellAt]
  by_cases hlt : n < stream.size
  · rw [Nat.min_eq_left (Nat.le_of_lt hlt), List.getElem?_append_left (hlength.symm ▸ hlt),
      List.getElem?_map]
    rw [List.getElem?_eq_getElem hlt]
    rfl
  · have hle := Nat.le_of_not_lt hlt
    rw [Nat.min_eq_right hle, List.getElem?_append_right (Nat.le_of_eq hlength), hlength,
      Nat.sub_self, List.getElem?_eq_none hle]
    rfl

/-- No lookup leaves the cells. -/
theorem ahead_eq (h : Stands text state stream) (n : Nat) :
    ahead n text state = some (.ok (cellAt stream n, state)) := by
  rw [ahead, getState_bind, bind_of_ok (lastIndex_eq h),
    Nat.add_min_add_left, h.cells_getElem?, getElem?_cellsOf]
  rfl

/-- The kind of a cell is the lexeme of its token, and the cell for the end has none. -/
theorem kind_cellAt (stream : Stream) (n : Nat) :
    (cellAt stream n).kind = stream.tokens[n]?.map Token.lexeme := by
  rw [cellAt]
  cases stream.tokens[n]? <;> rfl

/-- The first cell starts where the stream stands. -/
theorem start_cellAt_zero (stream : Stream) : (cellAt stream 0).start = stream.position := by
  obtain ⟨tokens, stop⟩ := stream
  cases tokens <;> rfl

/-- The checked parser sees the lexeme the reader sees. -/
theorem peek_eq (h : Stands text state stream) :
    peek text state = some (.ok (stream.next?, state)) := by
  rw [peek, bind_of_ok (ahead_eq h 0), kind_cellAt, Stream.next?, List.head?_eq_getElem?]
  rfl

/-- So is the lexeme behind it the same. -/
theorem peekSecond_eq (h : Stands text state stream) :
    peekSecond text state = some (.ok (stream.second?, state)) := by
  rw [peekSecond, bind_of_ok (ahead_eq h 1), kind_cellAt, Stream.second?, List.head?_eq_getElem?,
    List.getElem?_tail]
  rfl

/-- The checked parser stands at the position of the reader. -/
theorem position_eq (h : Stands text state stream) :
    position text state = some (.ok (stream.position, state)) := by
  rw [position, bind_of_ok (ahead_eq h 0), start_cellAt_zero]
  rfl

/-- A token that is taken leaves the parser behind it. -/
theorem advance_eq (h : Stands text state stream) {token : Token} {tokens : List Token}
    (htokens : stream.tokens = token :: tokens) : ∃ state',
      advance text state = some (.ok (.ofToken token, state'))
        ∧ Stands text state' stream.tail ∧ state'.lost = state.lost := by
  have hlt : state.pos < state.pos + stream.size := by
    rw [Stream.size, htokens, List.length_cons]
    omega
  have hcell : cellAt stream 0 = .ofToken token := by
    rw [cellAt, htokens]
    rfl
  refine ⟨{ state with pos := state.pos + 1 }, ?_, ⟨?_, h.stop, ?_⟩, rfl⟩
  · rw [advance, bind_of_ok (ahead_eq h 0), bind_of_ok (lastIndex_eq h),
      getState_bind, if_pos hlt, hcell]
    rfl
  · rw [← List.drop_drop, h.cells, Stream.tail, htokens]
    rfl
  · have hplaces := h.places
    rw [htokens] at hplaces
    rw [Stream.tail, htokens]
    cases hplaces with
    | cons _ _ hrest => exact hrest.anti (Nat.zero_le _)

end Facade.Checked
