import Facade.Proofs.Checked.Runs
import Facade.Proofs.Declaration.Singly

/-!
# Statements are walked over within the text

A statement that is kept as it is written is walked over token by token, and open brackets are
counted. The checked parser goes round in a loop that a counter ends; the reader has one function
for the whole walk. They are tied by `walkRound`, which is one round of the loop as a reader: the
walk is a round and then the walk again (`walk_eq`), the parser's round does what the round does
(`agrees_walkOne`), and a round that does not end the walk takes a token (`size_lt_of_walkRound`),
so the loop ends before its counter does.

Where a closing bracket is counted down, `walkRound` has left the walk if none was open. What is
cut out of the text lies between where the declaration starts and where a token of the statement
ends, and both are boundaries (`Places.done`).
-/

set_option autoImplicit false

namespace Facade.Checked

open Facade.Text Machine

variable {text : List Char} {state : State} {stream : Stream} {n : Nat}

/-! ### The walk -/

/-- Where the next token ends, or the text. -/
def nextStop (stream : Stream) : Nat :=
  (stream.tokens.head?.map Token.stop).getD stream.stop

/-- The walk over a statement, as a reader of where it ends. -/
def walk (depth stop : Nat) : Reader Nat := fun stream =>
  match Reader.splitStatement depth stop stream.tokens with
  | .done stop rest => .ok ⟨stop, [], { stream with tokens := rest }⟩
  | .stray rest => Reader.fail .declaration { stream with tokens := rest }
  | .unclosed => Reader.fail .closingBracket { stream with tokens := [] }

/-- One round of the walk. -/
def walkRound (depth stop : Nat) : Reader ((Nat × Nat) ⊕ Nat) := do
  match ← Reader.look Stream.next? with
  | none => if 0 < depth then Reader.fail .closingBracket else return .inr stop
  | some lexeme =>
    if lexeme = .mark .braceClose ∧ depth = 0 then
      return .inr stop
    else if (lexeme = .mark .parenClose ∨ lexeme = .mark .bracketClose) ∧ depth = 0 then
      Reader.fail .declaration
    else
      let stop ← Reader.look nextStop
      Reader.skip
      if lexeme ∈ openingBrackets then
        return .inl (depth + 1, stop)
      else if lexeme ∈ closingBrackets then
        if lexeme = .mark .braceClose ∧ depth - 1 = 0 then
          if (← Reader.look Stream.next?) = some (.mark .semicolon) then
            let stop ← Reader.look nextStop
            Reader.skip
            return .inr stop
          else
            return .inr stop
        else
          return .inl (depth - 1, stop)
      else if lexeme = .mark .semicolon ∧ depth = 0 then
        return .inr stop
      else
        return .inl (depth, stop)

/-- To go on after a round that does not end the walk. -/
def goesOn : (Nat × Nat) ⊕ Nat → Reader Nat
  | .inl (depth, stop) => walk depth stop
  | .inr stop => pure stop

/-- A walk that goes on is one round and the walk behind it. -/
theorem walk_of_inl {token : Token} {rest : List Token} {depth deeper stop fin : Nat}
    (hround : walkRound depth stop ⟨token :: rest, fin⟩
      = .ok ⟨.inl (deeper, token.stop), [], ⟨rest, fin⟩⟩)
    (hsplit : Reader.splitStatement depth stop (token :: rest)
      = Reader.splitStatement deeper token.stop rest) : walk depth stop ⟨token :: rest, fin⟩
      = (walkRound depth stop >>= goesOn) ⟨token :: rest, fin⟩ := by
  rw [Reader.bind_of_ok hround, goesOn, walk, walk, hsplit]

/-- Behind the brace that closes the last bracket, the walk ends. -/
theorem walk_closes (start behind stop fin : Nat) (rest : List Token) :
    walk 1 stop ⟨⟨.mark .braceClose, start, behind⟩ :: rest, fin⟩
      = (walkRound 1 stop >>= goesOn) ⟨⟨.mark .braceClose, start, behind⟩ :: rest, fin⟩ := by
  match rest with
  | [] => rfl
  | ⟨lexeme, start, behind⟩ :: more =>
    cases lexeme with
    | mark m => cases m <;> rfl
    | _ => rfl

/-- Every walk is one round, and then what comes of it. -/
theorem walk_eq (depth stop : Nat) (stream : Stream) :
    walk depth stop stream = (walkRound depth stop >>= goesOn) stream := by
  obtain ⟨tokens, fin⟩ := stream
  match tokens with
  | [] => cases depth <;> rfl
  | ⟨lexeme, start, behind⟩ :: rest =>
    obtain _ | _ | depth := depth
    all_goals
      cases lexeme with
      | mark m =>
        cases m <;> first
          | rfl
          | exact walk_of_inl rfl rfl
          | exact walk_closes start behind stop fin rest
      | _ => exact walk_of_inl rfl rfl

/-- A closing brace with one bracket open ends the walk, whatever comes next. -/
theorem walkRound_closes (start behind stop fin : Nat) (rest : List Token) : ∃ answer after,
    walkRound 1 stop ⟨⟨.mark .braceClose, start, behind⟩ :: rest, fin⟩
      = .ok ⟨.inr answer, [], after⟩ := by
  match rest with
  | [] => exact ⟨_, _, rfl⟩
  | ⟨lexeme, start, behind⟩ :: more =>
    cases lexeme with
    | mark m => cases m <;> exact ⟨_, _, rfl⟩
    | _ => exact ⟨_, _, rfl⟩

/-- A round that does not end the walk takes a token. -/
theorem size_lt_of_walkRound {depth stop : Nat} {next : Nat × Nat} {lost : List LostRest}
    {rest : Stream} (h : walkRound depth stop stream = .ok ⟨.inl next, lost, rest⟩) :
    rest.size < stream.size := by
  obtain ⟨tokens, fin⟩ := stream
  match tokens with
  | [] => cases depth <;> cases h
  | ⟨lexeme, start, behind⟩ :: tokens =>
    obtain ⟨_, _, hcloses⟩ := walkRound_closes start behind stop fin tokens
    obtain _ | _ | depth := depth
    all_goals
      cases lexeme with
      | mark m =>
        cases m <;> first
          | (cases h <;> exact Nat.lt_succ_self _)
          | cases hcloses.symm.trans h
      | _ =>
        cases h
        exact Nat.lt_succ_self _

/-- To take the next token, and to go on with where it ends. -/
theorem agrees_take {β : Type} {bound : Nat} {lexeme : Lexeme} (h : Stands text state stream)
    (hnext : stream.next? = some lexeme) {next : Cell → Machine β} {next' : Nat → Unit → Reader β}
    (hbehind : ∀ {cell state'}, Stands text state' stream.tail →
      Agrees text state' bound (next cell text state') (next' cell.stop () stream.tail)) :
    Agrees text state bound ((advance >>= next) text state)
      ((Reader.look nextStop >>= fun stop => Reader.skip >>= next' stop) stream) := by
  obtain ⟨token, tokens, htokens, -⟩ := exists_tokens hnext
  obtain ⟨state', hadvance, hstands, hlost⟩ := advance_eq h htokens
  have hstop : Reader.look nextStop stream = .ok ⟨token.stop, [], stream⟩ := by
    rw [Reader.look, nextStop, htokens]
    rfl
  rw [Reader.bind_of_ok hstop]
  exact agrees_of_ok hadvance hlost rfl (hbehind hstands)

/-- No counter falls below zero: where a bracket is closed, one is open. -/
theorem agrees_walkOne {depth stop : Nat} (h : Stands text state stream) :
    Agrees text state (stream.size + 1) (walkOne (depth, stop) text state)
      (walkRound depth stop stream) := by
  refine agrees_peek h ?_
  cases hnext : stream.next? with
  | none =>
    dsimp only
    split
    · exact agrees_fail _ h
    · exact agrees_ok h rfl (Nat.lt_succ_self _)
  | some lexeme =>
    have hless := Stream.size_tail_lt hnext
    dsimp only
    split
    · exact agrees_ok h rfl (Nat.lt_succ_self _)
    rename_i hleaves
    split
    · exact agrees_fail _ h
    rename_i hfails
    refine agrees_take h hnext fun {cell state'} hbehind => ?_
    split
    · exact agrees_ok hbehind rfl (Nat.lt_succ_of_lt hless)
    split
    · rename_i hcloses
      -- At depth zero a closing bracket has ended the statement or failed above.
      have hpos : 0 < depth := by
        refine Nat.pos_of_ne_zero fun hzero => ?_
        simp only [closingBrackets, List.mem_cons, List.not_mem_nil, or_false] at hcloses
        rcases hcloses with hparen | hbracket | hbrace
        · exact hfails ⟨.inl hparen, hzero⟩
        · exact hfails ⟨.inr hbracket, hzero⟩
        · exact hleaves ⟨hbrace, hzero⟩
      have hsub : sub? depth 1 = some (depth - 1) := if_pos hpos
      rw [check_bind hsub]
      split
      · refine agrees_peek hbehind ?_
        split
        · rename_i hsemicolon
          have hless' := Stream.size_tail_lt hsemicolon
          refine agrees_take hbehind hsemicolon fun hbehind' => agrees_ok hbehind' rfl ?_
          omega
        · exact agrees_ok hbehind rfl (Nat.lt_succ_of_lt hless)
      · exact agrees_ok hbehind rfl (Nat.lt_succ_of_lt hless)
    split
    · exact agrees_ok hbehind rfl (Nat.lt_succ_of_lt hless)
    · exact agrees_ok hbehind rfl (Nat.lt_succ_of_lt hless)

/-- The walk over a statement ends. -/
theorem agrees_loop {rounds depth stop : Nat} (h : Stands text state stream)
    (hrounds : stream.size < rounds) : Agrees text state (stream.size + 1)
      (loop stuck walkOne rounds (depth, stop) text state) (walk depth stop stream) := by
  induction rounds generalizing depth stop state stream with
  | zero => exact absurd hrounds (Nat.not_lt_zero _)
  | succ rounds ih =>
    rw [loop, walk_eq]
    refine agrees_bind (agrees_walkOne h) fun next {_ _ _} hround hrest hle => ?_
    cases next with
    | inl next =>
      have hless := size_lt_of_walkRound hround
      exact (ih hrest (by omega)).mono hle
    | inr stop => exact agrees_ok hrest rfl hle

/-- A brace that closes the last bracket ends a statement, with the semicolon behind it. -/
theorem Places.done_brace {start last stop behind : Nat} {tokens rest : List Token}
    (h : Places text stop (⟨.mark .braceClose, start, last⟩ :: tokens))
    (hdone : Reader.splitStatement 1 stop (⟨.mark .braceClose, start, last⟩ :: tokens)
      = .done behind rest) : stop ≤ behind ∧ IsBoundary text behind := by
  obtain ⟨hle, hboundary, hrest⟩ := h.cons_stop
  match tokens with
  | [] =>
    cases hdone
    exact ⟨hle, hboundary⟩
  | ⟨lexeme, start, last⟩ :: more =>
    obtain ⟨hle', hboundary', -⟩ := hrest.cons_stop
    cases lexeme with
    | mark m =>
      cases m <;> cases hdone <;> first
        | exact ⟨hle, hboundary⟩
        | exact ⟨Nat.le_trans hle hle', hboundary'⟩
    | _ =>
      cases hdone
      exact ⟨hle, hboundary⟩

/-- A statement ends behind where it starts, between two characters. -/
theorem Places.done {depth stop behind : Nat} {tokens rest : List Token}
    (h : Places text stop tokens) (hstop : IsBoundary text stop)
    (hdone : Reader.splitStatement depth stop tokens = .done behind rest) :
    stop ≤ behind ∧ IsBoundary text behind := by
  induction tokens generalizing depth stop with
  | nil =>
    cases depth with
    | zero =>
      cases hdone
      exact ⟨Nat.le_refl _, hstop⟩
    | succ depth => cases hdone
  | cons token tokens ih =>
    obtain ⟨hle, hboundary, hrest⟩ := h.cons_stop
    cases Reader.walkStep depth token.lexeme with
    | leaves hdepth hbrace =>
      cases hdepth
      rw [Reader.splitStatement_leaves hbrace] at hdone
      cases hdone
      exact ⟨Nat.le_refl _, hstop⟩
    | fails hdepth hstray =>
      rw [hstray _ _ _ rfl] at hdone
      cases hdone
    | ends hdepth hsemicolon =>
      cases hdepth
      rw [Reader.splitStatement_ends hsemicolon] at hdone
      cases hdone
      exact ⟨hle, hboundary⟩
    | closes hdepth hbrace =>
      obtain ⟨lexeme, start, last⟩ := token
      cases hdepth
      cases (hbrace : lexeme = .mark .braceClose)
      exact h.done_brace hdone
    -- The walk goes on behind the token, so what holds there holds from here.
    | goes deeper hgoes =>
      rw [hgoes _ _ _ rfl] at hdone
      obtain ⟨hle', hboundary'⟩ := ih hrest hboundary hdone
      exact ⟨Nat.le_trans hle hle', hboundary'⟩

/-- A statement that is kept is the text up to where the walk from its start ends. -/
theorem statement_eq (start : Nat) (stream : Stream) : Reader.statement text start stream
    = (walk 0 start >>= fun stop =>
        pure (.unsupported (String.ofList (Text.slice text start stop)))) stream := by
  rw [Reader.statement, Reader.bind_eq, walk]
  cases Reader.splitStatement 0 start stream.tokens <;> rfl

/-- Where the walk ends is where the function of the reader splits the statement. -/
theorem splitStatement_of_walk {depth start stop : Nat} {lost : List LostRest} {rest : Stream}
    (h : walk depth start stream = .ok ⟨stop, lost, rest⟩) :
    Reader.splitStatement depth start stream.tokens = .done stop rest.tokens := by
  rw [walk] at h
  cases hsplit : Reader.splitStatement depth start stream.tokens with
  | done behind tokens =>
    rw [hsplit] at h
    cases h
    rfl
  | stray tokens =>
    rw [hsplit] at h
    cases h
  | unclosed =>
    rw [hsplit] at h
    cases h

/-- A statement is cut out of the text where it starts and ends. -/
theorem agrees_statement {start : Nat} (h : Stands text state stream)
    (hplaces : Places text start stream.tokens) (hstart : IsBoundary text start)
    (hstarts : Reader.startsStatement stream.tokens = true) :
    Agrees text state stream.size (statement start text state)
      (Reader.statement text start stream) := by
  have hrounds : stream.size < state.cells.length + 1 := by
    rw [h.length_cells]
    omega
  rw [statement_eq, statement, getState_bind]
  refine agrees_bind (agrees_loop h hrounds) fun stop {_ _ _} hwalk hrest hle => ?_
  have hdone := splitStatement_of_walk hwalk
  have hless := Simulation.length_lt_of_startsStatement hstarts hdone
  obtain ⟨hordered, hstop⟩ := hplaces.done hstart hdone
  have hslice : slice? text start stop = some (Text.slice text start stop) :=
    if_pos ⟨hordered, hstart, hstop⟩
  rw [cut_bind hslice]
  exact agrees_ok hrest rfl hless

/-- Both sides tell alike whether a statement starts here. -/
theorem startsStatement_eq (h : Stands text state stream) : startsStatement text state
    = some (.ok (Reader.startsStatement stream.tokens, state)) := by
  rw [startsStatement, bind_of_ok (peek_eq h), bind_of_ok (peekSecond_eq h)]
  rfl

/-- Modifiers are taken one by one, if no statement starts here. -/
theorem take_splitModifierWords_eq (h : Reader.startsStatement stream.tokens = false) :
    Reader.take Reader.splitModifierWords stream
      = (Reader.accept (.word .exportWord) >>= fun found =>
          if found = true then Reader.take Reader.splitModifierWords
          else Reader.accept (.word .declareWord) >>= fun found =>
            if found = true then Reader.take Reader.splitModifierWords else pure false) stream := by
  have hhit {lexeme : Lexeme} (hnext : stream.next? = some lexeme)
      (hplain : Simulation.isPlainModifier lexeme) : Reader.take Reader.splitModifierWords stream
        = Reader.take Reader.splitModifierWords stream.tail := by
    rw [Reader.take, Reader.take, Simulation.splitModifierWords_hit hnext hplain h]
    rfl
  rw [Reader.accept_bind, if_pos rfl, if_neg Bool.false_ne_true]
  by_cases hexport : stream.next? = some (.word .exportWord)
  · rw [if_pos hexport, hhit hexport (.inl rfl)]
  rw [if_neg hexport, Reader.accept_bind, if_pos rfl, if_neg Bool.false_ne_true]
  by_cases hdeclare : stream.next? = some (.word .declareWord)
  · rw [if_pos hdeclare, hhit hdeclare (.inr rfl)]
  · have hmiss : ∀ lexeme, stream.next? = some lexeme → ¬ Simulation.isPlainModifier lexeme := by
      rintro lexeme hnext (rfl | rfl)
      · exact hexport hnext
      · exact hdeclare hnext
    rw [if_neg hdeclare, Reader.take, Simulation.splitModifierWords_miss hmiss h]
    rfl

/-- Modifiers are taken like the reader takes them. -/
theorem runs_modifierWords :
    Runs text 1 n modifierWords (Reader.take Reader.splitModifierWords) := by
  refine runs_recursive fun {m more} hlt hmore state stream h hsize => ?_
  rw [bind_of_ok (startsStatement_eq h)]
  cases hstarts : Reader.startsStatement stream.tokens with
  | true =>
    rw [if_pos rfl, Reader.take, Simulation.splitModifierWords_found hstarts]
    exact agrees_ok h rfl (Nat.lt_succ_self _)
  | false =>
    rw [if_neg Bool.false_ne_true, take_splitModifierWords_eq hstarts]
    refine runs_accept hmore ?_ (Nat.le_refl _) h hsize
    exact runs_accept hmore (runs_pure _) (Nat.le_refl _)

end Facade.Checked
