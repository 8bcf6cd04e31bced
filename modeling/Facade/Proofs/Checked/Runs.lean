import Facade.Proofs.Checked.Stands

/-!
# The checked parser runs like a reader

`Agrees` compares an answer of a checked parser with the answer of a reader: it is never `none`, it
has the value of the reader or its error, and the parser is left standing where the reader is.
`Runs` says that of a parser and a reader on all streams up to a size. There is one rule for each
way to build a parser.

Two measures are carried along. The reader leaves fewer tokens than a bound, so a parser that calls
itself after it has taken a token is called on fewer tokens, and not more often than there are
cells (`runs_recursive`). A closing angle bracket may leave all tokens where they are, so no loop
rests on one. And what carries a position, a remark or an error, carries a boundary of the text: a
longer mark that is written over with its rest starts one byte later, behind a bracket
(`shorten_eq`).
-/

set_option autoImplicit false

namespace Facade.Checked

open Facade.Text Machine

variable {text : List Char} {state state' : State} {stream rest : Stream}

/-! ### Outcomes -/

/-- What a parser answers, from a state on, and what a reader does. The reader leaves fewer tokens
than a bound, and whatever carries a position carries a boundary. -/
inductive Agrees {α : Type} (text : List Char) (state : State) (bound : Nat) :
    Option (Except Failure (α × State)) → Except SyntaxError (Reading α) → Prop where
  | ok {value : α} {state' : State} {lost : List LostRest} {rest : Stream} :
      Stands text state' rest → state'.lost = state.lost ++ lost →
      (∀ remark ∈ lost, IsBoundary text remark.position) → rest.size < bound →
      Agrees text state bound (some (.ok (value, state'))) (.ok ⟨value, lost, rest⟩)
  | error {error : SyntaxError} : IsBoundary text error.position →
      Agrees text state bound
        (some (.error ⟨error, Place.ofByte text error.position⟩)) (.error error)

/-- A parser that runs like a reader, on streams of less than a number of tokens. Less than a
number of tokens more than it finds are left: with the number 0 it takes a token, with 1 it may
take none. -/
def Runs {α : Type} (text : List Char) (more n : Nat) (machine : Machine α) (reader : Reader α) :
    Prop :=
  ∀ ⦃state : State⦄ ⦃stream : Stream⦄, Stands text state stream → stream.size < n →
    Agrees text state (stream.size + more) (machine text state) (reader stream)

variable {α β : Type} {bound more n : Nat} {machine : Machine α} {reader : Reader α}

/-- Outcomes that agree within a bound agree within every larger one. -/
theorem Agrees.mono {bound' : Nat} {answer : Option (Except Failure (α × State))}
    {answer' : Except SyntaxError (Reading α)} (hle : bound ≤ bound')
    (h : Agrees text state bound answer answer') : Agrees text state bound' answer answer' := by
  cases h with
  | ok hstands hlost hremarks hlt =>
    exact .ok hstands hlost hremarks (Nat.lt_of_lt_of_le hlt hle)
  | error hboundary => exact .error hboundary

/-- To answer without a remark. -/
theorem agrees_ok {value : α} (h : Stands text state' rest) (hlost : state'.lost = state.lost)
    (hlt : rest.size < bound) :
    Agrees text state bound (some (.ok (value, state'))) (.ok ⟨value, [], rest⟩) :=
  .ok h (by rw [hlost, List.append_nil]) (fun _ hin => absurd hin List.not_mem_nil) hlt

/-- The same failure agrees at the same place. -/
theorem agrees_fail (wanted : Wanted) (h : Stands text state stream) :
    Agrees text state bound ((fail wanted : Machine α) text state)
      ((Reader.fail wanted : Reader α) stream) := by
  rw [fail, bind_of_ok (ahead_eq h 0), kind_cellAt, start_cellAt_zero, ← List.head?_eq_getElem?,
    raise, report_eq h.position.2]
  exact .error h.position.2

/-- If two outcomes agree, and so does what is run behind them, then the two in a row agree. -/
theorem agrees_bind {bound' : Nat} {next : α → Machine β} {next' : α → Reader β}
    (h : Agrees text state bound (machine text state) (reader stream))
    (hnext : ∀ value {lost state' rest}, reader stream = .ok ⟨value, lost, rest⟩ →
      Stands text state' rest → rest.size < bound →
      Agrees text state' bound' (next value text state') (next' value rest)) :
    Agrees text state bound' ((machine >>= next) text state) ((reader >>= next') stream) := by
  rw [bind_eq, Reader.bind_eq]
  generalize machine text state = answer at h
  generalize hreader : reader stream = answer' at h
  cases h with
  | error hboundary => exact .error hboundary
  | @ok value state' lost rest hstands hlost hremarks hlt =>
    have hsecond := hnext value hreader hstands hlt
    dsimp only
    generalize next value text state' = answer at hsecond
    generalize next' value rest = answer' at hsecond
    cases hsecond with
    | error hboundary => exact .error hboundary
    | ok hstands hmore hremarks' hlt =>
      refine .ok hstands ?_ (List.forall_mem_append.mpr ⟨hremarks, hremarks'⟩) hlt
      rw [hmore, hlost, List.append_assoc]

/-- Behind a step that leaves no remark, the answers are those of what goes on. -/
theorem agrees_of_ok {γ : Type} {machine : Machine α} {reader : Reader γ} {value : α} {value' : γ}
    {next : α → Machine β} {next' : γ → Reader β}
    (hmachine : machine text state = some (.ok (value, state'))) (hlost : state'.lost = state.lost)
    (hreader : reader stream = .ok ⟨value', [], rest⟩)
    (h : Agrees text state' bound (next value text state') (next' value' rest)) :
    Agrees text state bound ((machine >>= next) text state) ((reader >>= next') stream) := by
  rw [bind_of_ok hmachine, Reader.bind_of_ok hreader]
  generalize next value text state' = answer at h ⊢
  generalize next' value' rest = answer' at h ⊢
  cases h with
  | error hboundary => exact .error hboundary
  | ok hstands hmore hremarks hlt => exact .ok hstands (hmore.trans (by rw [hlost])) hremarks hlt

/-! ### Rules -/

/-- A value by itself takes nothing and agrees with the same value. -/
theorem runs_pure (value : α) : Runs text 1 n (pure value) (pure value) :=
  fun _ _ h _ => agrees_ok h rfl (Nat.lt_succ_self _)

/-- What holds of streams up to a size holds of the smaller ones. -/
theorem Runs.anti {m : Nat} (h : Runs text more n machine reader) (hle : m ≤ n) :
    Runs text more m machine reader :=
  fun _ _ hstands hlt => h hstands (Nat.lt_of_lt_of_le hlt hle)

/-- A parser that takes a token leaves no more than it finds. -/
theorem Runs.weaken (h : Runs text 0 n machine reader) : Runs text 1 n machine reader :=
  fun _ _ hstands hlt => (h hstands hlt).mono (Nat.le_succ _)

/-- Two parsers in a row run like the two readers in a row. -/
theorem runs_bind {next : α → Machine β} {next' : α → Reader β} (h : Runs text 1 n machine reader)
    (hnext : ∀ value, Runs text 1 n (next value) (next' value)) :
    Runs text 1 n (machine >>= next) (reader >>= next') := by
  intro state stream hstands hlt
  refine agrees_bind (h hstands hlt) fun value _ _ _ _ hrest hle => ?_
  have hle' := Nat.le_of_lt_succ hle
  exact (hnext value hrest (Nat.lt_of_le_of_lt hle' hlt)).mono hle

/-- Behind a reader that takes a token, there is room for one more. -/
theorem takes_bind {next : α → Machine β} {next' : α → Reader β}
    (h : Runs text 0 (n + 1) machine reader)
    (hnext : ∀ value, Runs text 1 n (next value) (next' value)) :
    Runs text 0 (n + 1) (machine >>= next) (reader >>= next') := by
  intro state stream hstands hlt
  refine agrees_bind (h hstands hlt) fun value _ _ _ _ hrest hle => ?_
  exact (hnext value hrest (Nat.lt_of_lt_of_le hle (Nat.le_of_lt_succ hlt))).mono hle

/-- A choice between two parsers runs like the same choice between the readers. -/
theorem runs_ite {condition : Prop} [Decidable condition] {other : Machine α}
    {other' : Reader α} (h : Runs text more n machine reader)
    (hother : Runs text more n other other') :
    Runs text more n (if condition then machine else other)
      (if condition then reader else other') := by
  split
  · exact h
  · exact hother

/-- To note what is left out runs like the note of the reader, if the place is between two
characters. -/
theorem runs_remark {lost : LostRest} (h : IsBoundary text lost.position) :
    Runs text 1 n (remark lost) (Reader.remark lost) := by
  intro state stream hstands _
  refine .ok ⟨hstands.cells, hstands.stop, hstands.places⟩ rfl ?_ (Nat.lt_succ_self _)
  exact List.forall_mem_cons.mpr ⟨h, fun _ hin => absurd hin List.not_mem_nil⟩

/-- To look at the position, which is a boundary. -/
theorem runs_position {next : Nat → Machine β} {next' : Nat → Reader β}
    (h : ∀ position, IsBoundary text position → Runs text more n (next position) (next' position)) :
    Runs text more n (position >>= next) (Reader.look Stream.position >>= next') :=
  fun _ _ hstands hlt =>
    agrees_of_ok (position_eq hstands) rfl rfl (h _ hstands.position.2 hstands hlt)

/-- To look at what comes next, and to go on. -/
theorem agrees_peek {next : Option Lexeme → Machine β} {next' : Option Lexeme → Reader β}
    (hstands : Stands text state stream)
    (h : Agrees text state bound (next stream.next? text state) (next' stream.next? stream)) :
    Agrees text state bound ((peek >>= next) text state)
      ((Reader.look Stream.next? >>= next') stream) :=
  agrees_of_ok (peek_eq hstands) rfl rfl h

/-- A look at the second token shows both sides the same lexeme. -/
theorem agrees_peekSecond {next : Option Lexeme → Machine β} {next' : Option Lexeme → Reader β}
    (hstands : Stands text state stream)
    (h : Agrees text state bound (next stream.second? text state) (next' stream.second? stream)) :
    Agrees text state bound ((peekSecond >>= next) text state)
      ((Reader.look Stream.second? >>= next') stream) :=
  agrees_of_ok (peekSecond_eq hstands) rfl rfl h

/-- A look at the next token shows both sides the same lexeme, so it is enough to compare what is
done with each. -/
theorem runs_peek {next : Option Lexeme → Machine β} {next' : Option Lexeme → Reader β}
    (h : ∀ lexeme, Runs text more n (next lexeme) (next' lexeme)) :
    Runs text more n (peek >>= next) (Reader.look Stream.next? >>= next') :=
  fun _ _ hstands hlt => agrees_peek hstands (h _ hstands hlt)

/-- A stream with a next lexeme has a token of that lexeme in front. -/
theorem exists_tokens {lexeme : Lexeme} (h : stream.next? = some lexeme) :
    ∃ token tokens, stream.tokens = token :: tokens ∧ token.lexeme = lexeme := by
  obtain ⟨tokens, stop⟩ := stream
  cases tokens with
  | nil => cases h
  | cons token tokens => exact ⟨token, tokens, rfl, Option.some.inj h⟩

/-- To take the next token, where there is one. -/
theorem advance_of_next {lexeme : Lexeme} (h : Stands text state stream)
    (hnext : stream.next? = some lexeme) : ∃ cell state',
      advance text state = some (.ok (cell, state'))
        ∧ Stands text state' stream.tail ∧ state'.lost = state.lost := by
  obtain ⟨token, tokens, htokens, -⟩ := exists_tokens hnext
  exact ⟨_, advance_eq h htokens⟩

/-- To take the next token and to go on behind it. -/
theorem agrees_skip {lexeme : Lexeme} (h : Stands text state stream)
    (hnext : stream.next? = some lexeme) {next : Cell → Machine β} {next' : Unit → Reader β}
    (hbehind : ∀ {cell state'}, Stands text state' stream.tail →
      Agrees text state' bound (next cell text state') (next' () stream.tail)) :
    Agrees text state bound ((advance >>= next) text state) ((Reader.skip >>= next') stream) := by
  obtain ⟨cell, state', hadvance, hstands, hlost⟩ := advance_of_next h hnext
  exact agrees_of_ok hadvance hlost rfl (hbehind hstands)

/-- To go on by one token, which is there, leaves less than there was, whatever is run behind it. -/
theorem agrees_advance {lexeme : Lexeme} (h : Stands text state stream)
    (hnext : stream.next? = some lexeme) {next : Cell → Machine β} {next' : Unit → Reader β}
    (hruns : ∀ cell, Runs text 1 n (next cell) (next' ())) (hle : stream.size ≤ n) :
    Agrees text state stream.size ((advance >>= next) text state)
      ((Reader.skip >>= next') stream) := by
  have hlt := Stream.size_tail_lt hnext
  exact agrees_skip h hnext fun hstands =>
    (hruns _ hstands (Nat.lt_of_lt_of_le hlt hle)).mono hlt

/-- A lexeme that comes next is taken. -/
theorem accept_hit {lexeme : Lexeme} (h : Stands text state stream)
    (hnext : stream.next? = some lexeme) : ∃ state',
      accept lexeme text state = some (.ok (true, state'))
        ∧ Stands text state' stream.tail ∧ state'.lost = state.lost := by
  obtain ⟨cell, state', hadvance, hstands, hlost⟩ := advance_of_next h hnext
  refine ⟨state', ?_, hstands, hlost⟩
  rw [accept, bind_of_ok (peek_eq h), if_pos hnext, bind_of_ok hadvance]
  rfl

/-- A lexeme that does not come next leaves the parser where it was. -/
theorem accept_miss {lexeme : Lexeme} (h : Stands text state stream)
    (hnext : stream.next? ≠ some lexeme) :
    accept lexeme text state = some (.ok (false, state)) := by
  rw [accept, bind_of_ok (peek_eq h), if_neg hnext]
  rfl

/-- To take a token if it is a given one, and to go on accordingly. If it was, there is room for one
more token behind it. -/
theorem runs_accept {m : Nat} {lexeme : Lexeme} {next : Bool → Machine β} {next' : Bool → Reader β}
    (htrue : Runs text 1 m (next true) (next' true))
    (hfalse : Runs text 1 n (next false) (next' false)) (hle : n ≤ m + 1) :
    Runs text 1 n (accept lexeme >>= next) (Reader.accept lexeme >>= next') := by
  intro state stream h hlt
  by_cases hnext : stream.next? = some lexeme
  · obtain ⟨state', haccept, hstands, hlost⟩ := accept_hit h hnext
    have hless := Stream.size_tail_lt hnext
    refine agrees_of_ok haccept hlost (by rw [Reader.accept, if_pos hnext]) ?_
    exact (htrue hstands (by omega)).mono (Nat.le_succ_of_le hless)
  · exact agrees_of_ok (accept_miss h hnext) rfl (by rw [Reader.accept, if_neg hnext])
      (hfalse h hlt)

/-- To take a lexeme if it comes next runs like the reader that does. -/
theorem runs_acceptOnly (lexeme : Lexeme) :
    Runs text 1 n (accept lexeme) (Reader.accept lexeme) := by
  intro state stream h _
  rw [Reader.accept]
  by_cases hnext : stream.next? = some lexeme
  · obtain ⟨state', haccept, hstands, hlost⟩ := accept_hit h hnext
    rw [haccept, if_pos hnext]
    exact agrees_ok hstands hlost (Nat.lt_succ_of_lt (Stream.size_tail_lt hnext))
  · rw [accept_miss h hnext, if_neg hnext]
    exact agrees_ok h rfl (Nat.lt_succ_self _)

/-- To take a mark that has to come next runs like the reader that does, and takes a token if it
succeeds. -/
theorem takes_expect (mark : Mark) :
    Runs text 0 n (expect mark) (Reader.expect mark) := by
  intro state stream h _
  rw [Reader.expect_eq]
  by_cases hnext : stream.next? = some (.mark mark)
  · obtain ⟨state', haccept, hstands, hlost⟩ := accept_hit h hnext
    rw [expect, bind_of_ok haccept, if_pos hnext]
    exact agrees_ok hstands hlost (Stream.size_tail_lt hnext)
  · rw [expect, bind_of_ok (accept_miss h hnext), if_neg hnext]
    exact agrees_fail _ h

/-- To take a token that a function has an answer for. -/
theorem takes_expectSome (wanted : Wanted) (f : Lexeme → Option α) :
    Runs text 0 n (expectSome wanted f) (Reader.expectSome wanted f) := by
  intro state stream h _
  rw [Reader.expectSome_eq, expectSome, bind_of_ok (peek_eq h)]
  cases hvalue : stream.next?.bind f with
  | none => exact agrees_fail wanted h
  | some value =>
    obtain ⟨lexeme, hnext, -⟩ := Option.bind_eq_some_iff.mp hvalue
    obtain ⟨cell, state', hadvance, hstands, hlost⟩ := advance_of_next h hnext
    dsimp only
    rw [bind_of_ok hadvance]
    exact agrees_ok hstands hlost (Stream.size_tail_lt hnext)

/-! ### Closing brackets -/

/-- Behind the first bracket of a longer mark, the rest of the mark is written. -/
theorem chars_of_behindAngle? {mark behind : Mark} (h : mark.behindAngle? = some (some behind)) :
    mark.chars = '>' :: behind.chars := by
  cases mark <;> cases h <;> rfl

/-- To write a shorter mark over a longer one leaves a token that stands in the text. -/
theorem shorten_eq (h : Stands text state stream) {token : Token} {tokens : List Token}
    (htokens : stream.tokens = token :: tokens) {mark behind : Mark}
    (hmark : token.lexeme = .mark mark) (hbehind : mark.behindAngle? = some (some behind)) :
    ∃ state', shorten behind text state = some (.ok ((), state'))
      ∧ Stands text state'
          { stream with tokens := ⟨.mark behind, token.start + 1, token.stop⟩ :: tokens }
      ∧ state'.lost = state.lost := by
  have hcell : state.cells[state.pos]? = some (.ofToken token) := by
    have hcell := h.cells_getElem? 0
    rw [htokens] at hcell
    exact hcell
  let shorter : Cell := ⟨some (.mark behind), token.start + 1, token.stop⟩
  refine ⟨{ state with cells := state.cells.set state.pos shorter }, ?_, ⟨?_, h.stop, ?_⟩, rfl⟩
  · rw [shorten, getState_bind, hcell]
    rfl
  · have hset := List.set_drop (l := state.cells) (i := state.pos) (j := 0) (a := shorter)
    rw [Nat.add_zero] at hset
    rw [← hset, h.cells, htokens]
    rfl
  · have hplaces := h.places
    rw [htokens] at hplaces
    cases hplaces with
    | @cons _ _ body rest _ _ htoken hrest =>
      obtain ⟨hstart, hstop, hchars⟩ := htoken
      -- What is left of the mark starts one character further on.
      have hbody : body = '>' :: behind.chars :=
        (hchars mark hmark).trans (chars_of_behindAngle? hbehind)
      subst hbody
      refine .cons (Nat.zero_le _) ⟨hstart.tail, ?_, ?_⟩ hrest
      · rw [hstop, byteLength, ← Nat.add_assoc]
        rfl
      · intro other hother
        cases Lexeme.mark.inj hother
        rfl

/-- To close an angle bracket runs like the reader that does, also if the bracket is the first half
of a mark. -/
theorem runs_closeAngle : Runs text 1 n closeAngle Reader.closeAngle := by
  intro state stream h _
  rw [closeAngle, bind_of_ok (peek_eq h)]
  obtain ⟨tokens, stop⟩ := stream
  match tokens with
  | [] => exact agrees_fail _ h
  | ⟨lexeme, start, behind⟩ :: tokens =>
    cases lexeme with
    | mark mark =>
      have hnext : Stream.next? ⟨⟨.mark mark, start, behind⟩ :: tokens, stop⟩
          = some (.mark mark) := rfl
      rw [hnext, Option.bind_some, Reader.closeAngle]
      dsimp only
      cases hangle : mark.behindAngle? with
      | none => exact agrees_fail _ h
      | some left =>
        cases left with
        | none =>
          obtain ⟨state', hadvance, hstands, hlost⟩ := advance_eq h rfl
          dsimp only
          rw [bind_of_ok hadvance]
          exact agrees_ok hstands hlost (Nat.lt_succ_of_lt (Nat.lt_succ_self _))
        | some shorter =>
          obtain ⟨state', hshorten, hstands, hlost⟩ := shorten_eq h rfl rfl hangle
          dsimp only
          rw [hshorten]
          exact agrees_ok hstands hlost (Nat.lt_succ_self _)
    | _ => exact agrees_fail _ h

/-! ### Recursion -/

/-- A parser that may call itself runs like a reader if its body does, calling what runs like the
reader on fewer tokens. It is not called more often than there are cells. -/
theorem runs_recursive {body : Machine α → Machine α}
    (hbody : ∀ {m machine}, m < n → Runs text more m machine reader →
      Runs text more (m + 1) (body machine) reader) :
    Runs text more n (recursive body) reader := by
  have hnested : ∀ m depth, m ≤ n → m ≤ depth → Runs text more m (nested body depth) reader := by
    intro m
    induction m with
    | zero => exact fun _ _ _ _ _ _ hlt => absurd hlt (Nat.not_lt_zero _)
    | succ m ih =>
      intro depth hle hdepth
      obtain ⟨depth, rfl⟩ := Nat.exists_eq_succ_of_ne_zero (Nat.ne_of_gt (Nat.zero_lt_of_lt hdepth))
      exact hbody hle (ih depth (Nat.le_of_succ_le hle) (Nat.le_of_succ_le_succ hdepth))
  intro state stream h hlt
  have hdepth : stream.size + 1 ≤ state.cells.length := by
    rw [h.length_cells]
    omega
  exact hnested (stream.size + 1) _ hlt hdepth h (Nat.lt_succ_self _)

/-! ### Lists -/

variable {item : Machine α} {item' : Reader α}

/-- Items with a mark between them are read like the reader reads them. -/
theorem runs_separated {separator : Mark} (hangle : (Lexeme.mark separator).isAngle = false)
    (hsame : ∀ n, Simulation.same.Alike n item' item') (h : Runs text 1 n item item') :
    Runs text 1 n (separated item separator) (Reader.separated item' separator) := by
  refine runs_recursive fun hlt hmore => ?_
  rw [funext (Simulation.separated_eq hangle hsame)]
  refine runs_bind (h.anti hlt) fun first => runs_accept ?_ (runs_pure _) (Nat.le_refl _)
  exact runs_bind hmore fun rest => runs_pure _

/-- A parser that tells whether it took something, and runs like a reader: if it did, there is room
for one more token. -/
def RunsSeparator (text : List Char) (separator : Machine Bool) (separator' : Reader Bool) : Prop :=
  ∀ {β : Type} {m n : Nat} {next : Bool → Machine β} {next' : Bool → Reader β},
    Runs text 1 m (next true) (next' true) → Runs text 1 n (next false) (next' false) → n ≤ m + 1 →
    Runs text 1 n (separator >>= next) (separator' >>= next')

/-- So are items up to a closing mark, with any way to separate them. -/
theorem runs_separatedUntil {close : Mark} {separator : Machine Bool} {separator' : Reader Bool}
    (hclose : (Lexeme.mark close).isAngle = false)
    (hsame : Simulation.same.Separates separator')
    (hsame' : ∀ n, Simulation.same.Alike n item' item')
    (hseparator : RunsSeparator text separator separator') (h : Runs text 1 n item item') :
    Runs text 1 n (separatedUntil close item separator)
      (Reader.separatedUntil close item' separator') := by
  refine runs_recursive fun hlt hmore => ?_
  rw [funext (Simulation.separatedUntil_eq hclose hsame hsame')]
  refine runs_peek fun next => runs_ite (runs_pure _) ?_
  refine runs_bind (h.anti hlt) fun first => hseparator ?_ (runs_pure _) (Nat.le_refl _)
  exact runs_bind hmore fun rest => runs_pure _

end Facade.Checked
