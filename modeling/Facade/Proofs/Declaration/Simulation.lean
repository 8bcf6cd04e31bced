import Facade.Proofs.Declaration.Ensures
import Facade.Proofs.Token.Singles
import Mathlib.Data.List.Forall2

/-!
# Readers cannot tell related streams apart

A reader sees a stream only through a few operations: it looks at the next lexeme, takes it, or
takes one `>` off a longer mark. A `Simulation` is a relation between streams that these
operations respect, with what it makes of the positions in remarks and errors. Whatever two
readers are built from the same operations, they answer alike on related streams (`Alike`), and
there is one rule for each way to build a reader.

No reader leaves more tokens than it finds, and the outcomes are bounded so that this is part of
what the rules carry along. It is what recursion needs: `answers_nested` asks of a body only that
it takes a token before it calls itself, and answers for all depths that are enough. The simplest
simulation, `same`, relates streams to themselves only. It still says something, since a recursive
reader is stuck at a depth that depends on the tokens there are: `recursive_eq` says that this
never shows.
-/

set_option autoImplicit false

namespace Facade

namespace Stream

/-- Whether a closing angle bracket may be taken off the stream. -/
def startsAngle (stream : Stream) : Bool :=
  stream.next?.any Lexeme.isAngle

/-- The stream without one closing angle bracket. -/
def behindAngle (stream : Stream) : Stream :=
  match stream.tokens with
  | ⟨.mark mark, start, stop⟩ :: rest =>
    match mark.behindAngle? with
    | some (some behind) => { stream with tokens := ⟨.mark behind, start + 1, stop⟩ :: rest }
    | _ => { stream with tokens := rest }
  | _ => stream

/-- What is left of a stream, one by one. -/
theorem singles_behindAngle {stream : Stream} (h : stream.startsAngle = true) :
    ∃ bracket, singles stream.tokens = bracket :: singles stream.behindAngle.tokens
      ∧ bracket.lexeme = .mark .greater := by
  obtain ⟨tokens, stop⟩ := stream
  match tokens with
  | [] => cases h
  | ⟨lexeme, start, behind⟩ :: rest =>
    cases lexeme with
    | mark mark => cases mark <;> first | exact ⟨_, rfl, rfl⟩ | cases h
    | _ => cases h

/-- What comes second comes next behind the first. -/
theorem second?_eq (stream : Stream) : stream.second? = stream.tail.next? := rfl

/-- Nothing comes next exactly at the end. -/
theorem next?_eq_none {stream : Stream} : stream.next? = none ↔ stream.tokens = [] := by
  cases h : stream.tokens <;> simp [next?, h]

/-- Whether an angle bracket may be taken off is a question about the next lexeme. -/
theorem startsAngle_of_next? {stream : Stream} {lexeme : Lexeme}
    (h : stream.next? = some lexeme) : stream.startsAngle = lexeme.isAngle := by
  rw [startsAngle, h]
  rfl

/-- To take a token leaves one token less. -/
theorem size_tail_lt {stream : Stream} {lexeme : Lexeme} (h : stream.next? = some lexeme) :
    stream.tail.size < stream.size := by
  obtain ⟨tokens, stop⟩ := stream
  cases tokens with
  | nil => cases h
  | cons token rest => exact Nat.lt_succ_self rest.length

/-- To take a token takes one at least, also if longer marks are counted bracket by bracket. -/
theorem length_singles_tail_lt {stream : Stream} {lexeme : Lexeme}
    (h : stream.next? = some lexeme) :
    (singles stream.tail.tokens).length < (singles stream.tokens).length := by
  obtain ⟨tokens, stop⟩ := stream
  cases tokens with
  | nil => cases h
  | cons token rest =>
    have hpos := token.length_singles_pos
    show (singles rest).length < (singles (token :: rest)).length
    rw [singles_cons, List.length_append]
    omega

/-- To take off a bracket leaves the end of the text where it is. -/
theorem stop_behindAngle (stream : Stream) : stream.behindAngle.stop = stream.stop := by
  rw [behindAngle]
  split
  · split <;> rfl
  · rfl

/-- To take off a bracket leaves no more tokens than there were. -/
theorem size_behindAngle_le (stream : Stream) : stream.behindAngle.size ≤ stream.size := by
  rw [behindAngle]
  split
  · rename_i htokens
    split <;> simp [size, htokens]
  · exact Nat.le_refl _

end Stream

namespace Reader

variable {α : Type}

/-- To close an angle bracket is to go behind it, if there is one. -/
theorem closeAngle_eq (stream : Stream) :
    closeAngle stream = if stream.startsAngle then .ok ⟨(), [], stream.behindAngle⟩
      else fail (.mark .greater) stream := by
  obtain ⟨tokens, stop⟩ := stream
  match tokens with
  | [] => rfl
  | ⟨lexeme, start, behind⟩ :: rest =>
    cases lexeme with
    | mark mark => cases mark <;> rfl
    | _ => rfl

/-- An angle bracket is closed exactly if one may be taken off. -/
theorem closeAngle_eq_ok {stream : Stream} {reading : Reading Unit} :
    closeAngle stream = .ok reading
      ↔ stream.startsAngle = true ∧ reading = ⟨(), [], stream.behindAngle⟩ := by
  rw [closeAngle_eq]
  split
  · rename_i hangle
    exact ⟨fun h => ⟨hangle, (Except.ok.inj h).symm⟩, fun h => congrArg _ h.2.symm⟩
  · rename_i hnot
    exact ⟨nofun, fun h => absurd h.1 hnot⟩

/-- To take a lexeme that a function has an answer for is to look for one. -/
theorem expectSome_eq (wanted : Wanted) (f : Lexeme → Option α) (stream : Stream) :
    expectSome wanted f stream = match stream.next?.bind f with
      | some value => .ok ⟨value, [], stream.tail⟩
      | none => fail wanted stream := by
  rw [expectSome, bind_eq]
  simp only [look]
  cases stream.next?.bind f <;> rfl

/-- A lexeme is taken exactly if it comes next and the function has an answer for it. -/
theorem expectSome_eq_ok {wanted : Wanted} {f : Lexeme → Option α} {stream : Stream}
    {reading : Reading α} : expectSome wanted f stream = .ok reading ↔
      ∃ lexeme value, stream.next? = some lexeme ∧ f lexeme = some value
        ∧ reading = ⟨value, [], stream.tail⟩ := by
  rw [expectSome_eq]
  constructor
  · intro h
    split at h
    · rename_i value hvalue
      obtain ⟨lexeme, hnext, hf⟩ := Option.bind_eq_some_iff.mp hvalue
      exact ⟨lexeme, value, hnext, hf, (Except.ok.inj h).symm⟩
    · cases h
  · rintro ⟨lexeme, value, hnext, hf, rfl⟩
    rw [Option.bind_eq_some_iff.mpr ⟨lexeme, hnext, hf⟩]

/-- To take a mark that has to come next is to look for it. -/
theorem expect_eq (mark : Mark) (stream : Stream) :
    expect mark stream = if stream.next? = some (.mark mark) then .ok ⟨(), [], stream.tail⟩
      else fail (.mark mark) stream := by
  rw [expect, bind_eq, accept]
  by_cases hnext : stream.next? = some (.mark mark)
  · rw [if_pos hnext, if_pos hnext]
    rfl
  · rw [if_neg hnext, if_neg hnext]
    rfl

/-- A mark is taken exactly if it comes next. -/
theorem expect_eq_ok {mark : Mark} {stream : Stream} {reading : Reading Unit} :
    expect mark stream = .ok reading
      ↔ stream.next? = some (.mark mark) ∧ reading = ⟨(), [], stream.tail⟩ := by
  rw [expect_eq]
  split
  · rename_i hnext
    exact ⟨fun h => ⟨hnext, (Except.ok.inj h).symm⟩, fun h => congrArg _ h.2.symm⟩
  · rename_i hnot
    exact ⟨nofun, fun h => absurd h.1 hnot⟩

end Reader

/-- A relation between streams that readers respect. -/
structure Simulation where
  streams : Stream → Stream → Prop
  /-- Recursion goes as deep as there are tokens, so the depths have to be the same, or both have to
  be compared with a third. -/
  depths : (∀ stream, streams stream stream)
    ∨ ∀ {first second}, streams first second → first.size = second.size
  /-- The positions that may stand for each other in remarks. -/
  positions : Nat → Nat → Prop
  /-- The errors that may stand for each other. -/
  errors : SyntaxError → SyntaxError → Prop
  /-- The same lexeme comes next, or else something that starts with the same `>`. -/
  next : ∀ {first second}, streams first second →
    first.next? = second.next? ∨ first.startsAngle = true ∧ second.startsAngle = true
  tail : ∀ {first second lexeme}, streams first second →
    first.next? = some lexeme → lexeme.isAngle = false → streams first.tail second.tail
  angle : ∀ {first second}, streams first second → first.startsAngle = true →
    streams first.behindAngle second.behindAngle
  position : ∀ {first second}, streams first second → positions first.position second.position
  error : ∀ {first second}, streams first second → ∀ wanted,
    errors ⟨.expected wanted first.next?, first.position⟩
      ⟨.expected wanted second.next?, second.position⟩

namespace Simulation

variable {S : Simulation} {α β : Type} {first second : Stream} {n : Nat}

/-- The same remark, at positions that may stand for each other. -/
structure SameLost (S : Simulation) (lost lost' : LostRest) : Prop where
  name : lost.name = lost'.name
  type : lost.type = lost'.type
  position : S.positions lost.position lost'.position

/-- Two answers that may be given on related streams, and leave fewer tokens than two bounds. -/
inductive Outcome (S : Simulation) (bound bound' : Nat) :
    Except SyntaxError (Reading α) → Except SyntaxError (Reading α) → Prop where
  | ok {value : α} {lost lost' : List LostRest} {rest rest' : Stream} :
      List.Forall₂ S.SameLost lost lost' → S.streams rest rest' →
      rest.size < bound → rest'.size < bound' →
      Outcome S bound bound' (.ok ⟨value, lost, rest⟩) (.ok ⟨value, lost', rest'⟩)
  | error {error error' : SyntaxError} :
      S.errors error error' → Outcome S bound bound' (.error error) (.error error')

/-- Two readers that answer alike on related streams of less than a number of tokens. They leave
less than a number of tokens more than they found. -/
def Answers (S : Simulation) (more n : Nat) (reader reader' : Reader α) : Prop :=
  ∀ ⦃first second : Stream⦄, S.streams first second → first.size < n → second.size < n →
    S.Outcome (first.size + more) (second.size + more) (reader first) (reader' second)

/-- Two readers that answer alike. -/
abbrev Alike (S : Simulation) (n : Nat) (reader reader' : Reader α) : Prop :=
  S.Answers 1 n reader reader'

/-- Two readers that answer alike, and take a token. -/
abbrev Takes (S : Simulation) (n : Nat) (reader reader' : Reader α) : Prop :=
  S.Answers 0 n reader reader'

/-! ### Streams -/

/-- Unless both start with an angle bracket, the same lexeme comes next, or the end. -/
theorem next?_eq (h : S.streams first second) (hangle : first.startsAngle = false) :
    first.next? = second.next? := by
  rcases S.next h with heq | ⟨hfirst, -⟩
  · exact heq
  · rw [hfirst] at hangle
    cases hangle

/-- An angle bracket may be taken off both streams or off neither. -/
theorem startsAngle_eq (h : S.streams first second) :
    first.startsAngle = second.startsAngle := by
  rcases S.next h with heq | ⟨hfirst, hsecond⟩
  · rw [Stream.startsAngle, Stream.startsAngle, heq]
  · rw [hfirst, hsecond]

/-- A lexeme that is no angle bracket comes next in both streams or in neither. -/
theorem next?_iff (h : S.streams first second) {lexeme : Lexeme}
    (hangle : lexeme.isAngle = false) :
    first.next? = some lexeme ↔ second.next? = some lexeme := by
  rcases S.next h with heq | ⟨hfirst, hsecond⟩
  · rw [heq]
  · constructor
    · intro hnext
      rw [Stream.startsAngle_of_next? hnext, hangle] at hfirst
      cases hfirst
    · intro hnext
      rw [Stream.startsAngle_of_next? hnext, hangle] at hsecond
      cases hsecond

/-- A test of the next lexeme comes out the same, if angle brackets do not pass it. -/
theorem test_next?_iff (h : S.streams first second) (test : Option Lexeme → Prop)
    (htest : ∀ lexeme : Lexeme, lexeme.isAngle = true → ¬ test (some lexeme)) :
    test first.next? ↔ test second.next? := by
  rcases S.next h with heq | ⟨hfirst, hsecond⟩
  · rw [heq]
  · have hnot : ∀ {stream : Stream}, stream.startsAngle = true → ¬ test stream.next? := by
      intro stream hangle
      cases hnext : stream.next? with
      | none => rw [Stream.startsAngle, hnext] at hangle; cases hangle
      | some lexeme =>
        rw [Stream.startsAngle_of_next? hnext] at hangle
        exact htest lexeme hangle
    exact iff_of_false (hnot hfirst) (hnot hsecond)

/-- What a function answers to the next lexeme is the same, if it has no answer for angle
brackets. -/
theorem bind_next?_eq (h : S.streams first second) {f : Lexeme → Option α}
    (hf : ∀ lexeme, lexeme.isAngle = true → f lexeme = none) :
    first.next?.bind f = second.next?.bind f := by
  rcases S.next h with heq | ⟨hfirst, hsecond⟩
  · rw [heq]
  · have hnone : ∀ {stream : Stream}, stream.startsAngle = true → stream.next?.bind f = none := by
      intro stream hangle
      cases hnext : stream.next? with
      | none => rfl
      | some lexeme =>
        rw [Stream.startsAngle_of_next? hnext] at hangle
        exact hf lexeme hangle
    rw [hnone hfirst, hnone hsecond]

/-! ### Answers -/

/-- Answers within some bounds are within greater ones. -/
theorem Outcome.mono {bound bound' more more' : Nat} (hle : bound ≤ more) (hle' : bound' ≤ more')
    {answer answer' : Except SyntaxError (Reading α)} (h : S.Outcome bound bound' answer answer') :
    S.Outcome more more' answer answer' := by
  cases h with
  | ok hlost hrest hlt hlt' =>
    exact .ok hlost hrest (Nat.lt_of_lt_of_le hlt hle) (Nat.lt_of_lt_of_le hlt' hle')
  | error herror => exact .error herror

/-- On related streams, failures are alike. -/
theorem outcome_fail {bound bound' : Nat} (wanted : Wanted) (h : S.streams first second) :
    S.Outcome bound bound' ((Reader.fail wanted : Reader α) first)
      ((Reader.fail wanted : Reader α) second) :=
  .error (S.error h wanted)

/-- If the answers are alike, and alike is what goes on behind them, so are the answers of both
together. -/
theorem outcome_bind {bound bound' more more' : Nat} {reader reader' : Reader α}
    {next next' : α → Reader β} (h : S.Outcome bound bound' (reader first) (reader' second))
    (hnext : ∀ value {rest rest' : Stream}, S.streams rest rest' → rest.size < bound →
      rest'.size < bound' → S.Outcome more more' (next value rest) (next' value rest')) :
    S.Outcome more more' ((reader >>= next) first) ((reader' >>= next') second) := by
  rw [Reader.bind_eq, Reader.bind_eq]
  generalize reader first = answer at h
  generalize reader' second = answer' at h
  cases h with
  | error herror => exact .error herror
  | @ok value lost lost' rest rest' hlost hrest hlt hlt' =>
    have hsecond := hnext value hrest hlt hlt'
    dsimp only
    generalize next value rest = answer at hsecond
    generalize next' value rest' = answer' at hsecond
    cases hsecond with
    | error herror => exact .error herror
    | ok hmore hbehind hle hle' => exact .ok (List.rel_append hlost hmore) hbehind hle hle'

/-- Behind a reader that leaves no remarks, the answers are those of what goes on. -/
theorem outcome_of_ok {bound bound' : Nat} {value value' : α} {rest rest' : Stream}
    {reader reader' : Reader α} {next next' : α → Reader β}
    (hreader : reader first = .ok ⟨value, [], rest⟩)
    (hreader' : reader' second = .ok ⟨value', [], rest'⟩)
    (h : S.Outcome bound bound' (next value rest) (next' value' rest')) :
    S.Outcome bound bound' ((reader >>= next) first) ((reader' >>= next') second) := by
  rw [Reader.bind_eq, Reader.bind_eq, hreader, hreader']
  dsimp only
  generalize next value rest = answer at h
  generalize next' value' rest' = answer' at h
  cases h with
  | error herror => exact .error herror
  | ok hlost hrest hlt hlt' => exact .ok hlost hrest hlt hlt'

/-- To look at something that is the same in both streams, and to go on. -/
theorem outcome_look {bound bound' : Nat} {f : Stream → α} {next next' : α → Reader β}
    (heq : f first = f second)
    (h : S.Outcome bound bound' (next (f first) first) (next' (f first) second)) :
    S.Outcome bound bound' ((Reader.look f >>= next) first)
      ((Reader.look f >>= next') second) :=
  outcome_of_ok rfl (by rw [Reader.look, heq]) h

/-! ### Readers that answer alike -/

/-- A value that takes no tokens is alike everywhere. -/
theorem alike_pure (value : α) : S.Alike n (pure value) (pure value) :=
  fun _ _ h _ _ => .ok .nil h (Nat.lt_succ_self _) (Nat.lt_succ_self _)

/-- A reader that fails is alike everywhere. -/
theorem alike_fail (wanted : Wanted) :
    S.Alike n (Reader.fail wanted : Reader α) (Reader.fail wanted) :=
  fun _ _ h _ _ => outcome_fail wanted h

/-- Readers answer alike one after the other. -/
theorem alike_bind {reader reader' : Reader α} {next next' : α → Reader β}
    (h : S.Alike n reader reader') (hnext : ∀ value, S.Alike n (next value) (next' value)) :
    S.Alike n (reader >>= next) (reader' >>= next') := by
  intro first second hstreams hlt hlt'
  refine outcome_bind (h hstreams hlt hlt') fun value rest rest' hrest hle hle' => ?_
  exact (hnext value hrest (Nat.lt_of_le_of_lt (Nat.le_of_lt_succ hle) hlt)
    (Nat.lt_of_le_of_lt (Nat.le_of_lt_succ hle') hlt')).mono hle hle'

/-- Behind a reader that takes a token, there is room for one more. -/
theorem takes_bind {reader reader' : Reader α} {next next' : α → Reader β}
    (h : S.Takes (n + 1) reader reader') (hnext : ∀ value, S.Alike n (next value) (next' value)) :
    S.Takes (n + 1) (reader >>= next) (reader' >>= next') := by
  intro first second hstreams hlt hlt'
  refine outcome_bind (h hstreams hlt hlt') fun value rest rest' hrest hle hle' => ?_
  exact (hnext value hrest (Nat.lt_of_lt_of_le hle (Nat.le_of_lt_succ hlt))
    (Nat.lt_of_lt_of_le hle' (Nat.le_of_lt_succ hlt'))).mono hle hle'

/-- Readers that take a token leave no more than they found. -/
theorem Answers.alike {reader reader' : Reader α} (h : S.Takes n reader reader') :
    S.Alike n reader reader' :=
  fun _ _ hstreams hlt hlt' => (h hstreams hlt hlt').mono (Nat.le_succ _) (Nat.le_succ _)

/-- Behind a reader that takes a token, readers that are alike on fewer tokens will do. -/
theorem alike_bind_takes {reader reader' : Reader α} {next next' : α → Reader β}
    (h : S.Takes (n + 1) reader reader') (hnext : ∀ value, S.Alike n (next value) (next' value)) :
    S.Alike (n + 1) (reader >>= next) (reader' >>= next') :=
  (takes_bind h hnext).alike

/-- Readers that answer alike on streams of a size do so on smaller ones. -/
theorem Answers.anti {more m : Nat} {reader reader' : Reader α}
    (h : S.Answers more n reader reader')
    (hle : m ≤ n) : S.Answers more m reader reader' :=
  fun _ _ hstreams hlt hlt' =>
    h hstreams (Nat.lt_of_lt_of_le hlt hle) (Nat.lt_of_lt_of_le hlt' hle)

/-- A choice between readers is alike if both are. -/
theorem alike_ite {condition : Prop} [Decidable condition] {one one' other other' : Reader α}
    (hone : S.Alike n one one') (hother : S.Alike n other other') :
    S.Alike n (if condition then one else other) (if condition then one' else other') := by
  split
  · exact hone
  · exact hother

/-- To look at the position, which only remarks depend on. -/
theorem alike_position {next next' : Nat → Reader β}
    (h : ∀ position position', S.positions position position' →
      S.Alike n (next position) (next' position')) :
    S.Alike n (Reader.look Stream.position >>= next)
      (Reader.look Stream.position >>= next') :=
  fun _ _ hstreams hlt hlt' =>
    outcome_of_ok rfl rfl (h _ _ (S.position hstreams) hstreams hlt hlt')

/-- A remark is alike if it is the same at positions that stand for each other. -/
theorem alike_remark {lost lost' : LostRest} (h : S.SameLost lost lost') :
    S.Alike n (Reader.remark lost) (Reader.remark lost') :=
  fun _ _ hstreams _ _ => .ok (.cons h .nil) hstreams (Nat.lt_succ_self _) (Nat.lt_succ_self _)

/-- To take a token if it is a given one, and to go on accordingly. If it was, there is room for one
more token behind it. -/
theorem alike_accept {m : Nat} {lexeme : Lexeme} (hangle : lexeme.isAngle = false)
    {next next' : Bool → Reader β} (htrue : S.Alike m (next true) (next' true))
    (hfalse : S.Alike n (next false) (next' false)) (hle : n ≤ m + 1) :
    S.Alike n (Reader.accept lexeme >>= next) (Reader.accept lexeme >>= next') := by
  intro first second h hlt hlt'
  by_cases hnext : first.next? = some lexeme
  · have hnext' := (next?_iff h hangle).mp hnext
    have hroom := Stream.size_tail_lt hnext
    have hroom' := Stream.size_tail_lt hnext'
    refine outcome_of_ok (by rw [Reader.accept, if_pos hnext])
      (by rw [Reader.accept, if_pos hnext']) ?_
    exact (htrue (S.tail h hnext hangle) (by omega) (by omega)).mono (Nat.le_succ_of_le hroom)
      (Nat.le_succ_of_le hroom')
  · have hnext' : second.next? ≠ some lexeme := fun hsecond =>
      hnext ((next?_iff h hangle).mpr hsecond)
    exact outcome_of_ok (by rw [Reader.accept, if_neg hnext])
      (by rw [Reader.accept, if_neg hnext']) (hfalse h hlt hlt')

/-- To take a token if it is a given one, which is no angle bracket, is alike. -/
theorem alike_acceptOnly {lexeme : Lexeme} (hangle : lexeme.isAngle = false) :
    S.Alike n (Reader.accept lexeme) (Reader.accept lexeme) := by
  intro first second h hlt hlt'
  rw [Reader.accept, Reader.accept]
  by_cases hnext : first.next? = some lexeme
  · have hnext' := (next?_iff h hangle).mp hnext
    rw [if_pos hnext, if_pos hnext']
    exact .ok .nil (S.tail h hnext hangle) (Nat.lt_succ_of_lt (Stream.size_tail_lt hnext))
      (Nat.lt_succ_of_lt (Stream.size_tail_lt hnext'))
  · rw [if_neg hnext, if_neg fun hsecond => hnext ((next?_iff h hangle).mpr hsecond)]
    exact .ok .nil h (Nat.lt_succ_self _) (Nat.lt_succ_self _)

/-- To decide by the next lexeme, in a way that angle brackets do not fulfil. -/
theorem alike_ifNext {condition : Option Lexeme → Prop} [DecidablePred condition]
    (hcondition : ∀ lexeme : Lexeme, lexeme.isAngle = true → ¬ condition (some lexeme))
    {one one' other other' : Reader β} (hone : S.Alike n one one')
    (hother : S.Alike n other other') :
    S.Alike n (Reader.look Stream.next? >>= fun next => if condition next then one else other)
      (Reader.look Stream.next? >>= fun next => if condition next then one' else other') := by
  intro first second h hlt hlt'
  have hiff := test_next?_iff h condition hcondition
  refine outcome_of_ok rfl rfl ?_
  by_cases hfirst : condition first.next?
  · rw [if_pos hfirst, if_pos (hiff.mp hfirst)]
    exact hone h hlt hlt'
  · rw [if_neg hfirst, if_neg fun hsecond => hfirst (hiff.mpr hsecond)]
    exact hother h hlt hlt'

/-- To take a lexeme that a function has an answer for. It has none for angle brackets. -/
theorem takes_expectSome {wanted : Wanted} {f : Lexeme → Option α}
    (hf : ∀ lexeme, lexeme.isAngle = true → f lexeme = none) :
    S.Takes n (Reader.expectSome wanted f) (Reader.expectSome wanted f) := by
  intro first second h _ _
  rw [Reader.expectSome_eq, Reader.expectSome_eq, ← bind_next?_eq h hf]
  cases hvalue : first.next?.bind f with
  | none => exact outcome_fail wanted h
  | some value =>
    obtain ⟨lexeme, hnext, hsome⟩ := Option.bind_eq_some_iff.mp hvalue
    have hangle := Lexeme.isAngle_eq_false hf hsome
    exact .ok .nil (S.tail h hnext hangle) (Stream.size_tail_lt hnext)
      (Stream.size_tail_lt ((next?_iff h hangle).mp hnext))

/-- To take a mark that has to come next, which is no angle bracket, is alike. -/
theorem takes_expect {mark : Mark} (hangle : (Lexeme.mark mark).isAngle = false) :
    S.Takes n (Reader.expect mark) (Reader.expect mark) := by
  intro first second h _ _
  rw [Reader.expect_eq, Reader.expect_eq]
  by_cases hnext : first.next? = some (.mark mark)
  · have hnext' := (next?_iff h hangle).mp hnext
    rw [if_pos hnext, if_pos hnext']
    exact .ok .nil (S.tail h hnext hangle) (Stream.size_tail_lt hnext)
      (Stream.size_tail_lt hnext')
  · rw [if_neg hnext, if_neg fun hsecond => hnext ((next?_iff h hangle).mpr hsecond)]
    exact outcome_fail _ h

/-- To take the next token, known to be no angle bracket, and to go on. -/
theorem outcome_skip (h : S.streams first second) {lexeme : Lexeme}
    (hnext : first.next? = some lexeme) (hangle : lexeme.isAngle = false)
    {next next' : Unit → Reader β} (halike : S.Alike n (next ()) (next' ()))
    (hle : first.size ≤ n) (hle' : second.size ≤ n) :
    S.Outcome first.size second.size ((Reader.skip >>= next) first)
      ((Reader.skip >>= next') second) := by
  have hlt := Stream.size_tail_lt hnext
  have hlt' := Stream.size_tail_lt ((next?_iff h hangle).mp hnext)
  refine outcome_of_ok rfl rfl ?_
  exact (halike (S.tail h hnext hangle) (Nat.lt_of_lt_of_le hlt hle)
    (Nat.lt_of_lt_of_le hlt' hle')).mono hlt hlt'

/-- To take what a function takes, if that leaves related streams. -/
theorem alike_take {f : List Token → α × List Token}
    (h : ∀ {first second : Stream}, S.streams first second →
      (f first.tokens).1 = (f second.tokens).1
        ∧ S.streams { first with tokens := (f first.tokens).2 }
          { second with tokens := (f second.tokens).2 })
    (hle : ∀ tokens, (f tokens).2.length ≤ tokens.length) :
    S.Alike n (Reader.take f) (Reader.take f) := by
  intro first second hstreams _ _
  obtain ⟨hvalue, hrest⟩ := h hstreams
  rw [Reader.take, Reader.take]
  dsimp only
  rw [hvalue]
  exact .ok .nil hrest (Nat.lt_succ_of_le (hle first.tokens))
    (Nat.lt_succ_of_le (hle second.tokens))

/-- To take off an angle bracket is alike, which is what a simulation is made for. -/
theorem alike_closeAngle : S.Alike n Reader.closeAngle Reader.closeAngle := by
  intro first second h _ _
  rw [Reader.closeAngle_eq, Reader.closeAngle_eq, ← startsAngle_eq h]
  split
  · rename_i hangle
    exact .ok .nil (S.angle h hangle) (Nat.lt_succ_of_le first.size_behindAngle_le)
      (Nat.lt_succ_of_le second.size_behindAngle_le)
  · exact outcome_fail _ h

/-! ### Recursion -/

/-- Bodies that take a token before they call anything answer alike at any two depths that are
enough for the tokens there are. -/
theorem answers_nested {more : Nat} {stuck stuck' : Reader α} {body body' : Reader α → Reader α}
    (hbody : ∀ {m reader reader'}, m < n → S.Answers more m reader reader' →
      S.Answers more (m + 1) (body reader) (body' reader'))
    {depth depth' : List Token} (hdepth : n ≤ depth.length + 1) (hdepth' : n ≤ depth'.length + 1) :
    S.Answers more n (Reader.nested stuck body depth) (Reader.nested stuck' body' depth') := by
  induction n generalizing depth depth' with
  | zero => exact fun _ _ _ hlt => absurd hlt (Nat.not_lt_zero _)
  | succ n ih =>
    -- Where no depth is left there are no tokens either, and anything may stand for the calls.
    have hzero : ∀ reader reader' : Reader α, S.Answers more 0 reader reader' :=
      fun _ _ _ _ _ hlt => absurd hlt (Nat.not_lt_zero _)
    cases depth with
    | nil =>
      cases Nat.le_zero.mp (Nat.le_of_succ_le_succ hdepth)
      cases depth' with
      | nil => exact hbody (Nat.lt_succ_self 0) (hzero stuck stuck')
      | cons _ depth' =>
        exact hbody (Nat.lt_succ_self 0) (hzero stuck (Reader.nested stuck' body' depth'))
    | cons token depth =>
      cases depth' with
      | nil =>
        cases Nat.le_zero.mp (Nat.le_of_succ_le_succ hdepth')
        exact hbody (Nat.lt_succ_self 0) (hzero (Reader.nested stuck body depth) stuck')
      | cons token' depth' =>
        refine hbody (Nat.lt_succ_self n) (ih (fun hlt => hbody (Nat.lt_succ_of_lt hlt)) ?_ ?_)
        · exact Nat.le_of_succ_le_succ hdepth
        · exact Nat.le_of_succ_le_succ hdepth'

/-- The simulation of streams by themselves. -/
def same : Simulation where
  streams := Eq
  depths := .inl fun _ => rfl
  positions := Eq
  errors := Eq
  next h := .inl (congrArg Stream.next? h)
  tail h _ _ := congrArg Stream.tail h
  angle h _ := congrArg Stream.behindAngle h
  position h := congrArg Stream.position h
  error h _ := by rw [h]

/-- Under `same`, answers that stand for each other are equal. -/
theorem eq_of_same {bound bound' : Nat} {answer answer' : Except SyntaxError (Reading α)}
    (h : same.Outcome bound bound' answer answer') : answer = answer' := by
  cases h with
  | error herror => exact congrArg Except.error herror
  | @ok value lost lost' rest rest' hlost hrest hlt hlt' =>
    have hsame : lost = lost' := by
      induction hlost with
      | nil => rfl
      | @cons one other _ _ h _ ih =>
        obtain ⟨name, type, position⟩ := one
        cases h with
        | mk hname htype hposition =>
          cases hname
          cases htype
          cases hposition
          rw [ih]
    rw [hsame, show rest = rest' from hrest]

/-- Of two readers that answer alike, each answers like itself. -/
theorem Answers.left {more : Nat} {reader reader' : Reader α} (h : S.Answers more n reader reader')
    (hrefl : ∀ stream, S.streams stream stream) : same.Answers more n reader reader := by
  intro first second hsame hlt _
  cases hsame
  have hanswer := h (hrefl first) hlt hlt
  generalize reader' first = answer' at hanswer
  generalize reader first = answer at hanswer ⊢
  cases hanswer with
  | error herror => exact .error rfl
  | ok hlost hrest hlt hlt' =>
    exact .ok (List.forall₂_same.mpr fun _ _ => ⟨rfl, rfl, rfl⟩) rfl hlt hlt

/-- So does the second, by its own streams. -/
theorem Answers.right {more : Nat} {reader reader' : Reader α}
    (h : S.Answers more n reader reader') (hrefl : ∀ stream, S.streams stream stream) :
    same.Answers more n reader' reader' := by
  intro first second hsame hlt _
  cases hsame
  have hanswer := h (hrefl first) hlt hlt
  generalize reader first = answer at hanswer
  generalize reader' first = answer' at hanswer ⊢
  cases hanswer with
  | error herror => exact .error rfl
  | ok hlost hrest hlt hlt' =>
    exact .ok (List.forall₂_same.mpr fun _ _ => ⟨rfl, rfl, rfl⟩) rfl hlt' hlt'

/-- Any depth that is enough for the tokens there are gives the answer of the recursive reader. -/
theorem nested_eq {more : Nat} {stuck : Reader α} {body : Reader α → Reader α} {depth : List Token}
    {stream : Stream} (hbody : ∀ {m reader reader'}, m ≤ stream.size →
      same.Answers more m reader reader' → same.Answers more (m + 1) (body reader) (body reader'))
    (hdepth : stream.size ≤ depth.length) :
    Reader.nested stuck body depth stream = Reader.recursive stuck body stream :=
  eq_of_same (answers_nested (fun hlt => hbody (Nat.le_of_lt_succ hlt)) (Nat.succ_le_succ hdepth)
    (Nat.le_refl _) rfl (Nat.lt_succ_self _) (Nat.lt_succ_self _))

/-- Recursive readers answer alike if their bodies do. -/
theorem answers_recursive {more : Nat} {stuck stuck' : Reader α} {body body' : Reader α → Reader α}
    (hbody : ∀ {m reader reader'}, m < n → S.Answers more m reader reader' →
      S.Answers more (m + 1) (body reader) (body' reader'))
    (hleft : (∀ stream, S.streams stream stream) → ∀ {m reader reader'}, m < n →
      same.Answers more m reader reader' → same.Answers more (m + 1) (body reader) (body reader'))
    (hright : (∀ stream, S.streams stream stream) → ∀ {m reader reader'}, m < n →
      same.Answers more m reader reader' →
        same.Answers more (m + 1) (body' reader) (body' reader')) :
    S.Answers more n (Reader.recursive stuck body) (Reader.recursive stuck' body') := by
  intro first second h hlt hlt'
  -- Both readers have to be unrolled to one depth: that of both streams together, or that of either
  -- if related streams have the same size.
  rcases S.depths with hrefl | hsize
  · have hfirst : Reader.nested stuck body (first.tokens ++ second.tokens) first
        = Reader.recursive stuck body first :=
      nested_eq (fun hle => hleft hrefl (Nat.lt_of_le_of_lt hle hlt)) (by simp [Stream.size])
    have hsecond : Reader.nested stuck' body' (first.tokens ++ second.tokens) second
        = Reader.recursive stuck' body' second :=
      nested_eq (fun hle => hright hrefl (Nat.lt_of_le_of_lt hle hlt')) (by simp [Stream.size])
    have hmax : max first.size second.size < n := Nat.max_lt.mpr ⟨hlt, hlt'⟩
    have hdepth : max first.size second.size + 1
        ≤ (first.tokens ++ second.tokens).length + 1 := by
      simp only [List.length_append, Stream.size]
      omega
    rw [← hfirst, ← hsecond]
    exact answers_nested (fun hm => hbody (Nat.lt_of_le_of_lt (Nat.le_of_lt_succ hm) hmax)) hdepth
      hdepth h (Nat.lt_succ_of_le (Nat.le_max_left _ _)) (Nat.lt_succ_of_le (Nat.le_max_right _ _))
  · have heq := hsize h
    exact answers_nested (fun hm => hbody (Nat.lt_of_le_of_lt (Nat.le_of_lt_succ hm) hlt))
      (Nat.le_refl _) (Nat.le_of_eq (congrArg (· + 1) heq)) h (Nat.lt_succ_self _)
      (Nat.lt_succ_of_le (Nat.le_of_eq heq.symm))

/-- A recursive reader is a fixed point of its body, if that takes a token before every call. -/
theorem recursive_eq {more : Nat} {stuck : Reader α} {body : Reader α → Reader α}
    (hbody : ∀ {m reader reader'}, same.Answers more m reader reader' →
      same.Answers more (m + 1) (body reader) (body reader')) (stream : Stream) :
    Reader.recursive stuck body stream = body (Reader.recursive stuck body) stream := by
  have hcalls : same.Answers more stream.size (Reader.nested stuck body stream.tokens)
      (Reader.recursive stuck body) := by
    intro first second h hlt hlt'
    cases h
    have hanswer : Reader.nested stuck body stream.tokens first
        = Reader.recursive stuck body first :=
      nested_eq (fun _ => hbody) (Nat.le_of_lt hlt)
    rw [hanswer]
    exact answers_recursive (fun _ => hbody) (fun _ _ _ _ _ => hbody) (fun _ _ _ _ _ => hbody) rfl
      hlt hlt'
  -- One token more makes the depth a successor, so that the body can be seen.
  have hdeeper : Reader.nested stuck body (⟨.mark .semicolon, 0, 0⟩ :: stream.tokens) stream
      = Reader.recursive stuck body stream :=
    nested_eq (fun _ => hbody) (Nat.le_succ _)
  rw [← hdeeper]
  exact eq_of_same (hbody hcalls rfl (Nat.lt_succ_self _) (Nat.lt_succ_self _))

/-! ### Lists -/

/-- One item, and those behind a separator. -/
def separatedBody (item : Reader α) (separator : Mark) (more : Reader (List α)) :
    Reader (List α) := do
  let first ← item
  if ← Reader.accept (.mark separator) then
    return first :: (← more)
  else
    return [first]

/-- The body of a list is alike if the item and the rest of the list are. -/
theorem alike_separatedBody {item item' : Reader α} {separator : Mark}
    (hangle : (Lexeme.mark separator).isAngle = false) {more more' : Reader (List α)}
    (hitem : S.Alike (n + 1) item item') (hmore : S.Alike n more more') :
    S.Alike (n + 1) (separatedBody item separator more) (separatedBody item' separator more') := by
  refine alike_bind hitem fun first => alike_accept hangle ?_ (alike_pure _) (Nat.le_refl _)
  exact alike_bind hmore fun rest => alike_pure _

/-- Lists with separators are alike if their items are. -/
theorem alike_separated {item item' : Reader α} {separator : Mark}
    (hangle : (Lexeme.mark separator).isAngle = false) (h : S.Alike n item item') :
    S.Alike n (Reader.separated item separator) (Reader.separated item' separator) :=
  answers_recursive (fun hm hmore => alike_separatedBody hangle (h.anti hm) hmore)
    (fun hrefl _ _ _ hm hmore => alike_separatedBody hangle ((h.left hrefl).anti hm) hmore)
    fun hrefl _ _ _ hm hmore => alike_separatedBody hangle ((h.right hrefl).anti hm) hmore

/-- The equation of a list with separators. -/
theorem separated_eq {item : Reader α} {separator : Mark}
    (hangle : (Lexeme.mark separator).isAngle = false) (h : ∀ n, same.Alike n item item)
    (stream : Stream) : Reader.separated item separator stream
      = separatedBody item separator (Reader.separated item separator) stream :=
  recursive_eq (fun hmore => alike_separatedBody hangle (h _) hmore) stream

/-- A reader that tells whether it took something: if it did, there is room for one more token. -/
def Separates (S : Simulation) (separator : Reader Bool) : Prop :=
  ∀ {β : Type} {m n : Nat} {next next' : Bool → Reader β}, S.Alike m (next true) (next' true) →
    S.Alike n (next false) (next' false) → n ≤ m + 1 →
    S.Alike n (separator >>= next) (separator >>= next')

/-- Nothing in front of the closing mark, or one item, and those behind a separator. -/
def separatedUntilBody (close : Mark) (item : Reader α) (separator : Reader Bool)
    (more : Reader (List α)) : Reader (List α) := do
  if (← Reader.look Stream.next?) = some (.mark close) then return []
  let first ← item
  if ← separator then
    return first :: (← more)
  else
    return [first]

/-- The body of a list up to a mark is alike if the item, the separator and the rest of the list
are. -/
theorem alike_separatedUntilBody {item item' : Reader α} {close : Mark} {separator : Reader Bool}
    (hclose : (Lexeme.mark close).isAngle = false) (hseparator : Separates S separator)
    {more more' : Reader (List α)} (hitem : S.Alike (n + 1) item item')
    (hmore : S.Alike n more more') :
    S.Alike (n + 1) (separatedUntilBody close item separator more)
      (separatedUntilBody close item' separator more') := by
  refine alike_ifNext (fun lexeme hangle heq => ?_) (alike_pure _) ?_
  · cases heq
    cases hclose.symm.trans hangle
  refine alike_bind hitem fun first => hseparator ?_ (alike_pure _) (Nat.le_refl _)
  exact alike_bind hmore fun rest => alike_pure _

/-- Lists up to a mark are alike if their items are. -/
theorem alike_separatedUntil {item item' : Reader α} {close : Mark} {separator : Reader Bool}
    (hclose : (Lexeme.mark close).isAngle = false) (hseparator : ∀ S, Separates S separator)
    (h : S.Alike n item item') :
    S.Alike n (Reader.separatedUntil close item separator)
      (Reader.separatedUntil close item' separator) :=
  answers_recursive
    (fun hm hmore => alike_separatedUntilBody hclose (hseparator S) (h.anti hm) hmore)
    (fun hrefl _ _ _ hm hmore =>
      alike_separatedUntilBody hclose (hseparator same) ((h.left hrefl).anti hm) hmore)
    fun hrefl _ _ _ hm hmore =>
      alike_separatedUntilBody hclose (hseparator same) ((h.right hrefl).anti hm) hmore

/-- The equation of a list up to a mark. -/
theorem separatedUntil_eq {item : Reader α} {close : Mark} {separator : Reader Bool}
    (hclose : (Lexeme.mark close).isAngle = false) (hseparator : Separates same separator)
    (h : ∀ n, same.Alike n item item) (stream : Stream) :
    Reader.separatedUntil close item separator stream
      = separatedUntilBody close item separator (Reader.separatedUntil close item separator)
        stream :=
  recursive_eq (fun hmore => alike_separatedUntilBody hclose hseparator (h _) hmore) stream

end Simulation

end Facade
