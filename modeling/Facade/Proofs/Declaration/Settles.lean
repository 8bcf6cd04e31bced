import Facade.Proofs.Declaration.Formed

/-!
# What a semicolon settles

A text may go on behind its last token. A reader that looks ahead would see that, but a semicolon
keeps it from doing so: whatever a reader takes, it does not look behind a semicolon that it leaves.
So if the tokens end with one, the reader answers the same with more tokens behind them, and what
was left is followed by those: it is settled what it answers (`Settles`).

Most readers leave the last semicolon in any case (`Inside`). Some may take it: what comes behind
then makes no difference to a declaration, which ends with it (`Whole`), but it does to a list of
members or declarations, which may go on (`Loose`). There is one rule for each way to build a
reader, as there is for simulations.
-/

set_option autoImplicit false

namespace Facade

namespace Stream

/-- The stream of a text that goes on, with more tokens behind those of the stream. -/
def followed (more : List Token) (stop : Nat) (stream : Stream) : Stream :=
  ⟨stream.tokens ++ more, stop⟩

/-- The last of the tokens is a semicolon. -/
def Ended (stream : Stream) : Prop :=
  stream.tokens.getLast?.map Token.lexeme = some (.mark .semicolon)

variable {stream : Stream} {more : List Token} {stop : Nat} {lexeme : Lexeme}

/-- Where a semicolon is the last token, there is one. -/
theorem Ended.ne_nil (h : stream.Ended) : stream.tokens ≠ [] := by
  intro hnil
  rw [Ended, hnil] at h
  cases h

/-- What is left of tokens that end with a semicolon ends with it, or is nothing. -/
theorem Ended.of_suffix (h : stream.Ended) {rest : List Token} (hsuffix : rest <:+ stream.tokens)
    (hne : rest ≠ []) : Ended ⟨rest, stream.stop⟩ := by
  obtain ⟨front, hfront⟩ := hsuffix
  rw [Ended, ← hfront, List.getLast?_append_of_ne_nil _ hne] at h
  exact h

/-- In other words, nothing is left, or the semicolon still comes last. -/
theorem Ended.or_nil (h : stream.Ended) {rest : List Token} (hsuffix : rest <:+ stream.tokens) :
    rest = [] ∨ Ended ⟨rest, stream.stop⟩ := by
  by_cases hnil : rest = []
  · exact .inl hnil
  · exact .inr (h.of_suffix hsuffix hnil)

/-- Where a semicolon is the last token, some lexeme comes next. -/
theorem Ended.next?_isSome (h : stream.Ended) : ∃ lexeme, stream.next? = some lexeme := by
  cases hnext : stream.next? with
  | none => exact absurd (next?_eq_none.mp hnext) h.ne_nil
  | some lexeme => exact ⟨lexeme, rfl⟩

/-- A token in front of the last semicolon is followed by others. -/
theorem Ended.tail (h : stream.Ended) (hnext : stream.next? = some lexeme)
    (hsemicolon : lexeme ≠ .mark .semicolon) : stream.tail.Ended := by
  obtain ⟨tokens, stop⟩ := stream
  match tokens with
  | [] => cases hnext
  | [token] =>
    cases hnext
    exact absurd (Option.some.inj h) hsemicolon
  | token :: second :: rest => exact h.of_suffix (List.suffix_cons token _) (List.cons_ne_nil _ _)

/-- To take a `>` off a longer mark leaves the last semicolon where it is. -/
theorem Ended.behindAngle (h : stream.Ended) (hangle : stream.startsAngle = true) :
    stream.behindAngle.Ended := by
  obtain ⟨tokens, stop⟩ := stream
  match tokens with
  | [] => cases hangle
  | [⟨lexeme, start, behind⟩] =>
    obtain rfl : lexeme = .mark .semicolon := Option.some.inj h
    cases hangle
  | ⟨lexeme, start, behind⟩ :: second :: rest =>
    cases lexeme with
    | mark mark => cases mark <;> exact h
    | _ => cases hangle

/-- What comes next does not change with more tokens behind the last semicolon. -/
theorem next?_followed (h : stream.Ended) : (stream.followed more stop).next? = stream.next? := by
  obtain ⟨tokens, stop⟩ := stream
  cases tokens with
  | nil => exact absurd rfl h.ne_nil
  | cons token rest => rfl

/-- The position where it starts does not change. -/
theorem position_followed (h : stream.Ended) :
    (stream.followed more stop).position = stream.position := by
  obtain ⟨tokens, stop⟩ := stream
  cases tokens with
  | nil => exact absurd rfl h.ne_nil
  | cons token rest => rfl

/-- What is left behind it is followed by the same tokens. -/
theorem tail_followed (h : stream.Ended) :
    (stream.followed more stop).tail = stream.tail.followed more stop := by
  obtain ⟨tokens, stop⟩ := stream
  cases tokens with
  | nil => exact absurd rfl h.ne_nil
  | cons token rest => rfl

/-- Whether it is a closing angle bracket does not change. -/
theorem startsAngle_followed (h : stream.Ended) :
    (stream.followed more stop).startsAngle = stream.startsAngle := by
  rw [startsAngle, startsAngle, next?_followed h]

/-- What is left behind that bracket is followed by the same tokens. -/
theorem behindAngle_followed (h : stream.startsAngle = true) :
    (stream.followed more stop).behindAngle = stream.behindAngle.followed more stop := by
  obtain ⟨tokens, stop⟩ := stream
  match tokens with
  | [] => cases h
  | ⟨lexeme, start, behind⟩ :: rest =>
    cases lexeme with
    | mark mark => cases mark <;> rfl
    | _ => cases h

end Stream

/-- What was read of a text that goes on. -/
def Reading.followed {α : Type} (more : List Token) (stop : Nat) (reading : Reading α) :
    Reading α :=
  { reading with rest := reading.rest.followed more stop }

namespace Reader

variable {α β : Type} {stream : Stream} {asked left : Stream → Prop}

/-! ### Answers that are settled -/

/-- If the reader answers at the stream and leaves one sort of stream, it leaves another sort, and
answers the same with more tokens behind those of the stream. -/
def SettlesAt (asked left : Stream → Prop) (reader : Reader α) (stream : Stream) : Prop :=
  ∀ (more : List Token) (stop : Nat) (reading : Reading α), reader stream = .ok reading →
    asked reading.rest → left reading.rest
      ∧ reader (stream.followed more stop) = .ok (reading.followed more stop)

/-- The answers of the reader are settled wherever the tokens end with a semicolon. -/
def Settles (asked left : Stream → Prop) (reader : Reader α) : Prop :=
  ∀ stream : Stream, stream.Ended → reader.SettlesAt asked left stream

/-- The answers are settled, and the reader never takes the last semicolon. -/
abbrev Inside (reader : Reader α) : Prop :=
  reader.Settles (fun _ => True) Stream.Ended

/-- The answers are settled, whether the reader takes the last semicolon or not. -/
abbrev Whole (reader : Reader α) : Prop :=
  reader.Settles (fun _ => True) fun rest => rest.tokens = [] ∨ rest.Ended

/-- The answers are settled unless the reader takes the last semicolon. -/
abbrev Loose (reader : Reader α) : Prop :=
  reader.Settles (·.tokens ≠ []) Stream.Ended

/-- A reader that never takes the last semicolon is settled whether it takes it or not. -/
theorem Inside.whole {reader : Reader α} (h : reader.Inside) : reader.Whole :=
  fun stream hended more stop reading hread _ =>
    (h stream hended more stop reading hread trivial).imp_left .inr

/-- Such a reader is settled unless it takes the last semicolon. -/
theorem Inside.loose {reader : Reader α} (h : reader.Inside) : reader.Loose :=
  fun stream hended more stop reading hread _ => h stream hended more stop reading hread trivial

/-- A reader that is settled in either case is settled in one of them. -/
theorem Whole.loose {reader : Reader α} (h : reader.Whole) : reader.Loose := by
  intro stream hended more stop reading hread hasked
  obtain ⟨hnil | hleft, hsame⟩ := h stream hended more stop reading hread trivial
  · exact absurd hnil hasked
  · exact ⟨hleft, hsame⟩

/-! ### Single steps -/

/-- A reader that fails has no answers to settle. -/
theorem settlesAt_fail (wanted : Wanted) :
    SettlesAt asked left (fail wanted : Reader α) stream :=
  fun _ _ _ hread => by cases hread

/-- To read on, where what is asked of the answer shows what was left in between. -/
theorem settlesAt_bind {between : Stream → Prop} {reader : Reader α} {next : α → Reader β}
    (h : reader.SettlesAt between Stream.Ended stream)
    (hbetween : ∀ value rest, (next value).Ensures rest fun _ behind => asked behind → between rest)
    (hnext : ∀ value rest, rest.Ended → (next value).SettlesAt asked left rest) :
    SettlesAt asked left (reader >>= next) stream := by
  intro more stop reading hread hasked
  obtain ⟨first, second, hfirst, hsecond, rfl⟩ := bind_eq_ok.mp hread
  -- What is left in the end shows what was left in between, and that the first answer is settled.
  obtain ⟨hended, hsame⟩ :=
    h more stop first hfirst (hbetween first.value first.rest second hsecond hasked)
  obtain ⟨hleft, hbehind⟩ := hnext first.value first.rest hended more stop second hsecond hasked
  exact ⟨hleft, bind_eq_ok.mpr ⟨_, _, hsame, hbehind, rfl⟩⟩

/-- Behind a reader that leaves no remarks, the answer is that of what goes on. -/
theorem settlesAt_of_ok {reader : Reader α} {next : α → Reader β} {value : α} {rest : Stream}
    (h : reader stream = .ok ⟨value, [], rest⟩)
    (hfollowed : ∀ more stop, reader (stream.followed more stop)
      = .ok ⟨value, [], rest.followed more stop⟩)
    (hnext : (next value).SettlesAt asked left rest) :
    SettlesAt asked left (reader >>= next) stream := by
  intro more stop reading hread hasked
  rw [bind_of_ok h] at hread
  rw [bind_of_ok (hfollowed more stop)]
  exact hnext more stop reading hread hasked

/-- To look at something that does not change with what follows. -/
theorem settlesAt_look {f : Stream → α} {next : α → Reader β}
    (hf : ∀ more stop, f (stream.followed more stop) = f stream)
    (h : (next (f stream)).SettlesAt asked left stream) :
    SettlesAt asked left (look f >>= next) stream :=
  settlesAt_of_ok rfl (fun more stop => by rw [look, hf]) h

/-- To take the next token and to go on is settled if what goes on is, behind it. -/
theorem settlesAt_skip {next : Unit → Reader β} (hended : stream.Ended)
    (h : (next ()).SettlesAt asked left stream.tail) :
    SettlesAt asked left (skip >>= next) stream :=
  settlesAt_of_ok rfl (fun more stop => by rw [skip, Stream.tail_followed hended]) h

/-! ### Readers -/

/-- So it has none at any stream. -/
theorem settles_fail (wanted : Wanted) : Settles asked left (fail wanted : Reader α) :=
  fun _ _ => settlesAt_fail wanted

/-- Behind a reader that never takes the last semicolon, what goes on decides how answers are
settled. -/
theorem settles_bind {reader : Reader α} {next : α → Reader β} (h : reader.Inside)
    (hnext : ∀ value, (next value).Settles asked left) :
    Settles asked left (reader >>= next) :=
  fun stream hended => settlesAt_bind (h stream hended) (fun _ _ _ _ _ => trivial)
    fun value rest hrest => hnext value rest hrest

/-- A choice between two readers is settled as both of them are. -/
theorem settles_ite {condition : Prop} [Decidable condition] {one other : Reader α}
    (hone : one.Settles asked left) (hother : other.Settles asked left) :
    Settles asked left (if condition then one else other) := by
  split
  · exact hone
  · exact hother

/-- A value that takes no tokens leaves the last semicolon. -/
theorem inside_pure (value : α) : Inside (pure value) := by
  intro stream hended more stop reading hread _
  cases hread
  exact ⟨hended, rfl⟩

/-- To look at what more tokens do not change leaves it as well. -/
theorem inside_look {f : Stream → α}
    (hf : ∀ stream : Stream, stream.Ended → ∀ more stop, f (stream.followed more stop) = f stream) :
    Inside (look f) := by
  intro stream hended more stop reading hread _
  cases hread
  refine ⟨hended, ?_⟩
  rw [look, hf stream hended]
  rfl

/-- The position of the next token is not changed by more tokens behind the last semicolon. -/
theorem inside_position : Inside (look Stream.position) :=
  inside_look fun _ hended _ _ => Stream.position_followed hended

/-- Neither is what comes next. -/
theorem inside_next? : Inside (look Stream.next?) :=
  inside_look fun _ hended _ _ => Stream.next?_followed hended

/-- A remark leaves the last semicolon. -/
theorem inside_remark (lost : LostRest) : Inside (remark lost) := by
  intro stream hended more stop reading hread _
  cases hread
  exact ⟨hended, rfl⟩

/-- To take a token if it is a given one. -/
theorem whole_accept (lexeme : Lexeme) : Whole (accept lexeme) := by
  intro stream hended more stop reading hread _
  rw [accept] at hread ⊢
  rw [Stream.next?_followed hended]
  split at hread
  · rename_i hnext
    cases hread
    rw [if_pos hnext, Stream.tail_followed hended]
    exact ⟨hended.or_nil (List.tail_suffix _), rfl⟩
  · rename_i hnext
    cases hread
    rw [if_neg hnext]
    exact ⟨.inr hended, rfl⟩

/-- To take a lexeme other than a semicolon, if it comes next, leaves the last one. -/
theorem inside_accept {lexeme : Lexeme} (hsemicolon : lexeme ≠ .mark .semicolon) :
    Inside (accept lexeme) := by
  intro stream hended more stop reading hread _
  -- The answer is that of any token; only what is left has to be shown.
  refine ⟨?_, (whole_accept lexeme stream hended more stop reading hread trivial).2⟩
  rw [accept] at hread
  split at hread
  · rename_i hnext
    cases hread
    exact hended.tail hnext hsemicolon
  · cases hread
    exact hended

/-- So does a mark other than a semicolon that has to come next. -/
theorem inside_expect {mark : Mark} (hsemicolon : mark ≠ .semicolon) : Inside (expect mark) :=
  settles_bind (inside_accept fun heq => hsemicolon (Lexeme.mark.inj heq)) fun _ =>
    settles_ite (inside_pure _) (settles_fail _)

/-- To take a lexeme that a function has an answer for. It has none for semicolons. -/
theorem inside_expectSome {wanted : Wanted} {f : Lexeme → Option α}
    (hf : f (.mark .semicolon) = none) : Inside (expectSome wanted f) := by
  intro stream hended more stop reading hread _
  obtain ⟨lexeme, value, hnext, hsome, rfl⟩ := expectSome_eq_ok.mp hread
  have hsemicolon : lexeme ≠ .mark .semicolon := by
    rintro rfl
    cases hf.symm.trans hsome
  refine ⟨hended.tail hnext hsemicolon, expectSome_eq_ok.mpr ⟨lexeme, value, ?_, hsome, ?_⟩⟩
  · rw [Stream.next?_followed hended, hnext]
  · rw [Stream.tail_followed hended]
    rfl

/-- To take a single `>` leaves the last semicolon as well. -/
theorem inside_closeAngle : Inside closeAngle := by
  intro stream hended more stop reading hread _
  obtain ⟨hangle, rfl⟩ := closeAngle_eq_ok.mp hread
  refine ⟨hended.behindAngle hangle, closeAngle_eq_ok.mpr ⟨?_, ?_⟩⟩
  · rw [Stream.startsAngle_followed hended, hangle]
  · rw [Stream.behindAngle_followed hangle]
    rfl

/-! ### Readers that may take the last semicolon -/

/-- A reader that leaves no more than it finds leaves nothing of nothing. -/
theorem Regular.ensures_nil {reader : Reader α} (h : reader.Regular) (stream : Stream) :
    reader.Ensures stream fun _ rest => rest.tokens ≠ [] → stream.tokens ≠ [] := by
  intro reading hread hne hnil
  -- Without tokens there are no more left than none.
  have hsize : stream.size = 0 := by rw [Stream.size, hnil]; rfl
  have hlt : stream.size < 1 := Nat.lt_one_iff.mpr hsize
  have houtcome := h 1 (rfl : stream = stream) hlt hlt
  rw [hread] at houtcome
  cases houtcome with
  | ok _ _ hle _ =>
    rw [hsize] at hle
    exact hne (List.eq_nil_of_length_eq_zero (Nat.lt_one_iff.mp hle))

/-- What goes on behind a reader that may take the last semicolon makes nothing of nothing. -/
theorem loose_bind {reader : Reader α} {next : α → Reader β} (h : reader.Loose)
    (hregular : ∀ value, (next value).Regular) (hnext : ∀ value, (next value).Loose) :
    Loose (reader >>= next) :=
  fun stream hended => settlesAt_bind (h stream hended)
    (fun value rest => (hregular value).ensures_nil rest)
    fun value rest hrest => hnext value rest hrest

/-- To take a mark that has to come next ensures that it came. -/
theorem ensures_expect (mark : Mark) (stream : Stream) :
    (expect mark).Ensures stream fun _ rest =>
      stream.next? = some (.mark mark) ∧ rest = stream.tail := by
  intro reading hread
  obtain ⟨hnext, rfl⟩ := expect_eq_ok.mp hread
  exact ⟨hnext, rfl⟩

/-- A closing mark behind such a reader shows that it left something. -/
theorem settles_bind_expect {reader : Reader α} {mark : Mark} {next : α → Unit → Reader β}
    (h : reader.Loose) (hsemicolon : mark ≠ .semicolon)
    (hnext : ∀ value, (next value ()).Settles asked left) :
    Settles asked left (reader >>= fun value => expect mark >>= next value) := by
  refine fun stream hended => settlesAt_bind (h stream hended) (fun value rest => ?_)
    fun value rest hrest =>
      settles_bind (inside_expect hsemicolon) (fun _ => hnext value) rest hrest
  refine ensures_bind ((ensures_expect mark rest).imp fun _ behind hmark => ?_)
  refine (ensures_trivial _ behind).imp fun _ _ _ _ hnil => ?_
  rw [Stream.next?_eq_none.mpr hnil] at hmark
  cases hmark.1

/-! ### Recursion -/

/-- A recursive reader settles what its body settles of what it keeps. -/
theorem settles_recursive {more : Nat} {stuck : Reader α} {body : Reader α → Reader α}
    (kept : Reader α → Prop)
    (hsame : ∀ {m reader reader'}, Simulation.same.Answers more m reader reader' →
      Simulation.same.Answers more (m + 1) (body reader) (body reader'))
    (hstuck : kept stuck) (hbody : ∀ reader, kept reader → kept (body reader))
    (hkept : ∀ reader, kept reader → reader.Settles asked left) :
    Settles asked left (recursive stuck body) := by
  intro stream hended more stop reading hread hasked
  -- The reader goes as deep as there are tokens, so the depth of the longer text does for both.
  have hdepth : nested stuck body (stream.tokens ++ more) stream = recursive stuck body stream :=
    Simulation.nested_eq (fun _ => hsame) (by simp [Stream.size])
  have hsettles := hkept _ (nested_induction kept hstuck hbody (stream.tokens ++ more))
  exact hsettles stream hended more stop reading (hdepth.trans hread) hasked

end Reader

end Facade
