import Facade.Proofs.Declaration.Settles

/-!
# What is read of types is settled

The readers of types and members leave the last semicolon, and what they answer is settled by the
tokens up to there. All but one look ahead by two tokens at most. A parenthesis may open a function
type, and to tell that is to look for the parenthesis that closes it, however far that is. If it is
not found in front of the semicolon, a type in parentheses cannot be read there either: the
readers of types take parentheses in pairs (`Even`), so the parenthesis that such a type ends with
is the one that is looked for.

Both facts go along with each other, from a reader to those that are built from it (`Steady`).
-/

set_option autoImplicit false

namespace Facade

/-- Neither a parenthesis nor a semicolon. -/
def Lexeme.isPlain : Lexeme → Bool
  | .mark m => m ∉ [.semicolon, .parenOpen, .parenClose]
  | _ => true

/-- What a plain lexeme is none of, one by one. -/
theorem Lexeme.ne_of_isPlain {lexeme : Lexeme} (h : lexeme.isPlain = true) :
    lexeme ≠ .mark .semicolon ∧ lexeme ≠ .mark .parenOpen ∧ lexeme ≠ .mark .parenClose := by
  refine ⟨?_, ?_, ?_⟩ <;> rintro rfl <;> cases h

/-- A name that can be declared is plain. -/
theorem Lexeme.isPlain_of_bindingName? {lexeme : Lexeme} {name : String}
    (h : lexeme.bindingName? = some name) : lexeme.isPlain = true := by
  cases lexeme with
  | mark m => cases h
  | _ => rfl

/-- The name of a member is plain, whichever way it is written. -/
theorem Lexeme.isPlain_of_propertyName? {lexeme : Lexeme} {name : String}
    (h : lexeme.propertyName? = some name) : lexeme.isPlain = true := by
  cases lexeme with
  | mark m => cases h
  | _ => rfl

/-! ### Parentheses in pairs -/

namespace Stream

/-- Inside of a parenthesis, the search for the one that closes it comes from one stream to the
other. -/
def Evenly (stream rest : Stream) : Prop :=
  ∀ depth, Reader.closesBeforeArrow (depth + 1) stream.tokens
    = Reader.closesBeforeArrow (depth + 1) rest.tokens

variable {stream rest behind : Stream} {lexeme : Lexeme}

/-- To take nothing is to take parentheses in pairs. -/
theorem Evenly.refl (stream : Stream) : stream.Evenly stream :=
  fun _ => rfl

/-- One run of tokens after another: if both take parentheses in pairs, so do they together. -/
theorem Evenly.trans (h : stream.Evenly rest) (h' : rest.Evenly behind) : stream.Evenly behind :=
  fun depth => (h depth).trans (h' depth)

/-- A token that is no parenthesis is passed over. -/
theorem evenly_tail (hnext : stream.next? = some lexeme) (hopen : lexeme ≠ .mark .parenOpen)
    (hclose : lexeme ≠ .mark .parenClose) : stream.Evenly stream.tail := by
  intro depth
  rw [Simulation.closesBeforeArrow_of_next? hnext, if_neg hopen, if_neg hclose]

/-- To take a single `>` off a longer mark changes no parentheses. -/
theorem evenly_behindAngle (h : stream.startsAngle = true) : stream.Evenly stream.behindAngle :=
  fun _ => Simulation.closesBeforeArrow_behindAngle h _

/-- Where a parenthesis is closed that comes next. -/
theorem opensFunctionType_of_evenly (hnext : stream.next? = some (.mark .parenOpen))
    (h : stream.tail.Evenly rest) (hclose : rest.next? = some (.mark .parenClose)) :
    Reader.opensFunctionType stream = (rest.tail.next? == some (.mark .arrow)) := by
  have hdistinct : Lexeme.mark .parenClose ≠ .mark .parenOpen := by decide
  rw [Reader.opensFunctionType, Simulation.closesBeforeArrow_of_next? hnext, if_pos rfl, h 0,
    Simulation.closesBeforeArrow_of_next? hclose, if_neg hdistinct, if_pos rfl,
    if_pos (Nat.le_refl 1)]

/-- Parentheses are passed over together with what is in them. -/
theorem evenly_parens (hnext : stream.next? = some (.mark .parenOpen))
    (h : stream.tail.Evenly rest) (hclose : rest.next? = some (.mark .parenClose)) :
    stream.Evenly rest.tail := by
  intro depth
  -- Inside of them the search is one deeper, so it does not end at the closing one.
  have hdistinct : Lexeme.mark .parenClose ≠ .mark .parenOpen := by decide
  have hdeep : ¬ depth + 1 + 1 ≤ 1 := by omega
  rw [Simulation.closesBeforeArrow_of_next? hnext, if_pos rfl, h (depth + 1),
    Simulation.closesBeforeArrow_of_next? hclose, if_neg hdistinct, if_pos rfl, if_neg hdeep]
  rfl

end Stream

namespace Reader

variable {α β : Type} {stream : Stream}

/-- Whatever the reader takes, it takes parentheses in pairs. -/
def Even (reader : Reader α) : Prop :=
  ∀ stream : Stream, reader.Ensures stream fun _ rest => stream.Evenly rest

/-- A reader that takes nothing takes parentheses in pairs. -/
theorem even_pure (value : α) : Even (pure value) :=
  fun stream => ensures_pure (.refl stream)

/-- A reader that fails has taken nothing to answer for. -/
theorem even_fail (wanted : Wanted) : Even (fail wanted : Reader α) :=
  fun stream => ensures_fail wanted stream _

/-- Readers that take parentheses in pairs do so one after the other. -/
theorem even_bind {reader : Reader α} {next : α → Reader β} (h : reader.Even)
    (hnext : ∀ value, (next value).Even) : Even (reader >>= next) :=
  fun stream => ensures_bind ((h stream).imp fun value rest hrest =>
    (hnext value rest).imp fun _ _ hbehind => hrest.trans hbehind)

/-- A choice between two such readers is one as well. -/
theorem even_ite {condition : Prop} [Decidable condition] {one other : Reader α}
    (hone : one.Even) (hother : other.Even) : Even (if condition then one else other) := by
  split
  · exact hone
  · exact hother

/-- To look at the stream takes nothing. -/
theorem even_look (f : Stream → α) : Even (look f) :=
  fun stream => ensures_look (.refl stream)

/-- To take a lexeme that is no parenthesis, if it comes next, leaves the pairs as they are. -/
theorem even_accept {lexeme : Lexeme} (hopen : lexeme ≠ .mark .parenOpen)
    (hclose : lexeme ≠ .mark .parenClose) : Even (accept lexeme) :=
  fun stream => ensures_accept (fun hnext => Stream.evenly_tail hnext hopen hclose)
    fun _ => .refl stream

/-! ### Steady readers -/

/-- At the stream, the reader takes parentheses in pairs, and what it answers is settled in front
of the last semicolon. -/
structure SteadyAt (reader : Reader α) (stream : Stream) : Prop where
  even : reader.Ensures stream fun _ rest => stream.Evenly rest
  settled : stream.Ended → reader.SettlesAt (fun _ => True) Stream.Ended stream

/-- The reader takes parentheses in pairs, and its answers are settled in front of the last
semicolon. -/
def Steady (reader : Reader α) : Prop :=
  ∀ stream : Stream, reader.SteadyAt stream

/-- A steady reader takes parentheses in pairs. -/
theorem Steady.even {reader : Reader α} (h : reader.Steady) : reader.Even :=
  fun stream => (h stream).even

/-- A steady reader answers in front of the last semicolon as it would with more tokens. -/
theorem Steady.inside {reader : Reader α} (h : reader.Steady) : reader.Inside :=
  fun stream => (h stream).settled

/-- The two parts of steadiness, put together. -/
theorem Even.steady {reader : Reader α} (h : reader.Even) (hinside : reader.Inside) :
    reader.Steady :=
  fun stream => ⟨h stream, hinside stream⟩

/-- A reader that takes nothing is steady. -/
theorem steady_pure (value : α) : Steady (pure value) :=
  (even_pure value).steady (inside_pure value)

/-- A reader that fails is steady: it fails with more tokens as well. -/
theorem steady_fail (wanted : Wanted) : Steady (fail wanted : Reader α) :=
  (even_fail wanted).steady (settles_fail wanted)

/-- A reader that is steady at a stream may be followed by any that is steady everywhere. -/
theorem steadyAt_bind {reader : Reader α} {next : α → Reader β} (h : reader.SteadyAt stream)
    (hnext : ∀ value, (next value).Steady) : SteadyAt (reader >>= next) stream where
  even := ensures_bind (h.even.imp fun value rest hrest =>
    ((hnext value).even rest).imp fun _ _ hbehind => hrest.trans hbehind)
  settled hended := settlesAt_bind (h.settled hended) (fun _ _ _ _ _ => trivial)
    fun value rest => (hnext value).inside rest

/-- Steady readers one after the other are steady. -/
theorem steady_bind {reader : Reader α} {next : α → Reader β} (h : reader.Steady)
    (hnext : ∀ value, (next value).Steady) : Steady (reader >>= next) :=
  fun stream => steadyAt_bind (h stream) hnext

/-- A choice between two steady readers is steady, since the condition is the same with more
tokens. -/
theorem steady_ite {condition : Prop} [Decidable condition] {one other : Reader α}
    (hone : one.Steady) (hother : other.Steady) :
    Steady (if condition then one else other) := by
  split
  · exact hone
  · exact hother

/-- Where the next token starts does not change with what follows the last semicolon. -/
theorem steady_position : Steady (look Stream.position) :=
  (even_look _).steady inside_position

/-- Neither does what comes next. -/
theorem steady_next? : Steady (look Stream.next?) :=
  (even_look _).steady inside_next?

/-- A remark takes nothing and looks at nothing. -/
theorem steady_remark (lost : LostRest) : Steady (remark lost) := by
  refine Even.steady (fun stream reading hread => ?_) (inside_remark lost)
  cases hread
  exact .refl stream

/-- To take a plain lexeme, if it comes next, is steady: the last semicolon is not taken. -/
theorem steady_accept {lexeme : Lexeme} (h : lexeme.isPlain = true) : Steady (accept lexeme) := by
  obtain ⟨hsemicolon, hopen, hclose⟩ := Lexeme.ne_of_isPlain h
  exact (even_accept hopen hclose).steady (inside_accept hsemicolon)

/-- The same for a plain mark that has to come next. -/
theorem steady_expect {mark : Mark} (h : (Lexeme.mark mark).isPlain = true) :
    Steady (expect mark) :=
  steady_bind (steady_accept h) fun _ => steady_ite (steady_pure _) (steady_fail _)

/-- The same for a lexeme that a function has an answer for, if it only has answers for plain
ones. -/
theorem steady_expectSome {wanted : Wanted} {f : Lexeme → Option α}
    (hf : ∀ lexeme value, f lexeme = some value → lexeme.isPlain = true) :
    Steady (expectSome wanted f) := by
  refine Even.steady (fun stream reading hread => ?_) (inside_expectSome ?_)
  · obtain ⟨lexeme, value, hnext, hsome, rfl⟩ := expectSome_eq_ok.mp hread
    obtain ⟨-, hopen, hclose⟩ := Lexeme.ne_of_isPlain (hf lexeme value hsome)
    exact Stream.evenly_tail hnext hopen hclose
  -- A semicolon is not plain, so the function has no answer for it.
  · cases hvalue : f (.mark .semicolon) with
    | none => rfl
    | some value => cases hf _ value hvalue

/-- To take a single `>` is steady. -/
theorem steady_closeAngle : Steady closeAngle := by
  refine Even.steady (fun stream reading hread => ?_) inside_closeAngle
  obtain ⟨hangle, rfl⟩ := closeAngle_eq_ok.mp hread
  exact Stream.evenly_behindAngle hangle

/-- To take the next token, known to be neither a parenthesis nor a semicolon. -/
theorem steadyAt_skip {next : Unit → Reader β} {lexeme : Lexeme}
    (hnext : stream.next? = some lexeme) (h : lexeme.isPlain = true)
    (hsteady : (next ()).SteadyAt stream.tail) : SteadyAt (skip >>= next) stream where
  even := by
    obtain ⟨-, hopen, hclose⟩ := Lexeme.ne_of_isPlain h
    refine ensures_bind (ensures_skip (hsteady.even.imp fun _ _ hrest => ?_))
    exact (Stream.evenly_tail hnext hopen hclose).trans hrest
  settled hended := settlesAt_skip hended
    (hsteady.settled (hended.tail hnext (Lexeme.ne_of_isPlain h).1))

/-- To look at something that does not change with what follows. -/
theorem steadyAt_look {f : Stream → α} {next : α → Reader β}
    (hf : stream.Ended → ∀ more stop, f (stream.followed more stop) = f stream)
    (h : (next (f stream)).SteadyAt stream) : SteadyAt (look f >>= next) stream where
  even := ensures_bind (ensures_look h.even)
  settled hended := settlesAt_look (hf hended) (h.settled hended)

/-- It is enough to know another reader that answers the same, here and with more tokens. -/
theorem SteadyAt.congr {reader reader' : Reader α} (h : reader'.SteadyAt stream)
    (hhere : reader stream = reader' stream) (hfollowed : stream.Ended →
      ∀ more stop, reader (stream.followed more stop) = reader' (stream.followed more stop)) :
    reader.SteadyAt stream where
  even reading hread := h.even reading (hhere.symm.trans hread)
  settled hended more stop reading hread hasked := by
    rw [hfollowed hended]
    exact h.settled hended more stop reading (hhere.symm.trans hread) hasked

/-- What comes in front of a closing parenthesis is taken with it. -/
theorem ensures_closed {inner : Reader α} (h : inner.Even) (f : α → β) (stream : Stream) :
    Ensures (inner >>= fun value => expect .parenClose >>= fun _ => pure (f value)) stream
      fun _ rest => ∃ closing : Stream, stream.Evenly closing
        ∧ closing.next? = some (.mark .parenClose) ∧ rest = closing.tail := by
  refine ensures_bind ((h stream).imp fun value closing heven => ensures_bind ?_)
  refine (ensures_expect .parenClose closing).imp fun _ rest hclose => ensures_pure ?_
  exact ⟨closing, heven, hclose⟩

/-! ### What is taken by plain functions -/

/-- A function that takes plain tokens off a list, and takes the same off a longer one. -/
structure Cuts (f : List Token → α × List Token) : Prop where
  taken : ∀ tokens, ∃ taken, tokens = taken ++ (f tokens).2
    ∧ ∀ token ∈ taken, token.lexeme.isPlain = true
  followed : ∀ tokens stop, Stream.Ended ⟨tokens, stop⟩ → ∀ more,
    f (tokens ++ more) = ((f tokens).1, (f tokens).2 ++ more)

/-- Tokens without parentheses are passed over by the search for the one that closes. -/
theorem evenly_append {taken : List Token}
    (h : ∀ token ∈ taken, token.lexeme ≠ .mark .parenOpen ∧ token.lexeme ≠ .mark .parenClose)
    (rest : List Token) (stop : Nat) : Stream.Evenly ⟨taken ++ rest, stop⟩ ⟨rest, stop⟩ := by
  induction taken with
  | nil => exact .refl _
  | cons token taken ih =>
    rw [List.forall_mem_cons] at h
    have htail : Stream.Evenly ⟨token :: (taken ++ rest), stop⟩ ⟨taken ++ rest, stop⟩ :=
      Stream.evenly_tail rfl h.1.1 h.1.2
    exact htail.trans (ih h.2)

/-- What is left behind tokens that were cut off still ends with the semicolon. -/
theorem Cuts.ended {f : List Token → α × List Token} (h : Cuts f) (hended : stream.Ended) :
    Stream.Ended ⟨(f stream.tokens).2, stream.stop⟩ := by
  obtain ⟨taken, htokens, hplain⟩ := h.taken stream.tokens
  refine hended.of_suffix ⟨taken, htokens.symm⟩ fun hnil => ?_
  -- Otherwise all tokens are taken, and the semicolon is one of them.
  rw [hnil, List.append_nil] at htokens
  obtain ⟨last, hlast, hsemicolon⟩ := Option.map_eq_some_iff.mp hended
  have hin : last ∈ taken := htokens ▸ List.mem_of_getLast? hlast
  exact (Lexeme.ne_of_isPlain (hplain last hin)).1 hsemicolon

/-- To take what a function cuts off is settled in front of the last semicolon. -/
theorem inside_take {f : List Token → α × List Token} (h : Cuts f) : Inside (take f) := by
  intro stream hended more stop reading hread _
  cases hread
  refine ⟨h.ended hended, ?_⟩
  have hsame : f (stream.followed more stop).tokens = _ := h.followed stream.tokens _ hended more
  rw [take, hsame]
  rfl

/-- To take what a function cuts off is steady. -/
theorem steady_take {f : List Token → α × List Token} (h : Cuts f) : Steady (take f) := by
  refine Even.steady (fun stream => ensures_take ?_) (inside_take h)
  obtain ⟨taken, htokens, hplain⟩ := h.taken stream.tokens
  have heven := evenly_append (fun token hin => (Lexeme.ne_of_isPlain (hplain token hin)).2)
    (f stream.tokens).2 stream.stop
  rw [← htokens] at heven
  exact heven

variable {token : Token} {tokens more : List Token} {stop : Nat}

/-- Behind a plain token, tokens that end with a semicolon still do. -/
theorem ended_of_cons (h : Stream.Ended ⟨token :: tokens, stop⟩)
    (hplain : token.lexeme.isPlain = true) : Stream.Ended ⟨tokens, stop⟩ :=
  h.tail rfl (Lexeme.ne_of_isPlain hplain).1

/-- A single token that the tokens end with is the semicolon. -/
theorem lexeme_of_ended (h : Stream.Ended ⟨[token], stop⟩) : token.lexeme = .mark .semicolon :=
  Option.some.inj h

/-- There is a token in front of the end, so more tokens behind it do not change the first. -/
theorem head?_append_of_ended (h : Stream.Ended ⟨tokens, stop⟩) (more : List Token) :
    (tokens ++ more).head? = tokens.head? :=
  List.head?_append_of_ne_nil _ h.ne_nil

/-- Names with dots are cut off: every dot and every name is plain, and the cut looks at no more
than the two tokens that come next. -/
theorem cuts_splitDotted : Cuts splitDotted where
  taken tokens := by
    fun_induction splitDotted tokens with
    | case1 dot name rest hdot text htext more behind hsplit ih =>
      obtain ⟨taken, htokens, hplain⟩ := ih
      rw [hsplit] at htokens
      refine ⟨dot :: name :: taken, by rw [htokens]; rfl, ?_⟩
      refine List.forall_mem_cons.mpr ⟨by rw [hdot]; rfl, List.forall_mem_cons.mpr ⟨?_, hplain⟩⟩
      exact Lexeme.isPlain_of_bindingName? htext
    | case2 | case3 | case4 => exact ⟨[], rfl, fun _ hin => absurd hin List.not_mem_nil⟩
  followed tokens stop hended more := by
    fun_induction splitDotted tokens with
    | case1 dot name rest hdot text htext left behind hsplit ih =>
      have hname := ended_of_cons hended (by rw [hdot]; rfl)
      have hrest := ih (ended_of_cons hname (Lexeme.isPlain_of_bindingName? htext))
      rw [hsplit] at hrest
      rw [List.cons_append, List.cons_append, splitDotted, if_pos hdot, htext, hrest]
    | case2 dot name rest hdot hname =>
      rw [List.cons_append, List.cons_append, splitDotted, if_pos hdot, hname]
    | case3 dot name rest hdot =>
      rw [List.cons_append, List.cons_append, splitDotted, if_neg hdot]
    | case4 tokens hshort =>
      obtain _ | ⟨dot, _ | ⟨name, rest⟩⟩ := tokens
      · cases hended
      · refine @Simulation.splitDotted_miss ⟨dot :: more, stop⟩ fun hnext => ?_
        cases (lexeme_of_ended hended).symm.trans (Option.some.inj hnext)
      · exact absurd rfl (hshort dot name rest)

/-- Brackets in pairs are cut off in the same way. -/
theorem cuts_splitBrackets : Cuts splitBrackets where
  taken tokens := by
    fun_induction splitBrackets tokens with
    | case1 opening closing rest hboth more behind hsplit ih =>
      obtain ⟨taken, htokens, hplain⟩ := ih
      simp only [Bool.and_eq_true, decide_eq_true_eq] at hboth
      rw [hsplit] at htokens
      refine ⟨opening :: closing :: taken, by rw [htokens]; rfl, ?_⟩
      refine List.forall_mem_cons.mpr ⟨by rw [hboth.1]; rfl, List.forall_mem_cons.mpr ⟨?_, hplain⟩⟩
      rw [hboth.2]
      rfl
    | case2 | case3 => exact ⟨[], rfl, fun _ hin => absurd hin List.not_mem_nil⟩
  followed tokens stop hended more := by
    fun_induction splitBrackets tokens with
    | case1 opening closing rest hboth left behind hsplit ih =>
      have hmarks := hboth
      simp only [Bool.and_eq_true, decide_eq_true_eq] at hmarks
      have hclosing := ended_of_cons hended (by rw [hmarks.1]; rfl)
      have hrest := ih (ended_of_cons hclosing (by rw [hmarks.2]; rfl))
      rw [hsplit] at hrest
      rw [List.cons_append, List.cons_append, splitBrackets, if_pos hboth, hrest]
    | case2 opening closing rest hboth =>
      rw [List.cons_append, List.cons_append, splitBrackets, if_neg hboth]
    | case3 tokens hshort =>
      obtain _ | ⟨opening, _ | ⟨closing, rest⟩⟩ := tokens
      · cases hended
      · refine @Simulation.splitBrackets_miss ⟨opening :: more, stop⟩ fun hnext => ?_
        cases (lexeme_of_ended hended).symm.trans (Option.some.inj hnext)
      · exact absurd rfl (hshort opening closing rest)

/-- The words that modify a member are plain. -/
theorem isPlain_of_isModifierWord {lexeme : Lexeme} (h : isModifierWord lexeme = true) :
    lexeme.isPlain = true := by
  cases lexeme with
  | mark m => cases h
  | _ => rfl

/-- Words that modify a member are cut off, up to one that is the member's own name. -/
theorem cuts_splitModifiers : Cuts splitModifiers where
  taken tokens := by
    fun_induction splitModifiers tokens with
    | case1 => exact ⟨[], rfl, fun _ hin => absurd hin List.not_mem_nil⟩
    | case2 token rest hword isStatic behind hsplit ih =>
      obtain ⟨taken, htokens, hplain⟩ := ih
      simp only [Bool.and_eq_true] at hword
      rw [hsplit] at htokens
      exact ⟨token :: taken, by rw [htokens]; rfl,
        List.forall_mem_cons.mpr ⟨isPlain_of_isModifierWord hword.1, hplain⟩⟩
    | case3 => exact ⟨[], rfl, fun _ hin => absurd hin List.not_mem_nil⟩
  followed tokens stop hended more := by
    fun_induction splitModifiers tokens with
    | case1 => cases hended
    | case2 token rest hword isStatic behind hsplit ih =>
      have hrest : Stream.Ended ⟨rest, stop⟩ := by
        simp only [Bool.and_eq_true] at hword
        exact ended_of_cons hended (isPlain_of_isModifierWord hword.1)
      have hsame := ih hrest
      rw [hsplit] at hsame
      rw [← head?_append_of_ended hrest more] at hword
      rw [List.cons_append, splitModifiers, if_pos hword, hsame]
    | case3 token rest hword =>
      -- What comes behind a word that may be a modifier is still in front of the semicolon.
      have hmore : ¬ (isModifierWord token.lexeme
          && !endsName ((rest ++ more).head?.map Token.lexeme)) = true := by
        cases hmodifier : isModifierWord token.lexeme with
        | false => exact Bool.false_ne_true
        | true =>
          have hrest := ended_of_cons hended (isPlain_of_isModifierWord hmodifier)
          rw [head?_append_of_ended hrest]
          rw [hmodifier] at hword
          exact hword
      rw [List.cons_append, splitModifiers, if_neg hmore]

/-! ### Recursion -/

/-- A recursive reader takes parentheses in pairs if its body does, as long as its calls do. -/
theorem even_recursive {stuck : Reader α} {body : Reader α → Reader α} (hstuck : stuck.Even)
    (hbody : ∀ reader : Reader α, reader.Even → (body reader).Even) :
    Even (recursive stuck body) :=
  fun stream => nested_induction Even hstuck hbody stream.tokens stream

/-- A recursive reader is steady if what its body keeps is. -/
theorem steady_recursive {more : Nat} {stuck : Reader α} {body : Reader α → Reader α}
    (kept : Reader α → Prop)
    (hsame : ∀ {m reader reader'}, Simulation.same.Answers more m reader reader' →
      Simulation.same.Answers more (m + 1) (body reader) (body reader'))
    (hstuck : kept stuck) (hbody : ∀ reader, kept reader → kept (body reader))
    (hkept : ∀ reader, kept reader → reader.Steady) : Steady (recursive stuck body) :=
  Even.steady
    (fun stream => (hkept _ (nested_induction kept hstuck hbody stream.tokens)).even stream)
    (settles_recursive kept hsame hstuck hbody fun reader h => (hkept reader h).inside)

/-- A list of steady items with a plain separator is steady. -/
theorem steady_separated {item : Reader α} {separator : Mark} (h : item.Steady)
    (hregular : item.Regular) (hangle : (Lexeme.mark separator).isAngle = false)
    (hplain : (Lexeme.mark separator).isPlain = true) : Steady (separated item separator) := by
  refine steady_recursive Steady
    (fun hmore => Simulation.alike_separatedBody hangle (hregular _) hmore)
    (steady_pure _) (fun more hmore => steady_bind h fun first => ?_) fun _ => id
  exact steady_bind (steady_accept hplain) fun found =>
    steady_ite (steady_bind hmore fun _ => steady_pure _) (steady_pure _)

/-- The same for a list that goes on up to a closing mark. -/
theorem steady_separatedUntil {item : Reader α} {close separator : Mark} (h : item.Steady)
    (hregular : item.Regular) (hclose : (Lexeme.mark close).isAngle = false)
    (hangle : (Lexeme.mark separator).isAngle = false)
    (hplain : (Lexeme.mark separator).isPlain = true) :
    Steady (separatedUntil close item (accept (.mark separator))) := by
  refine steady_recursive Steady
    (fun hmore => Simulation.alike_separatedUntilBody hclose
      (Simulation.separates_accept hangle) (hregular _) hmore)
    (steady_pure _) (fun more hmore => steady_bind steady_next? fun next => ?_) fun _ => id
  refine steady_ite (steady_pure _) (steady_bind h fun first => ?_)
  exact steady_bind (steady_accept hplain) fun found =>
    steady_ite (steady_bind hmore fun _ => steady_pure _) (steady_pure _)

/-! ### Signatures -/

variable {type : Reader TypeExpr}

/-- To read a name that can be declared is steady. -/
theorem steady_bindingName : Steady bindingName :=
  steady_expectSome fun _ _ => Lexeme.isPlain_of_bindingName?

/-- To read the name of a member is steady. -/
theorem steady_propertyName : Steady propertyName :=
  steady_expectSome fun _ _ => Lexeme.isPlain_of_propertyName?

/-- A type behind a plain lexeme is read steadily, and so is its absence. -/
theorem steady_typeAfter (h : type.Steady) {lexeme : Lexeme} (hplain : lexeme.isPlain = true) :
    Steady (typeAfter type lexeme) :=
  steady_bind (steady_accept hplain) fun _ =>
    steady_ite (steady_bind h fun _ => steady_pure _) (steady_pure _)

/-- A type parameter is read steadily, with its bound and its default. -/
theorem steady_typeParameter (h : type.Steady) : Steady (typeParameter type) :=
  steady_bind steady_bindingName fun _ => steady_bind (steady_typeAfter h rfl) fun _ =>
    steady_bind (steady_typeAfter h rfl) fun _ => steady_pure _

/-- The regularity of the readers of types carries over to those built from them. -/
theorem Regular.of_alike {reader : Reader α} (hregular : type.Regular)
    (halike : ∀ n, Simulation.same.Alike n type type →
      Simulation.same.Alike (n + 1) reader reader) : reader.Regular :=
  fun n => (halike n (hregular n)).anti (Nat.le_succ n)

/-- Type parameters are read steadily, in their angle brackets or not at all. -/
theorem steady_typeParameters (h : type.Steady) (hregular : type.Regular) :
    Steady (typeParameters type) := by
  refine steady_bind (steady_accept rfl) fun _ => steady_ite ?_ (steady_pure _)
  refine steady_bind (steady_separated (steady_typeParameter h) ?_ rfl rfl) fun _ => ?_
  · exact hregular.of_alike fun _ => Simulation.alike_typeParameter
  · exact steady_bind steady_closeAngle fun _ => steady_pure _

/-- What becomes of a rest parameter's type takes no tokens. -/
theorem steady_restType (position : Nat) (name : String) (declared : Option TypeExpr) :
    Steady (restType position name declared) := by
  rw [restType]
  split
  · exact steady_pure _
  · exact steady_bind (steady_remark _) fun _ => steady_pure _

/-- A parameter is read steadily. -/
theorem steady_parameter (h : type.Steady) : Steady (parameter type) :=
  steady_bind steady_position fun _ => steady_bind (steady_accept rfl) fun _ =>
    steady_bind steady_bindingName fun _ => steady_bind (steady_accept rfl) fun _ =>
      steady_bind (steady_typeAfter h rfl) fun _ =>
        steady_ite (steady_bind (steady_restType _ _ _) fun _ => steady_pure _) (steady_pure _)

/-- So is a parameter that may turn out to be a receiver. -/
theorem steady_parameterOrReceiver (h : type.Steady) : Steady (parameterOrReceiver type) := by
  refine steady_bind (steady_accept rfl) fun _ => steady_ite ?_ ?_
  · exact steady_bind (steady_expect rfl) fun _ => steady_bind h fun _ => steady_pure _
  · exact steady_bind (steady_parameter h) fun _ => steady_pure _

/-- Parameters with commas between them are read steadily, up to the closing parenthesis. -/
theorem steady_parameterItems (h : type.Steady) (hregular : type.Regular) :
    Steady (separatedUntil .parenClose (parameterOrReceiver type) (accept (.mark .comma))) :=
  steady_separatedUntil (steady_parameterOrReceiver h)
    (hregular.of_alike fun _ => Simulation.alike_parameterOrReceiver) rfl rfl rfl

/-- The parameters end at the parenthesis that closes the one they start with. -/
theorem ensures_parameters (h : type.Steady) (hregular : type.Regular) (stream : Stream) :
    (parameters type).Ensures stream fun _ rest => stream.next? = some (.mark .parenOpen)
      ∧ ∃ closing : Stream, stream.tail.Evenly closing
        ∧ closing.next? = some (.mark .parenClose) ∧ rest = closing.tail := by
  refine ensures_bind ((ensures_expect .parenOpen stream).imp fun _ rest hopen => ?_)
  obtain ⟨hnext, rfl⟩ := hopen
  exact (ensures_closed (steady_parameterItems h hregular).even _ stream.tail).imp
    fun _ _ hclosed => ⟨hnext, hclosed⟩

/-- Parameters are read steadily with their parentheses, which are taken as a pair. -/
theorem steady_parameters (h : type.Steady) (hregular : type.Regular) :
    Steady (parameters type) := by
  -- A parenthesis alone is not taken evenly, but the two of a list are.
  refine Even.steady (fun stream => ?_) ?_
  · refine (ensures_parameters h hregular stream).imp fun _ rest hclosed => ?_
    obtain ⟨hnext, closing, heven, hclose, rfl⟩ := hclosed
    exact Stream.evenly_parens hnext heven hclose
  · refine settles_bind (inside_expect (by decide)) fun _ => ?_
    refine settles_bind (steady_parameterItems h hregular).inside fun _ => ?_
    exact settles_bind (inside_expect (by decide)) fun _ => inside_pure _

/-- A signature is read steadily. -/
theorem steady_signature (h : type.Steady) (hregular : type.Regular) : Steady (signature type) :=
  steady_bind (steady_typeParameters h hregular) fun _ =>
    steady_bind (steady_parameters h hregular) fun _ =>
      steady_bind (steady_typeAfter h rfl) fun _ => steady_pure _

/-- So is the signature of a function type. -/
theorem steady_functionSignature (h : type.Steady) (hregular : type.Regular) :
    Steady (functionSignature type) :=
  steady_bind (steady_typeParameters h hregular) fun _ =>
    steady_bind (steady_parameters h hregular) fun _ =>
      steady_bind (steady_expect rfl) fun _ => steady_bind h fun _ => steady_pure _

/-! ### Members -/

/-- To decide whether the word `new` comes next and modifies a signature, and to take it then. -/
theorem steady_ifNew {one : Unit → Reader β} {other : Reader β} (hone : (one ()).Steady)
    (hother : other.Steady) :
    Steady (look Stream.next? >>= fun next => look Stream.second? >>= fun behind =>
      if (decide (next = some (.word .newWord)) && startsSignature behind) = true then skip >>= one
      else other) := by
  intro stream
  -- The word is no semicolon, so what comes second does not change either.
  have hfollowed : stream.Ended → ∀ more stop,
      ((stream.followed more stop).next? = some (.word .newWord)
        ∧ startsSignature (stream.followed more stop).second? = true
      ↔ stream.next? = some (.word .newWord) ∧ startsSignature stream.second? = true) := by
    intro hended more stop
    rw [Stream.next?_followed hended]
    refine and_congr_right fun hnext => ?_
    rw [Stream.second?_eq, Stream.second?_eq, Stream.tail_followed hended,
      Stream.next?_followed (hended.tail hnext (by decide))]
  have hreads : ∀ stream : Stream, (look Stream.next? >>= fun next => look Stream.second? >>=
      fun behind => if (decide (next = some (.word .newWord)) && startsSignature behind) = true then
        skip >>= one else other) stream
      = if stream.next? = some (.word .newWord) ∧ startsSignature stream.second? = true then
          (skip >>= one) stream else other stream := by
    intro stream
    rw [bind_of_ok rfl, bind_of_ok rfl]
    simp only [Bool.and_eq_true, decide_eq_true_eq]
    split <;> rfl
  -- Both branches are steady, and with more tokens it is the same one that is taken.
  by_cases hnew : stream.next? = some (.word .newWord) ∧ startsSignature stream.second? = true
  · refine (steadyAt_skip hnew.1 rfl (hone stream.tail)).congr ?_ fun hended more stop => ?_
    · rw [hreads, if_pos hnew]
    · rw [hreads, if_pos ((hfollowed hended more stop).mpr hnew)]
  · refine (hother stream).congr ?_ fun hended more stop => ?_
    · rw [hreads, if_neg hnew]
    · rw [hreads, if_neg fun hmore => hnew ((hfollowed hended more stop).mp hmore)]

/-- A member without its modifiers is read steadily, whichever form it has. -/
theorem steady_memberBody (h : type.Steady) (hregular : type.Regular) :
    Steady (memberBody type) := by
  have hsignature := steady_signature h hregular
  refine steady_bind (steady_accept rfl) fun _ => steady_ite ?_ ?_
  · exact steady_bind (steady_parameter h) fun _ => steady_bind (steady_expect rfl) fun _ =>
      steady_bind (steady_expect rfl) fun _ => steady_bind h fun _ => steady_pure _
  -- A call, a construct signature, and then what starts with the name of a property.
  refine steady_bind steady_next? fun _ =>
    steady_ite (steady_bind hsignature fun _ => steady_pure _) ?_
  refine steady_ifNew (steady_bind hsignature fun _ => steady_pure _) ?_
  refine steady_bind steady_propertyName fun _ => steady_bind (steady_accept rfl) fun _ => ?_
  refine steady_bind steady_next? fun _ =>
    steady_ite (steady_bind hsignature fun _ => steady_pure _) ?_
  exact steady_bind (steady_typeAfter h rfl) fun _ => steady_pure _

/-- A member is read steadily. -/
theorem steady_member (h : type.Steady) (hregular : type.Regular) : Steady (member type) :=
  steady_bind (steady_take cuts_splitModifiers) fun _ =>
    steady_bind (steady_memberBody h hregular) fun _ => steady_pure _

/-- The reader of members leaves no more tokens than it finds. -/
theorem regular_member (hregular : type.Regular) : Regular (member type) :=
  hregular.of_alike fun _ => Simulation.alike_member

/-! ### Members in braces -/

/-- To take semicolons is settled as long as another token comes behind them. -/
theorem loose_splitSemicolons : Loose (take splitSemicolons) := by
  intro stream hended more stop reading hread hleft
  cases hread
  -- Something other than a semicolon was left, so they all come before that.
  have hne : ((stream.tokens.dropWhile (·.lexeme == .mark .semicolon)).isEmpty) = false :=
    List.isEmpty_eq_false_iff.mpr hleft
  refine ⟨hended.of_suffix (List.dropWhile_suffix _) hleft, ?_⟩
  rw [take, splitSemicolons, Stream.followed, List.dropWhile_append, hne]
  rfl

/-- Semicolons are no parentheses. -/
theorem even_splitSemicolons : Even (take splitSemicolons) := by
  refine fun stream => ensures_take ?_
  have hsemicolons : ∀ token ∈ stream.tokens.takeWhile (·.lexeme == .mark .semicolon),
      token.lexeme ≠ .mark .parenOpen ∧ token.lexeme ≠ .mark .parenClose := by
    intro token hin
    have hlexeme := List.mem_takeWhile_imp hin
    rw [beq_iff_eq] at hlexeme
    rw [hlexeme]
    decide
  have heven := evenly_append hsemicolons (splitSemicolons stream.tokens).2 stream.stop
  rw [splitSemicolons, List.takeWhile_append_dropWhile] at heven
  exact heven

/-- The semicolon that separates members may be the last. -/
theorem loose_memberSeparator {next : Bool → Reader β} (hregular : ∀ found, (next found).Regular)
    (hnext : ∀ found, (next found).Loose) : Loose (memberSeparator >>= next) := by
  have htake : ∀ n, Simulation.same.Alike n (take splitSemicolons) (take splitSemicolons) :=
    fun _ => Simulation.alike_take (fun h => Simulation.respected_splitSemicolons h)
      Simulation.length_splitSemicolons_le
  have hsemicolons : Loose (take splitSemicolons >>= fun _ => next true) :=
    loose_bind loose_splitSemicolons (fun _ => hregular true) fun _ => hnext true
  have hregular' : Regular (take splitSemicolons >>= fun _ => next true) :=
    fun n => Simulation.alike_bind (htake n) fun _ => hregular true n
  have hcomma : ∀ comma : Bool, Regular (if comma then take splitSemicolons >>= fun _ => next true
      else next false) :=
    fun _ n => Simulation.alike_ite (hregular' n) (hregular false n)
  rw [Simulation.memberSeparator_bind]
  refine loose_bind (whole_accept _).loose (fun _ n => ?_) fun _ => settles_ite hsemicolons ?_
  · exact Simulation.alike_ite (hregular' n)
      (Simulation.alike_bind (Simulation.alike_acceptOnly rfl) fun comma => hcomma comma n)
  · exact loose_bind (whole_accept _).loose hcomma fun _ => settles_ite hsemicolons (hnext false)

/-- Neither the separator of members nor what follows it tears parentheses apart. -/
theorem even_memberSeparator {next : Bool → Reader β} (hnext : ∀ found, (next found).Even) :
    Even (memberSeparator >>= next) := by
  have hsemicolons : Even (take splitSemicolons >>= fun _ => next true) :=
    even_bind even_splitSemicolons fun _ => hnext true
  rw [Simulation.memberSeparator_bind]
  refine even_bind (even_accept (by decide) (by decide)) fun _ => even_ite hsemicolons ?_
  exact even_bind (even_accept (by decide) (by decide)) fun _ => even_ite hsemicolons (hnext false)

/-- Members up to a closing brace, which is not in front of the end yet. -/
theorem loose_membersUntil {item : Reader α} (h : item.Steady) (hregular : item.Regular) :
    Loose (separatedUntil .braceClose item memberSeparator) := by
  have hsame : ∀ {m : Nat} {more more' : Reader (List α)}, Simulation.same.Alike m more more' →
      Simulation.same.Alike (m + 1)
        (Simulation.separatedUntilBody .braceClose item memberSeparator more)
        (Simulation.separatedUntilBody .braceClose item memberSeparator more') := fun hmore =>
    Simulation.alike_separatedUntilBody rfl (Simulation.separates_memberSeparator _)
      (hregular _) hmore
  refine settles_recursive (fun reader => Loose reader ∧ Regular reader) hsame
    ⟨(inside_pure _).loose, fun _ => Simulation.alike_pure _⟩ (fun more hmore => ?_)
    fun _ hkept => hkept.1
  obtain ⟨hloose, hregularMore⟩ := hmore
  refine ⟨?_, fun n => (hsame (hregularMore n)).anti (Nat.le_succ n)⟩
  refine settles_bind inside_next? fun _ => settles_ite (inside_pure _).loose ?_
  -- A member never takes the last semicolon, but the separator behind it may.
  refine settles_bind h.inside fun first => loose_memberSeparator (fun _ n => ?_) fun _ => ?_
  · exact Simulation.alike_ite
      (Simulation.alike_bind (hregularMore n) fun _ => Simulation.alike_pure _)
      (Simulation.alike_pure _)
  · refine settles_ite (loose_bind hloose (fun _ _ => Simulation.alike_pure _) fun _ => ?_) ?_
    · exact (inside_pure _).loose
    · exact (inside_pure _).loose

/-- Members up to a brace take parentheses in pairs if each of them does. -/
theorem even_membersUntil {item : Reader α} (h : item.Even) :
    Even (separatedUntil .braceClose item memberSeparator) := by
  refine even_recursive (even_pure _) fun more hmore => even_bind (even_look _) fun _ => ?_
  refine even_ite (even_pure _) (even_bind h fun _ => even_memberSeparator fun _ => ?_)
  exact even_ite (even_bind hmore fun _ => even_pure _) (even_pure _)

/-- Members in braces are read steadily: the brace stands between their semicolons and the last
one. -/
theorem steady_members (h : type.Steady) (hregular : type.Regular) : Steady (members type) := by
  have hmember := steady_member h hregular
  have hloose := loose_membersUntil hmember (regular_member hregular)
  refine Even.steady ?_ ?_
  · refine even_bind (steady_expect rfl).even fun _ =>
      even_bind (even_membersUntil hmember.even) fun _ => ?_
    exact even_bind (steady_expect rfl).even fun _ => even_pure _
  -- The closing brace shows that something was left behind the members.
  · refine settles_bind (inside_expect (by decide)) fun _ => ?_
    exact settles_bind_expect hloose (by decide) fun _ => inside_pure _

/-! ### Types -/

/-- A name with dots is read steadily. -/
theorem steady_qualifiedName : Steady qualifiedName :=
  steady_bind steady_bindingName fun _ => steady_bind (steady_take cuts_splitDotted) fun _ =>
    steady_pure _

/-- The arguments of a type are read steadily. -/
theorem steady_typeArguments (h : type.Steady) (hregular : type.Regular) :
    Steady (typeArguments type) := by
  refine steady_bind (steady_accept rfl) fun _ => steady_ite ?_ (steady_pure _)
  exact steady_bind (steady_separated h hregular rfl rfl) fun _ =>
    steady_bind steady_closeAngle fun _ => steady_pure _

/-- A type that starts with a word is read steadily, whatever the word is. -/
theorem steadyAt_wordType (h : type.Steady) (hregular : type.Regular) {w : Word}
    (hnext : stream.next? = some (.word w)) : SteadyAt (wordType type w) stream := by
  have hskip : ∀ {next : Unit → Reader TypeExpr}, (next ()).Steady →
      SteadyAt (skip >>= next) stream :=
    fun hsteady => steadyAt_skip hnext rfl (hsteady stream.tail)
  have hsignature := steady_functionSignature h hregular
  cases w <;> first
    | exact hskip (steady_pure _)
    | exact hskip (steady_bind steady_qualifiedName fun _ => steady_pure _)
    | exact hskip (steady_bind hsignature fun _ => steady_pure _)
    | exact steady_fail _ stream

/-- A minus makes a literal of the number that comes second. -/
theorem steadyAt_minus (hnext : stream.next? = some (.mark .minus)) :
    SteadyAt (markType type .minus) stream := by
  refine steadyAt_look (fun hended more stop => ?_) ?_
  · rw [Stream.second?_eq, Stream.second?_eq, Stream.tail_followed hended,
      Stream.next?_followed (hended.tail hnext (by decide))]
  · split
    · rename_i text hnumber
      have hbehind : stream.tail.next? = some (.number text) := hnumber
      exact steadyAt_skip hnext rfl (steadyAt_skip hbehind rfl (steady_pure _ _))
    · exact steady_fail _ stream

/-- If the parenthesis is closed and an arrow comes behind it, it does so with more tokens too. -/
theorem closesBeforeArrow_append {depth : Nat} (h : closesBeforeArrow depth tokens = true)
    (more : List Token) : closesBeforeArrow depth (tokens ++ more) = true := by
  fun_induction closesBeforeArrow depth tokens with
  | case1 => cases h
  | case2 depth token rest hopen ih =>
    rw [List.cons_append, closesBeforeArrow, if_pos hopen]
    exact ih h
  | case3 depth token rest hopen hclose hdepth =>
    rw [List.cons_append, closesBeforeArrow, if_neg hopen, if_pos hclose, if_pos hdepth]
    cases rest with
    | nil => cases h
    | cons next rest => exact h
  | case4 depth token rest hopen hclose hdepth ih =>
    rw [List.cons_append, closesBeforeArrow, if_neg hopen, if_pos hclose, if_neg hdepth]
    exact ih h
  | case5 depth token rest hopen hclose ih =>
    rw [List.cons_append, closesBeforeArrow, if_neg hopen, if_neg hclose]
    exact ih h

/-- Where a type in parentheses is read, the parenthesis that closes it is the one looked for. -/
theorem ensures_parenthesized (h : type.Even) (hopen : stream.next? = some (.mark .parenOpen)) :
    Ensures (skip >>= fun _ => type >>= fun inner =>
      expect .parenClose >>= fun _ => pure (TypeExpr.parenthesized inner)) stream fun _ rest =>
      stream.Evenly rest ∧ opensFunctionType stream = (rest.next? == some (.mark .arrow)) := by
  refine ensures_bind
    (ensures_skip ((ensures_closed h _ stream.tail).imp fun _ rest hclosed => ?_))
  obtain ⟨closing, heven, hclose, rfl⟩ := hclosed
  exact ⟨Stream.evenly_parens hopen heven hclose,
    Stream.opensFunctionType_of_evenly hopen heven hclose⟩

/-- The search for an arrow behind a parenthesis may run over the end of the tokens, but its answer
does not depend on that where a type is read. -/
theorem steadyAt_parens (h : type.Steady) (hregular : type.Regular)
    (hnext : stream.next? = some (.mark .parenOpen)) :
    SteadyAt (markType type .parenOpen) stream := by
  have hfunction := steady_bind (steady_functionSignature h hregular) fun made =>
    steady_pure (TypeExpr.function made)
  have hinner : Inside (type >>= fun inner =>
      expect .parenClose >>= fun _ => pure (TypeExpr.parenthesized inner)) :=
    settles_bind h.inside fun _ => settles_bind (inside_expect (by decide)) fun _ => inside_pure _
  constructor
  · refine ensures_bind (ensures_look (ensures_ite (fun _ => hfunction.even stream) fun _ => ?_))
    exact (ensures_parenthesized h.even hnext).imp fun _ _ hrest => hrest.1
  · intro hended more stop reading hread _
    rw [markType, bind_of_ok rfl] at hread ⊢
    split at hread
    -- An arrow that was found is found again.
    · rename_i hopens
      have hopens' : opensFunctionType (stream.followed more stop) = true :=
        closesBeforeArrow_append hopens more
      rw [if_pos hopens']
      exact hfunction.inside stream hended more stop reading hread trivial
    -- If there was none, the closing parenthesis was found, and what comes behind it is the same.
    · rename_i hopens
      obtain ⟨hleft, hsame⟩ := settlesAt_skip hended
        (hinner stream.tail (hended.tail hnext (by decide))) more stop reading hread trivial
      have hhere := (ensures_parenthesized h.even hnext reading hread).2
      have hmore := (ensures_parenthesized h.even
        ((Stream.next?_followed hended).trans hnext) _ hsame).2
      have harrow : opensFunctionType (stream.followed more stop) = opensFunctionType stream := by
        rw [hmore, hhere]
        exact congrArg (· == _) (Stream.next?_followed hleft)
      rw [harrow, if_neg hopens]
      exact ⟨hleft, hsame⟩

/-- A type that starts with a mark is read steadily; a parenthesis is the case that takes a
search. -/
theorem steadyAt_markType (h : type.Steady) (hregular : type.Regular) {m : Mark}
    (hnext : stream.next? = some (.mark m)) : SteadyAt (markType type m) stream := by
  have hfunction := steady_bind (steady_functionSignature h hregular) fun made =>
    steady_pure (TypeExpr.function made)
  cases m with
  | minus => exact steadyAt_minus hnext
  | braceOpen => exact steady_bind (steady_members h hregular) (fun _ => steady_pure _) stream
  | bracketOpen =>
    refine steadyAt_skip hnext rfl (steady_bind ?_ (fun _ => ?_) stream.tail)
    · exact steady_separatedUntil h hregular rfl rfl rfl
    · exact steady_bind (steady_expect rfl) fun _ => steady_pure _
  | parenOpen => exact steadyAt_parens h hregular hnext
  | less => exact hfunction stream
  | _ => exact steady_fail _ stream

/-- A type without suffixes is read steadily. -/
theorem steady_primaryType (h : type.Steady) (hregular : type.Regular) :
    Steady (primaryType type) := by
  intro stream
  refine steadyAt_look (fun hended _ _ => Stream.next?_followed hended) ?_
  cases hnext : stream.next? with
  | none => exact steady_fail _ stream
  | some lexeme =>
    cases lexeme with
    | name text =>
      refine steady_bind steady_qualifiedName (fun _ => ?_) stream
      exact steady_bind (steady_typeArguments h hregular) fun _ => steady_pure _
    | word w => exact steadyAt_wordType h hregular hnext
    | mark m => exact steadyAt_markType h hregular hnext
    | string value => exact steadyAt_skip hnext rfl (steady_pure _ _)
    | number text => exact steadyAt_skip hnext rfl (steady_pure _ _)

/-- So is one with brackets behind it. -/
theorem steady_suffixedType (h : type.Steady) (hregular : type.Regular) :
    Steady (suffixedType type) :=
  steady_bind (steady_primaryType h hregular) fun _ =>
    steady_bind (steady_take cuts_splitBrackets) fun _ => steady_pure _

/-- So are types joined by `&`. -/
theorem steady_intersectionType (h : type.Steady) (hregular : type.Regular) :
    Steady (intersectionType type) :=
  steady_bind (steady_separated (steady_suffixedType h hregular)
    (hregular.of_alike fun _ => Simulation.alike_suffixedType) rfl rfl) fun _ => steady_pure _

/-- So are types joined by `|`. -/
theorem steady_unionType (h : type.Steady) (hregular : type.Regular) : Steady (unionType type) :=
  steady_bind (steady_accept rfl) fun _ =>
    steady_bind (steady_separated (steady_intersectionType h hregular)
      (hregular.of_alike fun _ => Simulation.alike_intersectionType) rfl rfl) fun _ => steady_pure _

/-- The reader of types leaves no more tokens than it finds. -/
theorem regular_typeReader : Regular TypeExpr.reader :=
  fun _ => Simulation.alike_typeReader

/-- What is read of a type is settled in front of a semicolon. -/
theorem steady_typeReader : Steady TypeExpr.reader := by
  refine steady_recursive (fun reader => Steady reader ∧ Regular reader) Simulation.alike_unionType
    ⟨steady_fail _, fun _ => Simulation.alike_fail _⟩ (fun type htype => ?_) fun _ hkept => hkept.1
  exact ⟨steady_unionType htype.1 htype.2, htype.2.of_alike fun _ => Simulation.alike_unionType⟩

end Reader

end Facade
