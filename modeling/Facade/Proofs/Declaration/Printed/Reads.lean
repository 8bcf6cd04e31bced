import Facade.Proofs.Declaration.Formed

/-!
# Readers on known lexemes

The other direction of a reader: `Reads reader lexemes value follow` says that the reader takes
tokens with these lexemes off any stream, whatever comes behind them as long as `follow` holds of
what comes first there, and answers with the value and without remarks. The places of the tokens
do not matter.

There is one rule for each of the small readers that the grammar is put together from. A rule for
two readers in a row (`Reads.bind`) asks that what the second one takes may follow the first, so
the sets of what may follow go through the grammar from right to left, as they do in the
construction of parsers.
-/

set_option autoImplicit false

namespace Facade

/-! ### Tokens in front of a stream -/

/-- A stream with some tokens in front. -/
def Stream.prepend (tokens : List Token) (rest : Stream) : Stream :=
  ⟨tokens ++ rest.tokens, rest.stop⟩

namespace Stream

variable (rest : Stream)

/-- No tokens in front leave the stream. -/
theorem prepend_nil : rest.prepend [] = rest := rfl

/-- Tokens in two parts stand in front one part behind the other. -/
theorem prepend_append (first second : List Token) :
    rest.prepend (first ++ second) = (rest.prepend second).prepend first :=
  congrArg (Stream.mk · rest.stop) (List.append_assoc first second rest.tokens)

/-- What comes next is the first of the tokens in front, if there is one. -/
theorem next?_prepend (tokens : List Token) :
    (rest.prepend tokens).next? = (tokens.map Token.lexeme).head?.or rest.next? := by
  cases tokens with
  | nil => exact (Option.none_or).symm
  | cons token more => rfl

end Stream

namespace Reader

variable {α β : Type} {reader reader' : Reader α} {next : α → Reader β}
variable {lexemes lexemes' : List Lexeme} {value : α} {result : β}
variable {follow follow' : Option Lexeme → Prop}

/-- The reader takes tokens with some lexemes, in front of anything that may follow them, and
answers with a value. -/
def Reads (reader : Reader α) (lexemes : List Lexeme) (value : α) (follow : Option Lexeme → Prop) :
    Prop :=
  ∀ (tokens : List Token) (rest : Stream), tokens.map Token.lexeme = lexemes → follow rest.next? →
    reader (rest.prepend tokens) = .ok ⟨value, [], rest⟩

/-- None of some marks comes next. -/
def Off (marks : List Mark) (next : Option Lexeme) : Prop :=
  ∀ mark ∈ marks, next ≠ some (.mark mark)

/-- Whether one of some marks comes next is decided by looking. -/
instance (marks : List Mark) (next : Option Lexeme) : Decidable (Off marks next) :=
  inferInstanceAs (Decidable (∀ mark ∈ marks, next ≠ some (.mark mark)))

/-- Where none of some marks comes next, none of a part of them does. -/
theorem Off.mono {marks marks' : List Mark} {next : Option Lexeme} (h : Off marks next)
    (hsubset : marks' ⊆ marks) : Off marks' next :=
  fun mark hin => h mark (hsubset hin)

/-! ### Readers in a row -/

/-- A reader that reads in front of some tokens reads in front of some of these. -/
theorem Reads.mono (h : Reads reader lexemes value follow)
    (hfollow : ∀ next, follow' next → follow next) : Reads reader lexemes value follow' :=
  fun tokens rest htokens hrest => h tokens rest htokens (hfollow _ hrest)

/-- A reader that answers the same reads the same. -/
theorem Reads.congr (h : Reads reader lexemes value follow)
    (heq : ∀ stream, reader' stream = reader stream) : Reads reader' lexemes value follow :=
  fun tokens rest htokens hrest => (heq _).trans (h tokens rest htokens hrest)

/-- A value by itself is read from no lexemes. -/
theorem reads_pure (value : α) (follow : Option Lexeme → Prop) :
    Reads (pure value) [] value follow := by
  intro tokens rest htokens _
  cases List.map_eq_nil_iff.mp htokens
  rfl

/-- What the second reader takes has to be something that may follow the first. -/
theorem Reads.bind (h : Reads reader lexemes value follow)
    (hnext : Reads (next value) lexemes' result follow')
    (hfollow : ∀ behind, follow' behind → follow (lexemes'.head?.or behind)) :
    Reads (reader >>= next) (lexemes ++ lexemes') result follow' := by
  intro tokens rest htokens hrest
  obtain ⟨first, second, rfl, hfirst, hsecond⟩ := List.map_eq_append_iff.mp htokens
  have hbehind : follow (rest.prepend second).next? := by
    rw [Stream.next?_prepend, hsecond]
    exact hfollow _ hrest
  rw [Stream.prepend_append, bind_of_ok (h first _ hfirst hbehind)]
  exact hnext second rest hsecond hrest

/-- A reader that takes nothing comes first. -/
theorem Reads.bind_nil (h : Reads reader [] value follow)
    (hnext : Reads (next value) lexemes result follow')
    (hfollow : ∀ behind, follow' behind → follow (lexemes.head?.or behind)) :
    Reads (reader >>= next) lexemes result follow' :=
  h.bind hnext hfollow

/-- The value of the last reader is put into the answer. -/
theorem Reads.bind_pure {f : α → β} (h : Reads reader lexemes value follow) :
    Reads (reader >>= fun value => pure (f value)) lexemes (f value) follow := by
  rw [← List.append_nil lexemes]
  refine h.bind (reads_pure _ follow) fun behind hbehind => ?_
  rw [List.head?_nil, Option.none_or]
  exact hbehind

/-- What is made of a value is read like the value. -/
theorem Reads.map {f : α → β} (h : Reads reader lexemes value follow) :
    Reads (f <$> reader) lexemes (f value) follow :=
  h.bind_pure

/-! ### Single tokens -/

/-- A look at the stream, where it is known what will be seen. -/
theorem reads_look {γ : Type} {f : Stream → γ} {read : γ → Reader β} (known : γ)
    (hlook : ∀ (tokens : List Token) (rest : Stream), tokens.map Token.lexeme = lexemes →
      follow rest.next? → f (rest.prepend tokens) = known)
    (h : Reads (read known) lexemes result follow) :
    Reads (look f >>= read) lexemes result follow := by
  intro tokens rest htokens hrest
  rw [bind_of_ok rfl, hlook tokens rest htokens hrest]
  exact h tokens rest htokens hrest

/-- A look at the next token. -/
theorem reads_next {read : Option Lexeme → Reader β} {lexeme : Lexeme}
    (h : Reads (read (some lexeme)) (lexeme :: lexemes) result follow) :
    Reads (look Stream.next? >>= read) (lexeme :: lexemes) result follow := by
  refine reads_look _ (fun tokens rest htokens _ => ?_) h
  rw [Stream.next?_prepend, htokens]
  rfl

/-- A look at the next token, which may be the one behind what is read. -/
theorem reads_nextOr {read : Option Lexeme → Reader β} {behind : Lexeme}
    (h : Reads (read (lexemes.head?.or (some behind))) lexemes result
      fun next => next = some behind) :
    Reads (look Stream.next? >>= read) lexemes result fun next => next = some behind := by
  refine reads_look _ (fun tokens rest htokens hrest => ?_) h
  rw [Stream.next?_prepend, htokens, hrest]

/-- A look at where the stream stands, which makes no difference. -/
theorem reads_position {read : Nat → Reader β}
    (h : ∀ position, Reads (read position) lexemes result follow) :
    Reads (look Stream.position >>= read) lexemes result follow := by
  intro tokens rest htokens hrest
  rw [bind_of_ok rfl]
  exact h _ tokens rest htokens hrest

/-- A look at what comes behind the next token. -/
theorem reads_second {read : Option Lexeme → Reader β} {first behind : Lexeme}
    (h : Reads (read (lexemes.head?.or (some behind))) (first :: lexemes) result
      fun next => next = some behind) :
    Reads (look Stream.second? >>= read) (first :: lexemes) result
      fun next => next = some behind := by
  refine reads_look _ (fun tokens rest htokens hrest => ?_) h
  match tokens with
  | token :: more =>
    show (rest.prepend more).next? = _
    rw [Stream.next?_prepend, hrest, (List.cons.inj htokens).2]

/-- To go on by one token reads any lexeme. -/
theorem reads_skip (lexeme : Lexeme) : Reads skip [lexeme] () fun _ => True := by
  intro tokens rest htokens _
  match tokens with
  | [token] => rfl

/-- To take a lexeme if it comes next reads it. -/
theorem reads_accept (lexeme : Lexeme) : Reads (accept lexeme) [lexeme] true fun _ => True := by
  intro tokens rest htokens _
  match tokens with
  | [token] =>
    have hnext : (rest.prepend [token]).next? = some lexeme :=
      congrArg some (List.cons.inj htokens).1
    rw [accept, if_pos hnext]
    rfl

/-- In front of another lexeme, it reads none. -/
theorem reads_acceptNot (lexeme : Lexeme) :
    Reads (accept lexeme) [] false fun next => next ≠ some lexeme := by
  intro tokens rest htokens hrest
  cases List.map_eq_nil_iff.mp htokens
  rw [Stream.prepend_nil, accept, if_neg hrest]

/-- To go on behind a lexeme that is there. -/
theorem Reads.of_accept {lexeme : Lexeme} {one other : Reader β}
    (h : Reads one lexemes result follow) :
    Reads (accept lexeme >>= fun found => if found then one else other) (lexeme :: lexemes) result
      follow :=
  (reads_accept lexeme).bind h fun _ _ => trivial

/-- To go on where a lexeme is not there. -/
theorem Reads.of_acceptNot {lexeme : Lexeme} {one other : Reader β}
    (h : Reads other lexemes result follow)
    (hne : ∀ behind, follow behind → lexemes.head?.or behind ≠ some lexeme) :
    Reads (accept lexeme >>= fun found => if found then one else other) lexemes result follow :=
  (reads_acceptNot lexeme).bind_nil h hne

/-- To take a mark that has to come next reads it. -/
theorem reads_expect (mark : Mark) : Reads (expect mark) [.mark mark] () fun _ => True :=
  (reads_accept (.mark mark)).bind (reads_pure () fun _ => True) fun _ _ => trivial

/-- To take a lexeme that some value can be made of reads it. -/
theorem reads_expectSome {wanted : Wanted} {f : Lexeme → Option α} {lexeme : Lexeme}
    (h : f lexeme = some value) : Reads (expectSome wanted f) [lexeme] value fun _ => True := by
  intro tokens rest htokens _
  match tokens with
  | [token] =>
    have hfound : (rest.prepend [token]).next?.bind f = some value := by
      cases (List.cons.inj htokens).1
      exact h
    rw [expectSome_eq, hfound]
    rfl

/-- To close an angle bracket reads the mark of one. -/
theorem reads_closeAngle : Reads closeAngle [.mark .greater] () fun _ => True := by
  intro tokens rest htokens _
  match tokens with
  | [⟨lexeme, start, stop⟩] =>
    cases (List.cons.inj htokens).1
    rfl

/-- What a function takes off the tokens. -/
theorem reads_take {f : List Token → α × List Token}
    (h : ∀ (tokens : List Token) (rest : Stream), tokens.map Token.lexeme = lexemes →
      follow rest.next? → f (tokens ++ rest.tokens) = (value, rest.tokens)) :
    Reads (take f) lexemes value follow := by
  intro tokens rest htokens hrest
  rw [take, Stream.prepend]
  dsimp only
  rw [h tokens rest htokens hrest]

/-! ### Lists -/

/-- Lexemes of items, each of which is read in front of a separator, but for the last one. -/
inductive ReadsItems (item : Reader α) (separator : Mark) (follow : Option Lexeme → Prop) :
    List α → List (List Lexeme) → Prop where
  | last {value : α} {lexemes : List Lexeme} :
      Reads item lexemes value follow → ReadsItems item separator follow [value] [lexemes]
  | more {value : α} {lexemes : List Lexeme} {values : List α} {others : List (List Lexeme)} :
      Reads item lexemes value (fun next => next = some (.mark separator)) →
      ReadsItems item separator follow values others →
      ReadsItems item separator follow (value :: values) (lexemes :: others)

/-- There is one item at least. -/
theorem ReadsItems.exists_cons {item : Reader α} {separator : Mark} {values : List α}
    {all : List (List Lexeme)} (h : ReadsItems item separator follow values all) :
    ∃ first rest, all = first :: rest := by
  cases h with
  | last => exact ⟨_, _, rfl⟩
  | more => exact ⟨_, _, rfl⟩

/-- Items that are read in front of a separator and in front of whatever may follow the last one. -/
theorem readsItems_of_forall₂ {item : Reader α} {separator : Mark} {values : List α}
    {all : List (List Lexeme)} (hne : values ≠ [])
    (h : List.Forall₂ (fun value lexemes => Reads item lexemes value follow) values all)
    (hseparator : follow (some (.mark separator))) (hfollow : ∀ next, follow' next → follow next) :
    ReadsItems item separator follow' values all := by
  induction h with
  | nil => exact absurd rfl hne
  | @cons value lexemes values others hitem hrest ih =>
    cases hrest with
    | nil => exact .last (hitem.mono hfollow)
    | cons hnext hmore =>
      exact .more (hitem.mono fun _ heq => heq ▸ hseparator) (ih (List.cons_ne_nil _ _))

/-- Items with a mark between them read the lexemes of the items with that mark between. -/
theorem reads_separated {item : Reader α} {separator : Mark} {values : List α}
    {all : List (List Lexeme)} (hangle : (Lexeme.mark separator).isAngle = false)
    (hregular : item.Regular) (h : ReadsItems item separator follow values all)
    (hfollow : ∀ next, follow next → next ≠ some (.mark separator)) :
    Reads (separated item separator) (List.intercalate [.mark separator] all) values follow := by
  induction h with
  | @last value lexemes hitem =>
    refine Reads.congr ?_ (Simulation.separated_eq hangle hregular)
    rw [List.intercalate_singleton, ← List.append_nil lexemes]
    refine hitem.bind (.of_acceptNot (reads_pure [value] follow) fun next hnext => ?_)
      fun next hnext => ?_
    · exact hfollow next hnext
    · exact hnext
  | @more value lexemes values others hitem hmore ih =>
    refine Reads.congr ?_ (Simulation.separated_eq hangle hregular)
    obtain ⟨first, rest, rfl⟩ := hmore.exists_cons
    rw [List.intercalate_cons_cons, List.append_assoc]
    refine hitem.bind (.of_accept ih.bind_pure) fun _ _ => ?_
    rfl

variable {close : Mark} {item : Reader α} {separator : Reader Bool}

/-- In front of the closing mark there is no item. -/
theorem reads_separatedUntil_nil (hclose : (Lexeme.mark close).isAngle = false)
    (hseparator : Simulation.same.Separates separator) (hregular : item.Regular) :
    Reads (separatedUntil close item separator) [] []
      fun next => next = some (.mark close) := by
  refine Reads.congr ?_ (Simulation.separatedUntil_eq hclose hseparator hregular)
  intro tokens rest htokens hrest
  cases List.map_eq_nil_iff.mp htokens
  rw [Stream.prepend_nil, Simulation.separatedUntilBody, bind_eq, look]
  dsimp only
  rw [if_pos hrest]
  rfl

/-- One item and those behind a separator. -/
theorem reads_separatedUntil_cons {values : List α} {first : Lexeme} {between more : List Lexeme}
    (hclose : (Lexeme.mark close).isAngle = false)
    (hseparator : Simulation.same.Separates separator) (hregular : item.Regular)
    (hitem : Reads item (first :: lexemes) value follow) (hfirst : first ≠ .mark close)
    (hbetween : Reads separator between true follow')
    (hmore : Reads (separatedUntil close item separator) more values
      fun next => next = some (.mark close))
    (hbetween_follow : follow' (more.head?.or (some (.mark close))))
    (hfollow : follow ((between ++ more).head?.or (some (.mark close)))) :
    Reads (separatedUntil close item separator) ((first :: lexemes) ++ (between ++ more))
      (value :: values) fun next => next = some (.mark close) := by
  refine Reads.congr ?_ (Simulation.separatedUntil_eq hclose hseparator hregular)
  refine reads_next ?_
  rw [if_neg fun heq => hfirst (Option.some.inj heq)]
  show Reads _ ((first :: lexemes) ++ (between ++ more)) _ _
  refine hitem.bind (hbetween.bind hmore.bind_pure ?_) ?_
  · rintro _ rfl
    exact hbetween_follow
  · rintro _ rfl
    exact hfollow

/-- The last item without a separator behind it. -/
theorem reads_separatedUntil_last {first : Lexeme}
    (hclose : (Lexeme.mark close).isAngle = false)
    (hseparator : Simulation.same.Separates separator) (hregular : item.Regular)
    (hitem : Reads item (first :: lexemes) value follow) (hfirst : first ≠ .mark close)
    (hnone : Reads separator [] false fun next => next = some (.mark close))
    (hfollow : follow (some (.mark close))) :
    Reads (separatedUntil close item separator) (first :: lexemes) [value]
      fun next => next = some (.mark close) := by
  refine Reads.congr ?_ (Simulation.separatedUntil_eq hclose hseparator hregular)
  refine reads_next ?_
  rw [if_neg fun heq => hfirst (Option.some.inj heq), ← List.append_nil (first :: lexemes)]
  refine hitem.bind (hnone.bind_nil (reads_pure [value] _) fun _ heq => heq) ?_
  rintro _ rfl
  exact hfollow

end Reader

end Facade
