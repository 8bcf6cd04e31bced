import Facade.Proofs.Declaration.PlacedParameters
import Facade.Proofs.Declaration.Progress

/-!
# Readers and the dots that they take

A reader `Tallies` if, wherever it answers, some parameters in their places account for the remarks
that it leaves and for the dots that it takes, and are those of its value. The exception are
receivers, since the type of a receiver is read over with all parameters inside of it; so nothing is
claimed in front of the last place where a list of parameters with a receiver can be read
(`Receives`). Most readers of tokens are `Silent`: no parameters are needed for what they take.
There is one rule for each way to build a reader, and then one lemma for each part of the grammar.
-/

set_option autoImplicit false

namespace Facade

variable {all : List Token}

namespace Reader

/-! ### Receivers -/

/-- Parameters in parentheses, with nothing in the place of each receiver. -/
def parameterList (type : Reader TypeExpr) : Reader (List (Option Parameter)) := do
  expect .parenOpen
  let all ← separatedUntil .parenClose (parameterOrReceiver type) (accept (.mark .comma))
  expect .parenClose
  return all

/-- The parameters that are read are those of the list, without the receivers. -/
theorem parameters_eq (type : Reader TypeExpr) :
    parameters type = parameterList type >>= fun all => pure (all.filterMap id) := by
  simp only [parameters, parameterList, bind_assoc, pure_bind]

/-- At a place of the tokens, in front of the last few of them, a list of parameters is read that
has a receiver. A receiver is the word `this` with a colon, which no type starts with, so the round
brackets there are not those around a type. -/
def Receives (all : List Token) (last : Nat) : Prop :=
  ∃ place reading, place.tokens <:+ all ∧ last < place.size
    ∧ parameterList TypeExpr.reader place = .ok reading ∧ none ∈ reading.value

/-- A receiver in front of the last few tokens stands in front of fewer of them as well. -/
theorem Receives.mono {last last' : Nat} (h : Receives all last) (hle : last' ≤ last) :
    Receives all last' := by
  obtain ⟨place, reading, hplace, hlt, hread⟩ := h
  exact ⟨place, reading, hplace, Nat.lt_of_le_of_lt hle hlt, hread⟩

variable {type type' : Reader TypeExpr}

/-- A list of parameters is read the same if their types are. -/
theorem follows_parameterList (h : type.Follows id type') :
    (parameterList type).Follows id (parameterList type') := by
  have hparameter : (parameter type).Follows id (parameter type') := by
    rw [parameter_eq, parameter_eq]
    exact .bind (.refl _) fun _ => .bind (follows_writtenParameter h) fun _ => .refl _
  have hitem : (parameterOrReceiver type).Follows id (parameterOrReceiver type') :=
    .bind (.refl _) fun _ => .ite (.bind (.refl _) fun _ => .bind h fun _ => follows_pure rfl)
      (.bind hparameter fun _ => follows_pure rfl)
  exact .bind (.refl _) fun _ => .bind (follows_separatedUntil hitem) fun all =>
    .bind (.refl _) fun _ => follows_pure (List.map_id all)

/-! ### Readers that take no dots -/

variable {α β : Type}

/-- A reader that takes tokens other than dots, and leaves no remark. -/
def Silent (all : List Token) (reader : Reader α) : Prop :=
  ∀ stream : Stream, stream.Inside all → ∀ reading, reader stream = .ok reading →
    reading.rest.Inside all ∧ reading.rest.size ≤ stream.size ∧ reading.lost = []
      ∧ dotsOf reading.rest.tokens = dotsOf stream.tokens

section

variable {reader : Reader α}

/-- A value that takes no tokens takes no dots. -/
theorem silent_pure (value : α) : Silent all (pure value) := by
  intro stream hs reading hread
  cases hread
  exact ⟨hs, Nat.le_refl _, rfl, rfl⟩

/-- A reader that fails takes nothing. -/
theorem silent_fail (wanted : Wanted) : Silent all (fail wanted : Reader α) :=
  fun _ _ _ hread => by cases hread

/-- Silent readers are silent one after the other. -/
theorem silent_bind {next : α → Reader β} (h : reader.Silent all)
    (hnext : ∀ value, (next value).Silent all) : Silent all (reader >>= next) := by
  intro stream hs reading hread
  obtain ⟨first, second, hfirst, hsecond, rfl⟩ := bind_eq_ok.mp hread
  obtain ⟨hinside, hle, hlost, hdots⟩ := h stream hs first hfirst
  obtain ⟨hinside', hle', hlost', hdots'⟩ := hnext _ _ hinside second hsecond
  exact ⟨hinside', hle'.trans hle, List.append_eq_nil_iff.mpr ⟨hlost, hlost'⟩, hdots'.trans hdots⟩

/-- A choice between two silent readers is silent. -/
theorem silent_ite {condition : Prop} [Decidable condition] {other : Reader α}
    (h : reader.Silent all) (hother : other.Silent all) :
    Silent all (if condition then reader else other) := by
  split
  · exact h
  · exact hother

/-- To take a lexeme other than dots is silent. -/
theorem silent_accept {lexeme : Lexeme} (h : lexeme ≠ .mark .ellipsis) :
    (accept lexeme).Silent all := by
  intro stream hs reading hread
  rw [accept] at hread
  split at hread
  · rename_i hnext
    cases hread
    exact ⟨hs.tail, Nat.le_of_lt (Stream.size_tail_lt hnext), rfl, dotsOf_tail hnext h⟩
  · cases hread
    exact ⟨hs, Nat.le_refl _, rfl, rfl⟩

/-- To take a mark other than dots is silent. -/
theorem silent_expect {mark : Mark} (h : mark ≠ .ellipsis) : (expect mark).Silent all :=
  silent_bind (silent_accept fun heq => h (by injections)) fun _ =>
    silent_ite (silent_pure _) (silent_fail _)

/-- To take a lexeme that a function has an answer for is silent, if it has none for dots. -/
theorem silent_expectSome {wanted : Wanted} {f : Lexeme → Option α}
    (h : f (.mark .ellipsis) = none) : (expectSome wanted f).Silent all := by
  intro stream hs reading hread
  obtain ⟨lexeme, value, hnext, hf, rfl⟩ := expectSome_eq_ok.mp hread
  refine ⟨hs.tail, Nat.le_of_lt (Stream.size_tail_lt hnext), rfl, dotsOf_tail hnext ?_⟩
  rintro rfl
  cases h.symm.trans hf

/-- To take tokens off the front is silent if there are no dots among them. -/
theorem silent_take {f : List Token → α × List Token}
    (hsuffix : ∀ tokens, (f tokens).2 <:+ tokens)
    (hdots : ∀ tokens, dotsOf (f tokens).2 = dotsOf tokens) : (take f).Silent all := by
  intro stream hs reading hread
  cases hread
  exact ⟨hs.of_suffix (hsuffix _), (hsuffix _).length_le, rfl, hdots _⟩

/-- To take a single `>` is silent. -/
theorem silent_closeAngle : closeAngle.Silent all := by
  intro stream hs reading hread
  obtain ⟨hangle, rfl⟩ := closeAngle_eq_ok.mp hread
  exact ⟨hs.behindAngle, stream.size_behindAngle_le, rfl, dotsOf_behindAngle hangle⟩

/-- A recursive reader is silent if its body is, as long as its calls are. -/
theorem silent_recursive {stuck : Reader α} {body : Reader α → Reader α}
    (hstuck : stuck.Silent all)
    (hbody : ∀ more : Reader α, more.Silent all → (body more).Silent all) :
    (recursive stuck body).Silent all :=
  fun stream => nested_induction (Silent all) hstuck hbody stream.tokens stream

/-- A list of silent items is silent, if its separator is not dots. -/
theorem silent_separated {separator : Mark} (h : reader.Silent all) (hne : separator ≠ .ellipsis) :
    (separated reader separator).Silent all :=
  silent_recursive (silent_pure _) fun _ hmore => silent_bind h fun _ =>
    silent_bind (silent_accept fun heq => hne (by injections)) fun _ =>
      silent_ite (silent_bind hmore fun _ => silent_pure _) (silent_pure _)

end

/-! ### Rules -/

/-- If the reader answers at the stream, then some parameters account for what it takes and keep to
a condition together with its value, unless there is a receiver. -/
def TalliesAt (all : List Token) (reader : Reader α) (stream : Stream)
    (post : α → List PlacedParameter → Prop) : Prop :=
  ∀ reading, reader stream = .ok reading → reading.rest.Inside all
    ∧ reading.rest.size ≤ stream.size
    ∧ (¬ Receives all reading.rest.size →
        ∃ placed, Tally all (dotsOf stream.tokens) (dotsOf reading.rest.tokens) reading.lost placed
          ∧ post reading.value placed)

/-- So it is at every stream inside of the tokens. -/
def Tallies (all : List Token) (reader : Reader α) (post : α → List PlacedParameter → Prop) :
    Prop :=
  ∀ stream : Stream, stream.Inside all → reader.TalliesAt all stream post

section

variable {reader : Reader α} {next : α → Reader β} {stream : Stream}
  {post : α → List PlacedParameter → Prop} {post' : β → List PlacedParameter → Prop}

/-- A value that takes no tokens needs no parameters. -/
theorem talliesAt_pure {value : α} (h : post value []) (hs : stream.Inside all) :
    TalliesAt all (pure value) stream post := by
  intro reading hread
  cases hread
  exact ⟨hs, Nat.le_refl _, fun _ => ⟨[], tally_nil rfl, h⟩⟩

/-- So it is at every stream. -/
theorem tallies_pure {value : α} (h : post value []) : Tallies all (pure value) post :=
  fun _ hs => talliesAt_pure h hs

/-- A reader that fails needs no parameters. -/
theorem tallies_fail (wanted : Wanted) : Tallies all (fail wanted) post :=
  fun _ _ _ hread => by cases hread

/-- Readers tally one after the other: the parameters of the second come behind those of the
first. -/
theorem talliesAt_bind (h : reader.TalliesAt all stream post)
    (hnext : ∀ value, (next value).Tallies all fun found more =>
      ∀ placed, post value placed → post' found (placed ++ more)) :
    TalliesAt all (reader >>= next) stream post' := by
  intro reading hread
  obtain ⟨first, second, hfirst, hsecond, rfl⟩ := bind_eq_ok.mp hread
  obtain ⟨hinside, hle, hplaced⟩ := h first hfirst
  obtain ⟨hinside', hle', hmore⟩ := hnext first.value first.rest hinside second hsecond
  refine ⟨hinside', hle'.trans hle, fun hreceives => ?_⟩
  -- A receiver in front of what the first one leaves is in front of what both leave.
  obtain ⟨placed, htally, hpost⟩ := hplaced fun hbefore => hreceives (hbefore.mono hle')
  obtain ⟨more, htally', hpost'⟩ := hmore hreceives
  exact ⟨placed ++ more, htally.append htally', hpost' placed hpost⟩

/-- So they do from every stream. -/
theorem tallies_bind (h : reader.Tallies all post)
    (hnext : ∀ value, (next value).Tallies all fun found more =>
      ∀ placed, post value placed → post' found (placed ++ more)) :
    Tallies all (reader >>= next) post' :=
  fun stream hs => talliesAt_bind (h stream hs) hnext

/-- For what a reader takes that takes no dots, there need not be any parameters. -/
theorem tallies_behind (h : reader.Silent all) (hnext : ∀ value, (next value).Tallies all post') :
    Tallies all (reader >>= next) post' := by
  intro stream hs reading hread
  obtain ⟨first, second, hfirst, hsecond, rfl⟩ := bind_eq_ok.mp hread
  obtain ⟨hinside, hle, hlost, hdots⟩ := h stream hs first hfirst
  obtain ⟨hinside', hle', hplaced⟩ := hnext first.value first.rest hinside second hsecond
  refine ⟨hinside', hle'.trans hle, fun hreceives => ?_⟩
  obtain ⟨placed, htally, hpost⟩ := hplaced hreceives
  rw [hlost]
  exact ⟨placed, (tally_nil hdots).append htally, hpost⟩

/-- A reader whose value is only put into another. -/
theorem tallies_map {f : α → β} (h : reader.Tallies all post)
    (hf : ∀ value placed, post value placed → post' (f value) placed) :
    Tallies all (reader >>= fun value => pure (f value)) post' :=
  tallies_bind h fun value => tallies_pure fun placed hpost => by
    rw [List.append_nil]
    exact hf value placed hpost

/-- A reader whose value is put into another behind a closing mark. -/
theorem tallies_closed {close : Reader Unit} {f : α → β} (h : reader.Tallies all post)
    (hclose : close.Silent all) (hf : ∀ value placed, post value placed → post' (f value) placed) :
    Tallies all (reader >>= fun value => close >>= fun _ => pure (f value)) post' :=
  tallies_bind h fun value => tallies_behind hclose fun _ => tallies_pure fun placed hpost => by
    rw [List.append_nil]
    exact hf value placed hpost

/-- A choice between two readers tallies what both of them do. -/
theorem tallies_ite {condition : Prop} [Decidable condition] {other : Reader α}
    (h : reader.Tallies all post) (hother : other.Tallies all post) :
    Tallies all (if condition then reader else other) post := by
  split
  · exact h
  · exact hother

/-- To look at the stream leaves the account to the reader that goes on. -/
theorem talliesAt_look {f : Stream → α} (h : (next (f stream)).TalliesAt all stream post') :
    TalliesAt all (look f >>= next) stream post' := by
  intro reading hread
  rw [bind_of_ok rfl] at hread
  exact h reading hread

/-- So it does from every stream. -/
theorem tallies_look {f : Stream → α} (h : ∀ value, (next value).Tallies all post') :
    Tallies all (look f >>= next) post' :=
  fun stream hs => talliesAt_look (h _ stream hs)

/-- To take the next token, which is known not to be dots. -/
theorem talliesAt_skip {next : Unit → Reader β} {lexeme : Lexeme}
    (hnext : stream.next? = some lexeme) (hne : lexeme ≠ .mark .ellipsis)
    (h : (next ()).TalliesAt all stream.tail post') :
    TalliesAt all (skip >>= next) stream post' := by
  intro reading hread
  rw [skip_bind] at hread
  obtain ⟨hinside, hle, hplaced⟩ := h reading hread
  refine ⟨hinside, hle.trans (Nat.le_of_lt (Stream.size_tail_lt hnext)), fun hreceives => ?_⟩
  obtain ⟨placed, htally, hpost⟩ := hplaced hreceives
  exact ⟨placed, (tally_nil (dotsOf_tail hnext hne)).append htally, hpost⟩

/-- A recursive reader tallies what its body does, as long as its calls do. -/
theorem tallies_recursive {stuck : Reader α} {body : Reader α → Reader α}
    (hstuck : stuck.Tallies all post)
    (hbody : ∀ more : Reader α, more.Tallies all post → (body more).Tallies all post) :
    (recursive stuck body).Tallies all post :=
  fun stream => nested_induction (Tallies all · post) hstuck hbody stream.tokens stream

end

section

variable {item : Reader α} {post : α → List PlacedParameter → Prop}
  {posts : List α → List PlacedParameter → Prop}

/-- In a list with separators, the parameters of the items come one after the other. -/
theorem tallies_separated (h : item.Tallies all post) (hnil : posts [] [])
    (hcons : ∀ {first placed rest more}, post first placed → posts rest more →
      posts (first :: rest) (placed ++ more)) {separator : Mark} (hne : separator ≠ .ellipsis) :
    (separated item separator).Tallies all posts := by
  refine tallies_recursive (tallies_pure hnil) fun more hmore => tallies_bind h fun first =>
    tallies_behind (silent_accept fun heq => hne (by injections)) fun _ => tallies_ite ?_ ?_
  · exact tallies_map hmore fun rest placed hrest _ hfirst => hcons hfirst hrest
  · exact tallies_pure fun _ hfirst => hcons hfirst hnil

/-- So they do in a list up to a closing mark. -/
theorem tallies_separatedUntil {close : Mark} {separator : Reader Bool} (h : item.Tallies all post)
    (hseparator : separator.Silent all) (hnil : posts [] [])
    (hcons : ∀ {first placed rest more}, post first placed → posts rest more →
      posts (first :: rest) (placed ++ more)) :
    (separatedUntil close item separator).Tallies all posts := by
  refine tallies_recursive (tallies_pure hnil) fun more hmore => tallies_look fun _ =>
    tallies_ite (tallies_pure hnil) (tallies_bind h fun first =>
      tallies_behind hseparator fun _ => tallies_ite ?_ ?_)
  · exact tallies_map hmore fun rest placed hrest _ hfirst => hcons hfirst hrest
  · exact tallies_pure fun _ hfirst => hcons hfirst hnil

end

/-! ### Parameters -/

/-- The parameters that the reader of types reads are those in its types. -/
abbrev TalliesType (all : List Token) (reader : Reader TypeExpr) : Prop :=
  reader.Tallies all fun found placed => Holds found.nodes placed

/-- A reader of types that the others can go on with. It answers only as the reader of types
does. -/
structure TalliesTypes (all : List Token) (type : Reader TypeExpr) : Prop where
  follows : type.Follows id TypeExpr.reader
  tallies : type.TalliesType all

/-- To take a name that can be declared takes no dots. -/
theorem silent_bindingName : bindingName.Silent all :=
  silent_expectSome rfl

/-- The parameters of a type behind a lexeme are those in the type. -/
theorem tallies_typeAfter (h : type.TalliesTypes all) {lexeme : Lexeme}
    (hne : lexeme ≠ .mark .ellipsis) :
    (typeAfter type lexeme).Tallies all fun found placed => Holds (optionNodes found) placed :=
  tallies_behind (silent_accept hne) fun _ =>
    tallies_ite (tallies_map h.tallies fun _ _ hfound => hfound) (tallies_pure holds_nil)

/-- A parameter behind its dots, if there are any. -/
def undottedParameter (type : Reader TypeExpr) (hasDots : Bool) : Reader WrittenParameter := do
  let name ← bindingName
  let optional ← accept (.mark .question)
  let annotation ← typeAfter type (.mark .colon)
  return ⟨hasDots, name, optional, annotation⟩

/-- Behind its dots, the parameters of a parameter are those in its type. -/
theorem tallies_undottedParameter (h : type.TalliesTypes all) (hasDots : Bool) :
    (undottedParameter type hasDots).Tallies all fun written placed =>
      written.hasDots = hasDots ∧ Holds (optionNodes written.type) placed :=
  tallies_behind silent_bindingName fun _ => tallies_behind (silent_accept nofun) fun _ =>
    tallies_map (tallies_typeAfter h nofun) fun _ _ hfound => ⟨rfl, hfound⟩

/-- To read a parameter is to take its dots, if it has any, and then the rest of it. -/
theorem writtenParameter_eq (type : Reader TypeExpr) :
    writtenParameter type = accept (.mark .ellipsis) >>= undottedParameter type :=
  rfl

/-- A parameter starts where nothing but the tokens is left. Behind its dots, if there are any, the
rest of it is read. -/
theorem undotted_of_written {stream : Stream} (hs : stream.Inside all)
    {reading : Reading WrittenParameter} (hread : writtenParameter type stream = .ok reading) :
    stream.tokens <:+ all ∧ ∃ (hasDots : Bool) (start : Stream), start.Inside all
      ∧ start.size ≤ stream.size ∧ undottedParameter type hasDots start = .ok reading
      ∧ dotsOf stream.tokens
        = (if hasDots then [stream.position] else []) ++ dotsOf start.tokens := by
  rw [writtenParameter_eq, accept_bind] at hread
  split at hread
  · rename_i hnext
    refine ⟨?_, true, stream.tail, hs.tail, Nat.le_of_lt (Stream.size_tail_lt hnext), hread,
      dotsOf_eq_position hnext⟩
    rcases hs with hsuffix | ⟨mark, hmark, hnot, -⟩
    · exact hsuffix
    · cases hnext.symm.trans hmark
      exact absurd (List.mem_cons_of_mem _ List.mem_cons_self) hnot
  · refine ⟨?_, false, stream, hs, Nat.le_refl _, hread, rfl⟩
    rcases hs with hsuffix | ⟨mark, hmark, -⟩
    · exact hsuffix
    -- What is left of a longer mark is no name.
    · obtain ⟨name, _, hname, -⟩ := bind_eq_ok.mp hread
      obtain ⟨lexeme, _, hnext, hsome, -⟩ := expectSome_eq_ok.mp hname
      cases hmark.symm.trans hnext
      cases hsome

/-- To keep a parameter in its place answers with it, and leaves its remark if it lost its dots. -/
theorem keep_eq (parameter : PlacedParameter) (stream : Stream) :
    keep parameter.place.position parameter.written stream
      = .ok ⟨parameter.kept, parameter.lost?.toList, stream⟩ := by
  obtain ⟨place, hasDots, name, optional, type⟩ := parameter
  cases hasDots with
  | false => rfl
  | true =>
    cases helement : type.bind TypeExpr.arrayElement? <;>
      simp only [keep, restType, PlacedParameter.kept, PlacedParameter.lost?, WrittenParameter.kept,
        WrittenParameter.keptType, WrittenParameter.isLost, helement] <;> rfl

/-- The parameter comes last, and its dots first. -/
theorem tallies_parameter (h : type.TalliesTypes all) :
    (parameter type).Tallies all fun parameter placed => Holds parameter.nodes placed := by
  intro stream hs reading hread
  rw [parameter_eq, bind_of_ok rfl] at hread
  obtain ⟨written, kept, hwritten, hkept, rfl⟩ := bind_eq_ok.mp hread
  rw [keep_eq ⟨stream, written.value⟩] at hkept
  cases hkept
  obtain ⟨hsuffix, hasDots, start, hstart, hle, hundotted, hdots⟩ :=
    undotted_of_written hs hwritten
  obtain ⟨hinside, hle', hplaced⟩ :=
    tallies_undottedParameter h hasDots start hstart written hundotted
  refine ⟨hinside, hle'.trans hle, fun hreceives => ?_⟩
  obtain ⟨placed, htally, rfl, hholds⟩ := hplaced hreceives
  refine ⟨_, ⟨?_, ?_, ?_⟩, hholds.parameter stream⟩
  · obtain ⟨same, hsame, hvalue, -⟩ := follows_writtenParameter h.follows stream written hwritten
    exact List.forall_mem_append.mpr ⟨htally.isIn,
      List.forall_mem_singleton.mpr ⟨hsuffix, same, hsame, hvalue.symm⟩⟩
  · rw [List.filterMap_append, ← htally.lost, PlacedParameter.filterMap_one]
  -- The dots come before those in the type, and the parameter behind those in the type.
  · rw [hdots, List.filterMap_append, PlacedParameter.filterMap_one, List.append_assoc]
    refine (htally.perm.append_left _).trans ?_
    rw [PlacedParameter.toList_dots?]
    exact List.perm_append_comm_assoc _ _ _

/-- Nothing is said about the parameters in the type of a receiver. -/
theorem tallies_parameterOrReceiver (h : type.TalliesTypes all) :
    (parameterOrReceiver type).Tallies all fun found placed =>
      ∀ parameter ∈ found, Holds parameter.nodes placed :=
  tallies_behind (silent_accept nofun) fun _ => tallies_ite
    (tallies_behind (silent_expect nofun) fun _ =>
      tallies_map h.tallies fun _ _ _ _ hfound => by cases hfound)
    (tallies_map (tallies_parameter h) fun _ _ hparameter _ hfound => by
      cases hfound
      exact hparameter)

/-- The parameters of a list are accounted for, each behind those of its type, if there is no
receiver. -/
theorem tallies_parameterList (h : type.TalliesTypes all) :
    (parameterList type).Tallies all fun found placed =>
      none ∉ found → Holds (parameterNodes (found.filterMap id)) placed := by
  have hlist : (separatedUntil .parenClose (parameterOrReceiver type)
      (accept (.mark .comma))).Tallies all fun found placed =>
        none ∉ found → Holds (parameterNodes (found.filterMap id)) placed := by
    refine tallies_separatedUntil (tallies_parameterOrReceiver h) (silent_accept nofun)
      (fun _ => holds_nil) fun {first _ rest _} hfirst hrest hnone => ?_
    rw [List.mem_cons, not_or] at hnone
    cases first with
    | none => exact absurd rfl hnone.1
    | some parameter => exact (hfirst parameter rfl).append (hrest hnone.2)
  exact tallies_behind (silent_expect nofun) fun _ =>
    tallies_closed hlist (silent_expect nofun) fun _ _ hall => hall

/-- So are the parameters in parentheses, since in front of a receiver nothing is claimed. -/
theorem tallies_parameters (h : type.TalliesTypes all) :
    (parameters type).Tallies all fun found placed => Holds (parameterNodes found) placed := by
  intro stream hs reading hread
  obtain ⟨written, hwritten, -⟩ := follows_parameters h.follows stream reading hread
  rw [parameters_eq] at hread
  obtain ⟨list, last, hlist, hlast, rfl⟩ := bind_eq_ok.mp hread
  cases hlast
  rw [List.append_nil]
  obtain ⟨hinside, hle, hplaced⟩ := tallies_parameterList h stream hs list hlist
  refine ⟨hinside, hle, fun hreceives => ?_⟩
  obtain ⟨placed, htally, hholds⟩ := hplaced hreceives
  refine ⟨placed, htally, hholds fun hnone => hreceives ?_⟩
  -- With a receiver in it, this is a list that is not to be there.
  obtain ⟨same, hsame, hvalue, hrest⟩ := follows_parameterList h.follows stream list hlist
  have hsame' : parameters TypeExpr.reader stream
      = .ok ⟨same.value.filterMap id, same.lost ++ [], same.rest⟩ := by
    rw [parameters_eq]
    exact bind_eq_ok.mpr ⟨same, _, hsame, rfl, rfl⟩
  rw [hvalue] at hnone
  exact ⟨stream, same, hs.suffix hwritten, hrest ▸ takes_parameters stream _ hsame', hsame, hnone⟩

/-! ### Signatures -/

/-- The parameters of a type parameter are those in its bound and its default. -/
theorem tallies_typeParameter (h : type.TalliesTypes all) :
    (typeParameter type).Tallies all fun parameter placed => Holds parameter.nodes placed :=
  tallies_behind silent_bindingName fun _ => tallies_bind (tallies_typeAfter h nofun) fun _ =>
    tallies_map (tallies_typeAfter h nofun) fun _ _ hdefault _ hbound => hbound.append hdefault

/-- The parameters of type parameters are those in each of them. -/
theorem tallies_typeParameters (h : type.TalliesTypes all) :
    (typeParameters type).Tallies all fun parameters placed =>
      Holds (typeParameterNodes parameters) placed := by
  have hlist : (separated (typeParameter type) .comma).Tallies all fun parameters placed =>
      Holds (typeParameterNodes parameters) placed :=
    tallies_separated (tallies_typeParameter h) holds_nil (fun hfirst hrest => hfirst.append hrest)
      nofun
  exact tallies_behind (silent_accept nofun) fun _ => tallies_ite
    (tallies_closed hlist silent_closeAngle fun _ _ hparameters => hparameters)
    (tallies_pure holds_nil)

/-- The parameters of a signature are its own, with those of its types. -/
theorem tallies_signature (h : type.TalliesTypes all) :
    (signature type).Tallies all fun signature placed => Holds signature.nodes placed :=
  tallies_bind (tallies_typeParameters h) fun _ => tallies_bind (tallies_parameters h) fun _ =>
    tallies_map (tallies_typeAfter h nofun) fun _ _ hresult _ hparameters _ htypeParameters =>
      htypeParameters.append (hparameters.append hresult)

/-- The same for the signature of a function type. -/
theorem tallies_functionSignature (h : type.TalliesTypes all) :
    (functionSignature type).Tallies all fun signature placed => Holds signature.nodes placed :=
  tallies_bind (tallies_typeParameters h) fun _ => tallies_bind (tallies_parameters h) fun _ =>
    tallies_behind (silent_expect nofun) fun _ =>
      tallies_map h.tallies fun _ _ hresult _ hparameters _ htypeParameters =>
        htypeParameters.append (hparameters.append hresult)

/-! ### Members -/

/-- The parameters of a member are those of its signature or its type. -/
theorem tallies_memberBody (h : type.TalliesTypes all) :
    (memberBody type).Tallies all fun member placed => Holds member.nodes placed := by
  have hsignature : ∀ {f : Signature → Member},
      (∀ signature, (f signature).nodes = signature.nodes) →
      (signature type >>= fun signature => pure (f signature)).Tallies all
        fun member placed => Holds member.nodes placed := fun hf =>
    tallies_map (tallies_signature h) fun signature _ hholds => hf signature ▸ hholds
  have hnamed : (propertyName >>= fun name => accept (.mark .question) >>= fun optional =>
      look Stream.next? >>= fun next =>
        if startsSignature next = true then
          signature type >>= fun signature => pure (Member.method name optional signature)
        else typeAfter type (.mark .colon) >>= fun found =>
          pure (Member.property name optional found)).Tallies all
        fun member placed => Holds member.nodes placed :=
    tallies_behind (silent_expectSome rfl) fun _ => tallies_behind (silent_accept nofun) fun _ =>
      tallies_look fun _ => tallies_ite (hsignature fun _ => rfl)
        (tallies_map (tallies_typeAfter h nofun) fun _ _ hfound => hfound)
  refine tallies_behind (silent_accept nofun) fun _ => tallies_ite ?_ (tallies_look fun _ =>
    tallies_ite (hsignature fun _ => rfl) ?_)
  · exact tallies_bind (tallies_parameter h) fun _ => tallies_behind (silent_expect nofun) fun _ =>
      tallies_behind (silent_expect nofun) fun _ =>
        tallies_map h.tallies fun _ _ hfound _ hparameter => hparameter.append hfound
  -- The word `new` is known to come next only where it is skipped.
  · intro stream hs
    refine talliesAt_look (talliesAt_look ?_)
    split
    · rename_i hnew
      rw [Bool.and_eq_true, decide_eq_true_eq] at hnew
      exact talliesAt_skip hnew.1 nofun (hsignature (fun _ => rfl) _ hs.tail)
    · exact hnamed stream hs

/-- The words that modify a member have none. -/
theorem tallies_member (h : type.TalliesTypes all) :
    (member type).Tallies all fun member placed => Holds member.nodes placed :=
  tallies_behind (silent_take Simulation.suffix_splitModifiers dotsOf_splitModifiers)
    fun isStatic => tallies_map (tallies_memberBody h) fun _ _ hmember => by
      cases isStatic with
      | true => exact hmember
      | false => exact hmember

/-- The separator of members takes no dots. -/
theorem silent_memberSeparator : memberSeparator.Silent all := by
  have hfound : ∀ found : Bool, Silent all (if found = true then
      take splitSemicolons >>= fun _ => pure found else pure found) := fun found =>
    silent_ite (silent_bind (silent_take Simulation.suffix_splitSemicolons dotsOf_splitSemicolons)
      fun _ => silent_pure _) (silent_pure _)
  exact silent_bind (silent_accept nofun) fun _ => silent_ite
    (silent_bind (silent_pure true) hfound) (silent_bind (silent_accept nofun) hfound)

/-- The parameters of members in braces are those in each of them. -/
theorem tallies_members (h : type.TalliesTypes all) :
    (members type).Tallies all fun members placed => Holds (memberNodes members) placed := by
  have hlist : (separatedUntil .braceClose (member type) memberSeparator).Tallies all
      fun members placed => Holds (memberNodes members) placed :=
    tallies_separatedUntil (tallies_member h) silent_memberSeparator holds_nil
      fun hfirst hrest => hfirst.append hrest
  exact tallies_behind (silent_expect nofun) fun _ =>
    tallies_closed hlist (silent_expect nofun) fun _ _ hmembers => hmembers

/-! ### Types -/

/-- A name with dots takes single dots only, which are other marks. -/
theorem silent_qualifiedName : qualifiedName.Silent all :=
  silent_bind silent_bindingName fun _ => silent_bind
    (silent_take Simulation.suffix_splitDotted dotsOf_splitDotted) fun _ => silent_pure _

/-- The parameters in the arguments of a type are those in each of them. -/
theorem tallies_typeArguments (h : type.TalliesTypes all) :
    (typeArguments type).Tallies all
      fun arguments placed => Holds (typeNodes arguments) placed := by
  have hlist : (separated type .comma).Tallies all fun arguments placed =>
      Holds (typeNodes arguments) placed :=
    tallies_separated h.tallies holds_nil (fun hfirst hrest => hfirst.append hrest) nofun
  exact tallies_behind (silent_accept nofun) fun _ => tallies_ite
    (tallies_closed hlist silent_closeAngle fun _ _ harguments => harguments)
    (tallies_pure holds_nil)

variable {stream : Stream}

/-- The parameters of a type that starts with a word are those of what the word leads to. -/
theorem talliesAt_wordType (h : type.TalliesTypes all) {w : Word} (hs : stream.Inside all)
    (hnext : stream.next? = some (.word w)) :
    (wordType type w).TalliesAt all stream fun found placed => Holds found.nodes placed := by
  have hskip : ∀ {reader : Reader TypeExpr}, reader.TalliesType all →
      TalliesAt all (skip >>= fun _ => reader) stream
        fun found placed => Holds found.nodes placed :=
    fun hreader => talliesAt_skip hnext nofun (hreader _ hs.tail)
  cases w <;> first
    | exact hskip (tallies_pure (holds_nil.type rfl))
    | exact hskip (tallies_behind silent_qualifiedName fun _ => tallies_pure (holds_nil.type rfl))
    | exact hskip (tallies_map (tallies_functionSignature h) fun _ _ hsignature =>
        hsignature.type rfl)
    | exact tallies_fail _ _ hs

/-- The parameters of a type that starts with a mark are those of what the mark leads to. -/
theorem talliesAt_markType (h : type.TalliesTypes all) {m : Mark} (hs : stream.Inside all)
    (hnext : stream.next? = some (.mark m)) :
    (markType type m).TalliesAt all stream fun found placed => Holds found.nodes placed := by
  have hfunction : TalliesType all
      (functionSignature type >>= fun signature => pure (.function signature)) :=
    tallies_map (tallies_functionSignature h) fun _ _ hsignature => hsignature.type rfl
  cases m with
  -- A negative number: two tokens, and no dots among them.
  | minus =>
    refine talliesAt_look ?_
    obtain ⟨second, hsecond⟩ : ∃ second, stream.second? = second := ⟨_, rfl⟩
    rw [hsecond]
    split
    · have hnumber : stream.tail.next? = some (.number _) := hsecond
      exact talliesAt_skip hnext (by decide) (talliesAt_skip hnumber nofun
        (talliesAt_pure (holds_nil.type rfl) hs.tail.tail))
    · exact tallies_fail _ _ hs
  | braceOpen =>
    have hobject : TalliesType all (members type >>= fun members => pure (.object members)) :=
      tallies_map (tallies_members h) fun _ _ hmembers => hmembers.type rfl
    exact hobject stream hs
  | bracketOpen =>
    have hlist : (separatedUntil .bracketClose type (accept (.mark .comma))).Tallies all
        fun types placed => Holds (typeNodes types) placed :=
      tallies_separatedUntil h.tallies (silent_accept nofun) holds_nil
        fun hfirst hrest => hfirst.append hrest
    have htuple : TalliesType all (separatedUntil .bracketClose type (accept (.mark .comma)) >>=
        fun types => expect .bracketClose >>= fun _ => pure (.tuple types)) :=
      tallies_closed hlist (silent_expect (by decide)) fun _ _ htypes => htypes.type rfl
    exact talliesAt_skip hnext (by decide) (htuple _ hs.tail)
  -- Whether a function or a type in parentheses follows, the lookahead takes nothing.
  | parenOpen =>
    have hinner : TalliesType all (type >>= fun inner => expect .parenClose >>= fun _ =>
        pure (.parenthesized inner)) :=
      tallies_closed h.tallies (silent_expect (by decide)) fun _ _ hinner => hinner.type rfl
    refine talliesAt_look ?_
    split
    · exact hfunction stream hs
    · exact talliesAt_skip hnext (by decide) (hinner _ hs.tail)
  | less => exact hfunction stream hs
  | _ => exact tallies_fail _ _ hs

/-- The parameters of a type without suffixes are those in it. -/
theorem tallies_primaryType (h : type.TalliesTypes all) : (primaryType type).TalliesType all := by
  intro stream hs
  refine talliesAt_look ?_
  have hnamed : TalliesType all (qualifiedName >>= fun path => typeArguments type >>=
      fun arguments => pure (.named path arguments)) :=
    tallies_behind silent_qualifiedName fun _ => tallies_map (tallies_typeArguments h)
      fun _ _ harguments => harguments.type rfl
  have hliteral : ∀ {lexeme : Lexeme} {text : String}, stream.next? = some lexeme →
      lexeme ≠ .mark .ellipsis →
      TalliesAt all (skip >>= fun _ => pure (TypeExpr.literal text)) stream
        fun found placed => Holds found.nodes placed := fun hnext hne =>
    talliesAt_skip hnext hne (talliesAt_pure (holds_nil.type rfl) hs.tail)
  obtain ⟨next, hnext⟩ : ∃ next, stream.next? = next := ⟨_, rfl⟩
  rw [hnext]
  split
  · exact hnamed stream hs
  · exact hliteral hnext nofun
  · exact hliteral hnext nofun
  · exact talliesAt_wordType h hs hnext
  · exact talliesAt_markType h hs hnext
  · exact tallies_fail _ _ hs

/-- An array has the parameters of its element, however often brackets are put behind it. -/
theorem holds_repeat_array {element : TypeExpr} {placed : List PlacedParameter}
    (h : Holds element.nodes placed) (depth : Nat) :
    Holds (depth.repeat TypeExpr.array element).nodes placed := by
  induction depth with
  | zero => exact h
  | succ depth ih =>
    rw [Nat.repeat, TypeExpr.nodes_array]
    exact ih.type rfl

/-- So the brackets behind a type add no parameters. -/
theorem tallies_suffixedType (h : type.TalliesTypes all) : (suffixedType type).TalliesType all :=
  tallies_bind (tallies_primaryType h) fun _ => tallies_behind
    (silent_take Simulation.suffix_splitBrackets dotsOf_splitBrackets) fun depth =>
      tallies_pure fun placed helement => by
        rw [List.append_nil]
        exact holds_repeat_array helement depth

/-- Joined types have the parameters of their parts. -/
theorem holds_oneOrAll {together : List TypeExpr → TypeExpr} {types : List TypeExpr}
    {placed : List PlacedParameter}
    (htogether : (together types).nodes = .type (together types) :: typeNodes types)
    (hrepeated : (Node.type (together types)).isRepeated = false)
    (h : Holds (typeNodes types) placed) : Holds (oneOrAll together types).nodes placed := by
  rw [oneOrAll.eq_def]
  split
  · rename_i type
    rwa [typeNodes, typeNodes, List.append_nil] at h
  · rw [htogether]
    exact h.type hrepeated

/-- The parameters of types joined by `&` are those in each of them. -/
theorem tallies_intersectionType (h : type.TalliesTypes all) :
    (intersectionType type).TalliesType all := by
  have hlist : (separated (suffixedType type) .ampersand).Tallies all fun types placed =>
      Holds (typeNodes types) placed :=
    tallies_separated (tallies_suffixedType h) holds_nil (fun hfirst hrest => hfirst.append hrest)
      nofun
  exact tallies_map hlist fun _ _ htypes => holds_oneOrAll rfl rfl htypes

/-- The parameters of types joined by `|` are those in each of them. -/
theorem tallies_unionType (h : type.TalliesTypes all) : (unionType type).TalliesType all := by
  have hlist : (separated (intersectionType type) .bar).Tallies all fun types placed =>
      Holds (typeNodes types) placed :=
    tallies_separated (tallies_intersectionType h) holds_nil
      (fun hfirst hrest => hfirst.append hrest) nofun
  exact tallies_behind (silent_accept nofun) fun _ =>
    tallies_map hlist fun _ _ htypes => holds_oneOrAll rfl rfl htypes

/-- The parameters that the reader of types reads are those in its types. -/
theorem talliesTypes_typeReader : TypeExpr.reader.TalliesTypes all where
  follows := .refl _
  tallies _ hs _ hread := by
    refine typeReader_induction (motive := fun stream reading => stream.Inside all →
      reading.rest.Inside all ∧ reading.rest.size ≤ stream.size
        ∧ (¬ Receives all reading.rest.size → ∃ placed,
          Tally all (dotsOf stream.tokens) (dotsOf reading.rest.tokens) reading.lost placed
            ∧ Holds reading.value.nodes placed)) ?_ hread hs
    intro type hfollows htype stream reading hread hs
    have htallies : type.TalliesTypes all :=
      ⟨hfollows, fun stream hs reading hread => htype stream reading hread hs⟩
    exact tallies_unionType htallies stream hs reading hread

/-! ### Plain declarations -/

/-- A semicolon that may be left out takes no dots. -/
theorem silent_optionalSemicolon : optionalSemicolon.Silent all :=
  silent_bind (silent_accept nofun) fun _ => silent_pure _

/-- The parameters of the types behind a word are those in each of them. -/
theorem tallies_typesAfter (w : Word) :
    (typesAfter w).Tallies all fun types placed => Holds (typeNodes types) placed := by
  have hlist : (separated TypeExpr.reader .comma).Tallies all fun types placed =>
      Holds (typeNodes types) placed :=
    tallies_separated talliesTypes_typeReader.tallies holds_nil
      (fun hfirst hrest => hfirst.append hrest) nofun
  exact tallies_behind (silent_accept nofun) fun _ => tallies_ite hlist (tallies_pure holds_nil)

/-- The parameters of a plain declaration are those that are read behind its first word. -/
theorem tallies_of_mem_plainBodies : ∀ body ∈ plainBodies,
    body.Tallies all fun declaration placed => Holds declaration.nodes placed := by
  have htype : TypeExpr.reader.TalliesTypes all := talliesTypes_typeReader
  simp only [plainBodies, List.forall_mem_cons, List.not_mem_nil, false_implies, implies_true,
    and_true]
  refine ⟨?_, ?_, ?_, ?_, ?_⟩
  · exact tallies_behind silent_bindingName fun _ =>
      tallies_closed (tallies_typeAfter htype nofun) silent_optionalSemicolon
        fun _ _ hfound => hfound
  · exact tallies_behind silent_bindingName fun _ =>
      tallies_closed (tallies_signature htype) silent_optionalSemicolon
        fun _ _ hsignature => hsignature
  · exact tallies_behind silent_bindingName fun _ =>
      tallies_bind (tallies_typeParameters htype) fun _ => tallies_bind (tallies_typesAfter _)
        fun _ => tallies_map (tallies_members htype)
          fun _ _ hmembers _ hparents _ htypeParameters =>
            htypeParameters.append (hparents.append hmembers)
  · exact tallies_behind silent_bindingName fun _ =>
      tallies_bind (tallies_typeParameters htype) fun _ =>
        tallies_bind (tallies_typeAfter htype nofun) fun _ =>
          tallies_bind (tallies_typesAfter _) fun _ => tallies_map (tallies_members htype)
            fun _ _ hmembers _ hinterfaces _ hparent _ htypeParameters =>
              htypeParameters.append (hparent.append (hinterfaces.append hmembers))
  · exact tallies_behind silent_bindingName fun _ =>
      tallies_bind (tallies_typeParameters htype) fun _ =>
        tallies_behind (silent_expect nofun) fun _ =>
          tallies_closed htype.tallies silent_optionalSemicolon
            fun _ _ hfound _ htypeParameters => htypeParameters.append hfound

end Reader

end Facade
