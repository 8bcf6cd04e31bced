import Facade.Proofs.Declaration.FormedDocument

/-!
# Parameters as they are written

What is kept of the dots of a rest parameter is its type, and only if that is a type of arrays;
otherwise the dots are dropped with a remark, and nothing of them is kept. `Signature.Written` goes
back to the file: the parameters of the signature are what is kept of those that are read, dots and
all, at a place of the file (`Reader.writtenParameters`). `Document.written_ofText` says so of every
signature of a document that is read, those inside of types included.

The place is a suffix of the tokens of the file. Not every stream that a reader gets to is one,
because of a longer mark a closing angle bracket takes only a part, but what is left there is a mark
that opens no parameters (`Stream.Inside`). And the reader of types does nothing new the deeper it
calls itself, so what it reads there it reads from the start (`findsTypes_typeReader`).
-/

set_option autoImplicit false

namespace Facade

/-- A parameter as it is written, with the dots in front of its name. -/
structure WrittenParameter where
  hasDots : Bool
  name : String
  optional : Bool
  type : Option TypeExpr

namespace WrittenParameter

/-- Dots are written, and a type of arrays, as `T[]` or as `Array<T>`. -/
def IsRest (written : WrittenParameter) : Prop :=
  written.hasDots = true ∧ ∃ element, written.type = some (.array element)

/-- The type that is kept, by its element if it is that of a rest parameter. -/
def keptType (written : WrittenParameter) : Option TypeExpr :=
  if written.hasDots then
    match written.type.bind TypeExpr.arrayElement? with
    | some element => some (.repeated element)
    | none => written.type
  else written.type

/-- The parameter that is kept. -/
def kept (written : WrittenParameter) : Parameter :=
  ⟨written.name, written.optional, written.keptType⟩

/-- A rest type is kept exactly of a rest parameter, since none is written otherwise. -/
theorem isRepeated_keptType {written : WrittenParameter} (h : NotRepeated written.type) :
    written.keptType.any TypeExpr.isRepeated = true ↔ written.IsRest := by
  have hwritten : written.type.any TypeExpr.isRepeated ≠ true := by
    cases htype : written.type with
    | none => exact nofun
    | some type =>
      rw [htype] at h
      exact Bool.eq_false_iff.mp (h type rfl)
  rw [keptType, IsRest]
  split
  · rename_i hdots
    split
    · rename_i element helement
      obtain ⟨array, hsome, hbind⟩ := Option.bind_eq_some_iff.mp helement
      rw [TypeExpr.eq_array_of_arrayElement? hbind] at hsome
      exact iff_of_true rfl ⟨hdots, element, hsome⟩
    -- The dots are lost, and so is every trace of them.
    · rename_i hnone
      refine iff_of_false hwritten fun ⟨_, element, harray⟩ => ?_
      rw [harray] at hnone
      cases hnone
  · rename_i hdots
    exact iff_of_false hwritten fun hrest => hdots hrest.1

end WrittenParameter

namespace Reader

variable {α β : Type}

/-- A parameter, with all that is written of it. -/
def writtenParameter (type : Reader TypeExpr) : Reader WrittenParameter := do
  let hasDots ← accept (.mark .ellipsis)
  let name ← bindingName
  let optional ← accept (.mark .question)
  let annotation ← typeAfter type (.mark .colon)
  return ⟨hasDots, name, optional, annotation⟩

/-- A parameter with all that is written of it, or the receiver, which is read over. -/
def writtenParameterOrReceiver (type : Reader TypeExpr) : Reader (Option WrittenParameter) := do
  if ← accept (.word .thisWord) then
    expect .colon
    let _ ← type
    return none
  else
    return some (← writtenParameter type)

/-- Parameters in parentheses, with all that is written of them. -/
def writtenParameters (type : Reader TypeExpr) : Reader (List WrittenParameter) := do
  expect .parenOpen
  let all ← separatedUntil .parenClose (writtenParameterOrReceiver type) (accept (.mark .comma))
  expect .parenClose
  return all.filterMap id

/-! ### Readers that follow others -/

/-- Where the reader answers, so does another, and the reader makes its value out of that. -/
def Follows (reader : Reader α) (f : β → α) (reader' : Reader β) : Prop :=
  ∀ stream, reader.Ensures stream fun value rest => ∃ reading, reader' stream = .ok reading
    ∧ value = f reading.value ∧ rest = reading.rest

variable {γ δ : Type} {f : β → α}

/-- A reader follows itself. -/
theorem Follows.refl (reader : Reader α) : reader.Follows id reader :=
  fun _ reading hread => ⟨reading, hread, rfl, rfl⟩

/-- A value that takes no tokens is made out of another that takes none. -/
theorem follows_pure {value : α} {value' : β} (h : value = f value') :
    Follows (pure value) f (pure value') :=
  fun _ => ensures_pure ⟨_, rfl, h, rfl⟩

/-- Readers that follow others do so one after the other. -/
theorem Follows.bind {reader : Reader α} {reader' : Reader β} {next : α → Reader γ}
    {next' : β → Reader δ} {g : δ → γ} (h : reader.Follows f reader')
    (hnext : ∀ value, (next (f value)).Follows g (next' value)) :
    Follows (reader >>= next) g (reader' >>= next') := by
  refine fun stream => ensures_bind ((h stream).imp fun value rest hfirst => ?_)
  obtain ⟨first, hread, rfl, rfl⟩ := hfirst
  refine (hnext first.value first.rest).imp fun value' rest' hsecond => ?_
  obtain ⟨second, hread', hvalue, hrest⟩ := hsecond
  exact ⟨_, bind_eq_ok.mpr ⟨first, second, hread, hread', rfl⟩, hvalue, hrest⟩

/-- Readers that follow others do so under a condition. -/
theorem Follows.ite {condition : Prop} [Decidable condition] {one other : Reader α}
    {one' other' : Reader β} (hone : one.Follows f one') (hother : other.Follows f other') :
    Follows (if condition then one else other) f (if condition then one' else other') := by
  split
  · exact hone
  · exact hother

/-- A recursive reader follows another if its body does, as long as its calls do. -/
theorem follows_recursive {stuck : Reader α} {stuck' : Reader β} {body : Reader α → Reader α}
    {body' : Reader β → Reader β} (hstuck : stuck.Follows f stuck')
    (hbody : ∀ {more more'}, more.Follows f more' → (body more).Follows f (body' more')) :
    (recursive stuck body).Follows f (recursive stuck' body') := by
  suffices ∀ depth, Follows (nested stuck body depth) f (nested stuck' body' depth) from
    fun stream => this stream.tokens stream
  intro depth
  induction depth with
  | nil => exact hbody hstuck
  | cons _ depth ih => exact hbody ih

/-- A list follows a list if its items do, item by item. -/
theorem follows_separatedUntil {close : Mark} {item : Reader α} {item' : Reader β}
    {separator : Reader Bool} (h : item.Follows f item') :
    (separatedUntil close item separator).Follows (List.map f)
      (separatedUntil close item' separator) :=
  follows_recursive (follows_pure rfl) fun hmore => .bind (.refl _) fun _ =>
    .ite (follows_pure rfl) (.bind h fun _ => .bind (.refl _) fun _ =>
      .ite (.bind hmore fun _ => follows_pure rfl) (follows_pure rfl))

/-! ### What is kept of parameters -/

/-- What is kept of a parameter whose dots, if it has any, stand at a position. -/
def keep (position : Nat) (written : WrittenParameter) : Reader Parameter := do
  if written.hasDots then
    return ⟨written.name, written.optional, ← restType position written.name written.type⟩
  else
    return ⟨written.name, written.optional, written.type⟩

/-- To read a parameter is to read what is written of it, and to keep it. -/
theorem parameter_eq (type : Reader TypeExpr) : parameter type
    = look Stream.position >>= fun position => writtenParameter type >>= keep position := by
  simp only [parameter, writtenParameter, keep, bind_assoc, pure_bind]

/-- To keep a parameter takes no tokens and answers with what is kept of it. -/
theorem ensures_keep (position : Nat) (written : WrittenParameter) (stream : Stream) :
    (keep position written).Ensures stream fun parameter rest =>
      parameter = written.kept ∧ rest = stream := by
  obtain ⟨hasDots, name, optional, type⟩ := written
  cases hasDots with
  | false => exact ensures_pure ⟨rfl, rfl⟩
  | true =>
    refine ensures_bind ?_
    rw [restType, WrittenParameter.kept, WrittenParameter.keptType]
    dsimp only
    cases type.bind TypeExpr.arrayElement? with
    | some element => exact ensures_pure (ensures_pure ⟨rfl, rfl⟩)
    | none =>
      refine ensures_bind fun reading hread => ?_
      cases hread
      exact ensures_pure (ensures_pure ⟨rfl, rfl⟩)

variable {type type' : Reader TypeExpr}

/-- What is written of a parameter is read the same if its type is. -/
theorem follows_writtenParameter (h : type.Follows id type') :
    (writtenParameter type).Follows id (writtenParameter type') := by
  refine .bind (.refl _) fun _ => .bind (.refl _) fun _ => .bind (.refl _) fun _ =>
    .bind (.bind (.refl _) fun found => ?_) fun _ => .refl _
  cases found with
  | true => exact .bind h fun _ => .refl _
  | false => exact .refl _

/-- A parameter is what is kept of the one that is written there. -/
theorem follows_parameter (h : type.Follows id type') :
    (parameter type).Follows WrittenParameter.kept (writtenParameter type') := by
  intro stream
  rw [parameter_eq]
  refine ensures_bind (ensures_look (ensures_bind ((follows_writtenParameter h stream).imp
    fun written rest hwritten => (ensures_keep _ _ _).imp fun kept behind hkept => ?_)))
  obtain ⟨reading, hread, hvalue, hrest⟩ := hwritten
  exact ⟨reading, hread, hkept.1.trans (congrArg WrittenParameter.kept hvalue),
    hkept.2.trans hrest⟩

/-- A parameter or a receiver is what is kept of the one that is written there, if there is one. -/
theorem follows_parameterOrReceiver (h : type.Follows id type') :
    (parameterOrReceiver type).Follows (Option.map WrittenParameter.kept)
      (writtenParameterOrReceiver type') :=
  .bind (.refl _) fun _ => .ite
    (.bind (.refl _) fun _ => .bind h fun _ => follows_pure rfl)
    (.bind (follows_parameter h) fun _ => follows_pure rfl)

/-- The parameters of a signature are what is kept of those that are written there. -/
theorem follows_parameters (h : type.Follows id type') :
    (parameters type).Follows (List.map WrittenParameter.kept) (writtenParameters type') := by
  refine .bind (.refl _) fun _ => .bind (follows_separatedUntil (follows_parameterOrReceiver h))
    fun all => .bind (.refl _) fun _ => follows_pure ?_
  rw [List.filterMap_map, List.map_filterMap]
  rfl

/-- No type that a parameter is written with is a rest type. -/
theorem makes_writtenParameter :
    (writtenParameter TypeExpr.reader).Makes fun written _ => NotRepeated written.type :=
  makes_bind (makes_accept _) fun _ _ _ => makes_bind makes_bindingName fun _ _ _ =>
    makes_bind (makes_accept _) fun _ _ _ =>
      makes_bind (makes_typeAfter readsTypes_typeReader _) fun _ _ hfound =>
        makes_pure fun _ => hfound.2

/-- No type that parameters are written with is a rest type. -/
theorem makes_writtenParameters :
    (writtenParameters TypeExpr.reader).Makes fun all _ =>
      ∀ written ∈ all, NotRepeated written.type := by
  have hitem : (writtenParameterOrReceiver TypeExpr.reader).Makes fun found _ =>
      ∀ written ∈ found, NotRepeated written.type := by
    refine makes_bind (makes_accept _) fun _ _ _ => makes_ite (fun _ => ?_) fun _ => ?_
    · exact makes_bind (makes_expect _) fun _ _ _ =>
        makes_bind readsTypes_typeReader.makes fun _ _ _ =>
          makes_pure fun _ _ hfound => by cases hfound
    · exact makes_bind makes_writtenParameter fun written _ hwritten =>
        makes_pure fun _ _ hfound => by cases hfound; exact hwritten
  refine makes_bind (makes_expect _) fun _ _ _ => makes_bind
    (makes_separatedUntil hitem (makes_accept _)) fun all _ hall =>
      makes_bind (makes_expect _) fun _ _ _ => makes_pure fun _ written hwritten => ?_
  obtain ⟨found, hfound, hin⟩ := List.mem_filterMap.mp hwritten
  exact hall found hfound written hin

end Reader

/-- The parameters of the signature are what is kept of those that are written at a place of the
tokens. -/
def Signature.Written (all : List Token) (signature : Signature) : Prop :=
  ∃ place : Stream, place.tokens <:+ all ∧ ∃ reading,
    Reader.writtenParameters TypeExpr.reader place = .ok reading
      ∧ signature.parameters = reading.value.map WrittenParameter.kept

/-- The parameters of every signature are written at a place of the tokens. -/
def signaturesWritten (all : List Token) : Check where
  type _ := True
  signature signature := signature.Written all
  typeParameter _ := True
  parameter _ := True
  member _ := True
  declaration _ := True

variable {all : List Token}

/-! ### Places -/

namespace Stream

/-- The stream is what is left of the tokens. In front of that, there may be what is left of a
longer mark, which neither opens parameters nor stands in front of one. -/
def Inside (all : List Token) (stream : Stream) : Prop :=
  stream.tokens <:+ all
    ∨ ∃ mark, stream.next? = some (.mark mark) ∧ mark ∉ [.parenOpen, .ellipsis]
      ∧ stream.tail.tokens <:+ all

variable {stream : Stream}

/-- Behind the next token, nothing but the tokens is left. -/
theorem Inside.suffix_tail (h : stream.Inside all) : stream.tail.tokens <:+ all := by
  rcases h with hsuffix | ⟨mark, -, -, htail⟩
  · exact (List.tail_suffix _).trans hsuffix
  · exact htail

/-- To take the next token leads to what is inside of the tokens again. -/
theorem Inside.tail (h : stream.Inside all) : stream.tail.Inside all :=
  .inl h.suffix_tail

/-- To take more than that, off the front, does so as well. -/
theorem Inside.of_suffix (h : stream.Inside all) {rest : List Token}
    (hrest : rest <:+ stream.tokens) : Stream.Inside all ⟨rest, stream.stop⟩ := by
  obtain ⟨tokens, stop⟩ := stream
  rcases h with hsuffix | ⟨mark, hnext, hmark, htail⟩
  · exact .inl (hrest.trans hsuffix)
  · cases tokens with
    | nil => cases hnext
    | cons token behind =>
      rcases List.suffix_cons_iff.mp hrest with rfl | hbehind
      · exact .inr ⟨mark, hnext, hmark, htail⟩
      · exact .inl (hbehind.trans htail)

/-- Of a longer mark, what is left without its `>` opens no parameters. -/
theorem Inside.behindAngle (h : stream.Inside all) : stream.behindAngle.Inside all := by
  rw [Stream.behindAngle]
  split
  · rename_i mark start stop rest htokens
    have hrest : rest <:+ all := by
      have htail := h.suffix_tail
      rwa [Stream.tail, htokens] at htail
    split
    · rename_i behind hbehind
      refine .inr ⟨behind, rfl, ?_, hrest⟩
      -- What remains of a mark is an angle bracket, two of them, or an equals sign.
      cases mark <;> cases hbehind <;> decide
    · exact .inl hrest
  · exact h

/-- Where parameters start, nothing but the tokens is left. -/
theorem Inside.suffix (h : stream.Inside all) {type : Reader TypeExpr}
    {reading : Reading (List WrittenParameter)}
    (hread : Reader.writtenParameters type stream = .ok reading) : stream.tokens <:+ all := by
  rcases h with hsuffix | ⟨mark, hnext, hmark, -⟩
  · exact hsuffix
  · obtain ⟨_, _, hopen, -⟩ := Reader.bind_eq_ok.mp hread
    cases hnext.symm.trans (Reader.expect_eq_ok.mp hopen).1
    exact absurd List.mem_cons_self hmark

end Stream

namespace Reader

variable {α β : Type}

/-- From a stream inside of the tokens, the reader answers with what keeps to a condition, and
leaves a stream inside of them. -/
def Finds (all : List Token) (reader : Reader α) (post : α → Prop) : Prop :=
  ∀ stream : Stream, stream.Inside all →
    reader.Ensures stream fun value rest => post value ∧ rest.Inside all

variable {reader : Reader α} {post : α → Prop} {post' : β → Prop}

/-- What a reader finds also keeps to any weaker condition. -/
theorem Finds.imp {post' : α → Prop} (h : reader.Finds all post)
    (himp : ∀ value, post value → post' value) : reader.Finds all post' :=
  fun stream hs => (h stream hs).imp fun value _ hpost => ⟨himp value hpost.1, hpost.2⟩

/-- A value that takes no tokens leaves the stream where it is. -/
theorem finds_pure {value : α} (h : post value) : Finds all (pure value) post :=
  fun _ hs => ensures_pure ⟨h, hs⟩

/-- A reader that fails finds anything. -/
theorem finds_fail (wanted : Wanted) (post : α → Prop) : Finds all (fail wanted) post :=
  fun stream _ => ensures_fail wanted stream _

/-- Readers find one after the other, each with what the one before found. -/
theorem finds_bind {next : α → Reader β} (h : reader.Finds all post)
    (hnext : ∀ value, post value → (next value).Finds all post') :
    Finds all (reader >>= next) post' :=
  fun stream hs => ensures_bind ((h stream hs).imp fun value rest hpost =>
    hnext value hpost.1 rest hpost.2)

/-- What is made out of a found value keeps to what follows for it. -/
theorem finds_map {f : α → β} (h : reader.Finds all post)
    (hf : ∀ value, post value → post' (f value)) : Finds all (f <$> reader) post' :=
  finds_bind h fun value hpost => finds_pure (hf value hpost)

/-- A choice between two readers finds what both of them find. -/
theorem finds_ite {condition : Prop} [Decidable condition] {first second : Reader α}
    (hfirst : first.Finds all post) (hsecond : second.Finds all post) :
    Finds all (if condition then first else second) post :=
  fun stream hs => ensures_ite (fun _ => hfirst stream hs) fun _ => hsecond stream hs

/-- To look at the stream leaves it where it is. -/
theorem finds_look (f : Stream → α) : Finds all (look f) fun _ => True :=
  fun _ hs => ensures_look ⟨trivial, hs⟩

/-- To take the next token stays inside of the tokens. -/
theorem finds_skip : Finds all skip fun _ => True :=
  fun _ hs => ensures_skip ⟨trivial, hs.tail⟩

/-- To take some tokens off the front stays inside of the tokens. -/
theorem finds_take {f : List Token → α × List Token}
    (h : ∀ tokens, (f tokens).2 <:+ tokens) : Finds all (take f) fun _ => True :=
  fun _ hs => ensures_take ⟨trivial, hs.of_suffix (h _)⟩

/-- To take a lexeme, if it comes next, stays inside of the tokens. -/
theorem finds_accept (lexeme : Lexeme) : Finds all (accept lexeme) fun _ => True :=
  fun _ hs => ensures_accept (fun _ => ⟨trivial, hs.tail⟩) fun _ => ⟨trivial, hs⟩

/-- To take a mark that has to come next stays inside of the tokens. -/
theorem finds_expect (mark : Mark) : Finds all (expect mark) fun _ => True :=
  finds_bind (finds_accept _) fun _ _ => finds_ite (finds_pure trivial) (finds_fail _ _)

/-- To take a lexeme that a function has an answer for stays inside of the tokens. -/
theorem finds_expectSome (wanted : Wanted) (f : Lexeme → Option α) :
    Finds all (expectSome wanted f) fun _ => True := by
  refine finds_bind (finds_look _) fun next _ => ?_
  cases next.bind f with
  | some value => exact finds_bind finds_skip fun _ _ => finds_pure trivial
  | none => exact finds_fail _ _

/-- To take a single `>` stays inside of the tokens, since nothing that is left of a mark opens
parameters. -/
theorem finds_closeAngle : Finds all closeAngle fun _ => True := by
  intro stream hs reading hread
  obtain ⟨-, rfl⟩ := closeAngle_eq_ok.mp hread
  exact ⟨trivial, hs.behindAngle⟩

/-- A recursive reader finds what its body finds, as long as its calls find it. -/
theorem finds_recursive {stuck : Reader α} {body : Reader α → Reader α}
    (hstuck : stuck.Finds all post)
    (hbody : ∀ more : Reader α, more.Finds all post → (body more).Finds all post) :
    (recursive stuck body).Finds all post :=
  fun stream => nested_induction (Finds all · post) hstuck hbody stream.tokens stream

/-- In a list with separators, every item is found. -/
theorem finds_separated {item : Reader α} (h : item.Finds all post) (separator : Mark) :
    (separated item separator).Finds all fun values => ∀ value ∈ values, post value := by
  refine finds_recursive (finds_pure fun _ hin => absurd hin List.not_mem_nil) fun more hmore =>
    finds_bind h fun first hfirst => finds_bind (finds_accept _) fun _ _ => finds_ite ?_ ?_
  · exact finds_bind hmore fun values hvalues =>
      finds_pure (List.forall_mem_cons.mpr ⟨hfirst, hvalues⟩)
  · exact finds_pure (List.forall_mem_singleton.mpr hfirst)

/-- In a list up to a closing mark, every item is found. -/
theorem finds_separatedUntil {close : Mark} {item : Reader α} {separator : Reader Bool}
    (h : item.Finds all post) (hseparator : separator.Finds all fun _ => True) :
    (separatedUntil close item separator).Finds all fun values => ∀ value ∈ values, post value := by
  have hnil : Finds all (pure []) fun values : List α => ∀ value ∈ values, post value :=
    finds_pure fun _ hin => absurd hin List.not_mem_nil
  refine finds_recursive hnil fun more hmore => finds_bind (finds_look _) fun _ _ =>
    finds_ite hnil (finds_bind h fun first hfirst => finds_bind hseparator fun _ _ =>
      finds_ite ?_ ?_)
  · exact finds_bind hmore fun values hvalues =>
      finds_pure (List.forall_mem_cons.mpr ⟨hfirst, hvalues⟩)
  · exact finds_pure (List.forall_mem_singleton.mpr hfirst)

/-! ### Signatures -/

/-- In the types that the reader answers with, the parameters of every signature are written. -/
abbrev FindsWritten (all : List Token) (reader : Reader TypeExpr) : Prop :=
  reader.Finds all fun found => found.Every (signaturesWritten all)

/-- A reader of types that the others can go on with. It answers only as the reader of types
does. -/
structure FindsTypes (all : List Token) (type : Reader TypeExpr) : Prop where
  follows : type.Follows id TypeExpr.reader
  finds : type.FindsWritten all

variable {type : Reader TypeExpr}

/-- In a type behind a lexeme, the signatures are written. -/
theorem finds_typeAfter (h : type.FindsTypes all) (lexeme : Lexeme) :
    (typeAfter type lexeme).Finds all fun found => everyOption (signaturesWritten all) found :=
  finds_bind (finds_accept lexeme) fun _ _ =>
    finds_ite (finds_bind h.finds fun _ hfound => finds_pure hfound) (finds_pure trivial)

/-- The name of a parameter is found inside of the tokens. -/
theorem finds_bindingName : bindingName.Finds all fun _ => True :=
  finds_expectSome _ _

/-- In the bound and the default of a type parameter, the signatures are written. -/
theorem finds_typeParameter (h : type.FindsTypes all) :
    (typeParameter type).Finds all fun parameter => parameter.Every (signaturesWritten all) :=
  finds_bind finds_bindingName fun _ _ => finds_bind (finds_typeAfter h _) fun _ hbound =>
    finds_bind (finds_typeAfter h _) fun _ hdefault => finds_pure ⟨trivial, hbound, hdefault⟩

/-- In type parameters, the signatures are written. -/
theorem finds_typeParameters (h : type.FindsTypes all) :
    (typeParameters type).Finds all fun parameters =>
      everyTypeParameter (signaturesWritten all) parameters :=
  finds_bind (finds_accept _) fun _ _ => finds_ite
    (finds_bind (finds_separated (finds_typeParameter h) _) fun _ hparameters =>
      finds_bind finds_closeAngle fun _ _ => finds_pure (everyTypeParameter_iff.mpr hparameters))
    (finds_pure trivial)

/-- In the type of a parameter as it is written, the signatures are written. -/
theorem finds_writtenParameter (h : type.FindsTypes all) :
    (writtenParameter type).Finds all fun written =>
      everyOption (signaturesWritten all) written.type :=
  finds_bind (finds_accept _) fun _ _ => finds_bind finds_bindingName fun _ _ =>
    finds_bind (finds_accept _) fun _ _ => finds_bind (finds_typeAfter h _) fun _ hfound =>
      finds_pure hfound

/-- What holds of the type that a parameter is written with holds of the one that is kept: it is the
same type, or has the same element. -/
theorem every_keptType {check : Check} (hcheck : ∀ type, check.type type)
    {written : WrittenParameter} (h : everyOption check written.type) :
    everyOption check written.keptType := by
  rw [WrittenParameter.keptType]
  split
  · split
    · rename_i element helement
      obtain ⟨array, hsome, hbind⟩ := Option.bind_eq_some_iff.mp helement
      rw [TypeExpr.eq_array_of_arrayElement? hbind] at hsome
      rw [hsome] at h
      exact ⟨hcheck _, h.2.1⟩
    · exact h
  · exact h

/-- In the type of a parameter that is kept, the signatures are written. -/
theorem finds_parameter (h : type.FindsTypes all) :
    (parameter type).Finds all fun parameter => parameter.Every (signaturesWritten all) := by
  intro stream hs
  rw [parameter_eq]
  refine ensures_bind (ensures_look (ensures_bind ((finds_writtenParameter h stream hs).imp
    fun written rest hwritten => (ensures_keep _ _ _).imp fun parameter behind hkept => ?_)))
  rw [hkept.1, hkept.2]
  exact ⟨⟨trivial, every_keptType (fun _ => trivial) hwritten.1⟩, hwritten.2⟩

/-- So they are in that of a parameter that may turn out to be a receiver. -/
theorem finds_parameterOrReceiver (h : type.FindsTypes all) :
    (parameterOrReceiver type).Finds all fun found =>
      ∀ parameter ∈ found, parameter.Every (signaturesWritten all) := by
  refine finds_bind (finds_accept _) fun _ _ => finds_ite ?_ ?_
  · exact finds_bind (finds_expect _) fun _ _ => finds_bind h.finds fun _ _ =>
      finds_pure fun _ hfound => by cases hfound
  · exact finds_bind (finds_parameter h) fun parameter hparameter =>
      finds_pure fun _ hfound => by cases hfound; exact hparameter

/-- Parameters are read where they are written. -/
theorem finds_parameters (h : type.FindsTypes all) :
    (parameters type).Finds all fun parameters =>
      everyParameter (signaturesWritten all) parameters
        ∧ ∀ typeParameters result, Signature.Written all ⟨typeParameters, parameters, result⟩ := by
  -- The signatures in the types of the parameters come first, then the parameters themselves.
  have hevery : (parameters type).Finds all fun parameters =>
      everyParameter (signaturesWritten all) parameters := by
    refine finds_bind (finds_expect _) fun _ _ => finds_bind
      (finds_separatedUntil (finds_parameterOrReceiver h) (finds_accept _)) fun found hfound =>
        finds_bind (finds_expect _) fun _ _ => finds_pure (everyParameter_iff.mpr ?_)
    intro parameter hparameter
    obtain ⟨item, hitem, hin⟩ := List.mem_filterMap.mp hparameter
    exact hfound item hitem parameter hin
  intro stream hs reading hread
  obtain ⟨hparameters, hrest⟩ := hevery stream hs reading hread
  obtain ⟨written, hwritten, hkept, -⟩ := follows_parameters h.follows stream reading hread
  exact ⟨⟨hparameters, fun _ _ => ⟨stream, hs.suffix hwritten, written, hwritten, hkept⟩⟩, hrest⟩

/-- In a signature, the signatures of its types are written, and so is itself. -/
theorem finds_signature (h : type.FindsTypes all) :
    (signature type).Finds all fun signature => signature.Every (signaturesWritten all) :=
  finds_bind (finds_typeParameters h) fun _ htypeParameters =>
    finds_bind (finds_parameters h) fun _ hparameters =>
      finds_bind (finds_typeAfter h _) fun _ hresult =>
        finds_pure ⟨hparameters.2 _ _, htypeParameters, hparameters.1, hresult⟩

/-- The same for the signature of a function type. -/
theorem finds_functionSignature (h : type.FindsTypes all) :
    (functionSignature type).Finds all fun signature => signature.Every (signaturesWritten all) :=
  finds_bind (finds_typeParameters h) fun _ htypeParameters =>
    finds_bind (finds_parameters h) fun _ hparameters => finds_bind (finds_expect _) fun _ _ =>
      finds_bind h.finds fun _ hresult =>
        finds_pure ⟨hparameters.2 _ _, htypeParameters, hparameters.1, hresult⟩

/-! ### Members -/

/-- In a member without its modifiers, the signatures are written. -/
theorem finds_memberBody (h : type.FindsTypes all) :
    (memberBody type).Finds all fun member => member.Every (signaturesWritten all) := by
  refine finds_bind (finds_accept _) fun _ _ => finds_ite ?_ (finds_bind (finds_look _) fun _ _ =>
    finds_ite ?_ (finds_bind (finds_look _) fun _ _ => finds_bind (finds_look _) fun _ _ =>
      finds_ite ?_ (finds_bind (finds_expectSome _ _) fun _ _ => finds_bind (finds_accept _)
        fun _ _ => finds_bind (finds_look _) fun _ _ => finds_ite ?_ ?_)))
  · exact finds_bind (finds_parameter h) fun _ hparameter => finds_bind (finds_expect _) fun _ _ =>
      finds_bind (finds_expect _) fun _ _ => finds_bind h.finds fun _ hfound =>
        finds_pure ⟨trivial, hparameter, hfound⟩
  · exact finds_bind (finds_signature h) fun _ hsignature => finds_pure ⟨trivial, hsignature⟩
  · exact finds_bind finds_skip fun _ _ => finds_bind (finds_signature h) fun _ hsignature =>
      finds_pure ⟨trivial, hsignature⟩
  · exact finds_bind (finds_signature h) fun _ hsignature => finds_pure ⟨trivial, hsignature⟩
  · exact finds_bind (finds_typeAfter h _) fun _ hfound => finds_pure ⟨trivial, hfound⟩

/-- In a member, the signatures are written. -/
theorem finds_member (h : type.FindsTypes all) :
    (member type).Finds all fun member => member.Every (signaturesWritten all) := by
  refine finds_bind (finds_take Simulation.suffix_splitModifiers) fun isStatic _ =>
    finds_bind (finds_memberBody h) fun member hmember => finds_pure ?_
  cases isStatic with
  | true => exact ⟨trivial, hmember⟩
  | false => exact hmember

/-- The separator of members is found inside of the tokens. -/
theorem finds_memberSeparator : memberSeparator.Finds all fun _ => True := by
  have hfound : ∀ found : Bool, Finds all (if found = true then
      take splitSemicolons >>= fun _ => pure found else pure found) fun _ => True := fun found =>
    finds_ite (finds_bind (finds_take Simulation.suffix_splitSemicolons) fun _ _ =>
      finds_pure trivial) (finds_pure trivial)
  have htrue : Finds all (pure true) fun _ => True := finds_pure trivial
  exact finds_bind (finds_accept _) fun _ _ => finds_ite
    (finds_bind htrue fun found _ => hfound found)
    (finds_bind (finds_accept _) fun found _ => hfound found)

/-- In members in braces, the signatures are written. -/
theorem finds_members (h : type.FindsTypes all) :
    (members type).Finds all fun members => everyMember (signaturesWritten all) members :=
  finds_bind (finds_expect _) fun _ _ =>
    finds_bind (finds_separatedUntil (finds_member h) finds_memberSeparator) fun _ hmembers =>
      finds_bind (finds_expect _) fun _ _ => finds_pure (everyMember_iff.mpr hmembers)

/-! ### Types -/

/-- A name with dots is found inside of the tokens. -/
theorem finds_qualifiedName : qualifiedName.Finds all fun _ => True :=
  finds_bind finds_bindingName fun _ _ =>
    finds_bind (finds_take Simulation.suffix_splitDotted) fun _ _ => finds_pure trivial

/-- In the arguments of a type, the signatures are written. -/
theorem finds_typeArguments (h : type.FindsTypes all) :
    (typeArguments type).Finds all fun arguments => everyType (signaturesWritten all) arguments :=
  finds_bind (finds_accept _) fun _ _ => finds_ite
    (finds_bind (finds_separated h.finds _) fun _ harguments =>
      finds_bind finds_closeAngle fun _ _ => finds_pure (everyType_iff.mpr harguments))
    (finds_pure trivial)

/-- In a type that starts with a word, the signatures are written. -/
theorem findsWritten_wordType (h : type.FindsTypes all) (w : Word) :
    (wordType type w).FindsWritten all := by
  cases w <;> first
    | exact finds_bind finds_skip fun _ _ => finds_pure trivial
    | exact finds_bind finds_skip fun _ _ => finds_bind finds_qualifiedName fun _ _ =>
        finds_pure trivial
    | exact finds_bind finds_skip fun _ _ => finds_bind (finds_functionSignature h)
        fun _ hsignature => finds_pure ⟨trivial, hsignature⟩
    | exact finds_fail _ _

/-- In a type that starts with a mark, the signatures are written; with `<` or `(` it may be a
signature itself. -/
theorem findsWritten_markType (h : type.FindsTypes all) (m : Mark) :
    (markType type m).FindsWritten all := by
  have hfunction : FindsWritten all
      (functionSignature type >>= fun signature => pure (.function signature)) :=
    finds_bind (finds_functionSignature h) fun _ hsignature => finds_pure ⟨trivial, hsignature⟩
  cases m with
  | minus =>
    refine finds_bind (finds_look _) fun next _ => ?_
    split
    · exact finds_bind finds_skip fun _ _ => finds_bind finds_skip fun _ _ => finds_pure trivial
    · exact finds_fail _ _
  | braceOpen =>
    exact finds_bind (finds_members h) fun _ hmembers => finds_pure ⟨trivial, hmembers⟩
  | bracketOpen =>
    exact finds_bind finds_skip fun _ _ => finds_bind
      (finds_separatedUntil h.finds (finds_accept _)) fun _ htypes =>
        finds_bind (finds_expect _) fun _ _ => finds_pure ⟨trivial, everyType_iff.mpr htypes⟩
  | parenOpen =>
    refine finds_bind (finds_look _) fun _ _ => finds_ite hfunction ?_
    exact finds_bind finds_skip fun _ _ => finds_bind h.finds fun _ hinner =>
      finds_bind (finds_expect _) fun _ _ => finds_pure ⟨trivial, hinner⟩
  | less => exact hfunction
  | _ => exact finds_fail _ _

/-- In a type without suffixes, the signatures are written. -/
theorem findsWritten_primaryType (h : type.FindsTypes all) :
    (primaryType type).FindsWritten all := by
  refine finds_bind (finds_look _) fun next _ => ?_
  split
  · exact finds_bind finds_qualifiedName fun _ _ => finds_bind (finds_typeArguments h)
      fun _ harguments => finds_pure ⟨trivial, harguments⟩
  · exact finds_bind finds_skip fun _ _ => finds_pure trivial
  · exact finds_bind finds_skip fun _ _ => finds_pure trivial
  · exact findsWritten_wordType h _
  · exact findsWritten_markType h _
  · exact finds_fail _ _

/-- In a type with brackets behind it, the signatures are written. -/
theorem findsWritten_suffixedType (h : type.FindsTypes all) :
    (suffixedType type).FindsWritten all := by
  refine finds_bind (findsWritten_primaryType h) fun element helement =>
    finds_bind (finds_take Simulation.suffix_splitBrackets) fun depth _ => finds_pure ?_
  induction depth with
  | zero => exact helement
  | succ depth ih => exact ⟨trivial, ih, trivial⟩

/-- A type that stands alone or is joined to others holds no more signatures than these. -/
theorem every_oneOrAll {together : List TypeExpr → TypeExpr} {types : List TypeExpr}
    (htogether : everyType (signaturesWritten all) types →
      (together types).Every (signaturesWritten all))
    (h : ∀ found ∈ types, found.Every (signaturesWritten all)) :
    (oneOrAll together types).Every (signaturesWritten all) := by
  rw [oneOrAll.eq_def]
  split
  · exact h _ (List.mem_singleton.mpr rfl)
  · exact htogether (everyType_iff.mpr h)

/-- In types joined by `&`, the signatures are written. -/
theorem findsWritten_intersectionType (h : type.FindsTypes all) :
    (intersectionType type).FindsWritten all :=
  finds_map (finds_separated (findsWritten_suffixedType h) _) fun _ htypes =>
    every_oneOrAll (fun hall => ⟨trivial, hall⟩) htypes

/-- In types joined by `|`, the signatures are written. -/
theorem findsWritten_unionType (h : type.FindsTypes all) : (unionType type).FindsWritten all :=
  finds_bind (finds_accept _) fun _ _ =>
    finds_map (finds_separated (findsWritten_intersectionType h) _) fun _ htypes =>
      every_oneOrAll (fun hall => ⟨trivial, hall⟩) htypes

/-- The reader on streams of less than a number of tokens. -/
def restricted (n : Nat) (reader : Reader TypeExpr) : Reader TypeExpr := fun stream =>
  if stream.size < n then reader stream else fail .type stream

/-- Where the restricted reader answers, it answers as the reader itself. -/
theorem follows_restricted (n : Nat) (reader : Reader TypeExpr) :
    (restricted n reader).Follows id reader := by
  intro stream reading hread
  rw [restricted] at hread
  split at hread
  · exact ⟨reading, hread, rfl, rfl⟩
  · cases hread

/-- The reader of types takes a token before it calls itself, so its calls may be restricted. -/
theorem restricted_succ (n : Nat) {stream : Stream} (hlt : stream.size < n + 1) :
    TypeExpr.reader stream = unionType (restricted n TypeExpr.reader) stream := by
  have hsame : Simulation.same.Alike n TypeExpr.reader (restricted n TypeExpr.reader) := by
    intro first second hstreams hfirst hsecond
    rw [restricted, if_pos hsecond]
    exact Simulation.alike_typeReader hstreams hfirst hsecond
  rw [TypeExpr.reader_eq]
  exact Simulation.eq_of_same (Simulation.alike_unionType hsame rfl hlt hlt)

/-- What holds of all that the grammar reads, if it holds of its calls, holds of all that the reader
of types reads. The calls answer only as the reader of types does. -/
theorem typeReader_induction {motive : Stream → Reading TypeExpr → Prop}
    (h : ∀ type : Reader TypeExpr, type.Follows id TypeExpr.reader →
      (∀ stream reading, type stream = .ok reading → motive stream reading) →
      ∀ stream reading, unionType type stream = .ok reading → motive stream reading)
    {stream : Stream} {reading : Reading TypeExpr}
    (hread : TypeExpr.reader stream = .ok reading) : motive stream reading := by
  have hbounded : ∀ n stream reading, restricted n TypeExpr.reader stream = .ok reading →
      motive stream reading := by
    intro n
    -- The calls of the grammar are bounded by one token less, and what they read is still what the
    -- reader of types reads there.
    induction n with
    | zero =>
      intro stream reading hread
      cases hread
    | succ n ih =>
      intro stream reading hread
      by_cases hlt : stream.size < n + 1
      · rw [restricted, if_pos hlt, restricted_succ n hlt] at hread
        exact h _ (follows_restricted n _) ih stream reading hread
      · rw [restricted, if_neg hlt] at hread
        cases hread
  refine hbounded (stream.size + 1) stream reading ?_
  rwa [restricted, if_pos (Nat.lt_succ_self _)]

/-- The signatures in a type are written. -/
theorem findsTypes_typeReader : TypeExpr.reader.FindsTypes all where
  follows := .refl _
  finds _ hs _ hread := by
    refine typeReader_induction (motive := fun stream reading => stream.Inside all →
      reading.value.Every (signaturesWritten all) ∧ reading.rest.Inside all) ?_ hread hs
    intro type hfollows htype stream reading hread hs
    have hfinds : type.FindsTypes all :=
      ⟨hfollows, fun stream hs reading hread => htype stream reading hread hs⟩
    exact findsWritten_unionType hfinds stream hs reading hread

/-! ### Declarations -/

/-- A semicolon that may be left out is found inside of the tokens. -/
theorem finds_optionalSemicolon : optionalSemicolon.Finds all fun _ => True :=
  finds_bind (finds_accept _) fun _ _ => finds_pure trivial

/-- In the types behind a word, the signatures are written. -/
theorem finds_typesAfter (w : Word) :
    (typesAfter w).Finds all fun types => everyType (signaturesWritten all) types :=
  finds_bind (finds_accept _) fun _ _ => finds_ite
    ((finds_separated findsTypes_typeReader.finds _).imp fun _ htypes => everyType_iff.mpr htypes)
    (finds_pure trivial)

/-- So they are in the declarations that the reader answers with. -/
abbrev FindsDeclarations (all : List Token) (reader : Reader Declaration) : Prop :=
  reader.Finds all fun found => found.Every (signaturesWritten all)

/-- In the declaration of a variable, the signatures are written. -/
theorem findsDeclarations_variableBody : FindsDeclarations all variableBody :=
  finds_bind finds_bindingName fun _ _ =>
    finds_bind (finds_typeAfter findsTypes_typeReader _) fun _ htype =>
      finds_bind finds_optionalSemicolon fun _ _ => finds_pure ⟨trivial, htype⟩

/-- In the declaration of a function, the signatures are written, its own among them. -/
theorem findsDeclarations_functionBody : FindsDeclarations all functionBody :=
  finds_bind finds_bindingName fun _ _ =>
    finds_bind (finds_signature findsTypes_typeReader) fun _ hsignature =>
      finds_bind finds_optionalSemicolon fun _ _ => finds_pure ⟨trivial, hsignature⟩

/-- In an interface, the signatures are written. -/
theorem findsDeclarations_interfaceBody : FindsDeclarations all interfaceBody :=
  finds_bind finds_bindingName fun _ _ =>
    finds_bind (finds_typeParameters findsTypes_typeReader) fun _ htypeParameters =>
      finds_bind (finds_typesAfter _) fun _ hparents =>
        finds_bind (finds_members findsTypes_typeReader) fun _ hmembers =>
          finds_pure ⟨trivial, htypeParameters, hparents, hmembers⟩

/-- In a class, the signatures are written. -/
theorem findsDeclarations_classBody : FindsDeclarations all classBody :=
  finds_bind finds_bindingName fun _ _ =>
    finds_bind (finds_typeParameters findsTypes_typeReader) fun _ htypeParameters =>
      finds_bind (finds_typeAfter findsTypes_typeReader _) fun _ hparent =>
        finds_bind (finds_typesAfter _) fun _ hinterfaces =>
          finds_bind (finds_members findsTypes_typeReader) fun _ hmembers =>
            finds_pure ⟨trivial, htypeParameters, hparent, hinterfaces, hmembers⟩

/-- In an alias, the signatures are written. -/
theorem findsDeclarations_aliasBody : FindsDeclarations all aliasBody :=
  finds_bind finds_bindingName fun _ _ =>
    finds_bind (finds_typeParameters findsTypes_typeReader) fun _ htypeParameters =>
      finds_bind (finds_expect _) fun _ _ =>
        finds_bind findsTypes_typeReader.finds fun _ htype =>
          finds_bind finds_optionalSemicolon fun _ _ => finds_pure ⟨trivial, htypeParameters, htype⟩

/-- In a list of declarations, the signatures are written if they are in each of them. -/
theorem finds_declarations (stops : Option Lexeme → Bool) {declaration : Reader Declaration}
    (h : FindsDeclarations all declaration) :
    (declarations stops declaration).Finds all fun found =>
      everyDeclaration (signaturesWritten all) found :=
  finds_recursive (finds_pure trivial) fun _ hmore => finds_bind (finds_look _) fun _ _ =>
    finds_ite (finds_pure trivial) (finds_bind (finds_accept _) fun _ _ => finds_ite hmore
      (finds_bind h fun _ hfirst => finds_bind hmore fun _ hrest => finds_pure ⟨hfirst, hrest⟩))

/-- In a namespace, the signatures are written if they are in each of its declarations. -/
theorem findsDeclarations_namespaceBody {declaration : Reader Declaration}
    (h : FindsDeclarations all declaration) : FindsDeclarations all (namespaceBody declaration) :=
  finds_bind (finds_separated finds_bindingName _) fun _ _ => finds_bind (finds_expect _) fun _ _ =>
    finds_bind (finds_declarations _ h) fun _ hinner => finds_bind (finds_expect _) fun _ _ =>
      finds_pure ⟨trivial, hinner⟩

/-- In a declaration behind its words, the signatures are written, whichever form it has. -/
theorem findsDeclarations_declarationBody {declaration : Reader Declaration}
    (h : FindsDeclarations all declaration) :
    FindsDeclarations all (declarationBody declaration) := by
  have hskip : ∀ {reader : Reader Declaration}, FindsDeclarations all reader →
      FindsDeclarations all (skip >>= fun _ => reader) :=
    fun hreader => finds_bind finds_skip fun _ _ => hreader
  refine finds_bind (finds_look _) fun next _ => ?_
  split
  · exact hskip findsDeclarations_variableBody
  · exact hskip findsDeclarations_variableBody
  · exact hskip findsDeclarations_variableBody
  · exact hskip findsDeclarations_functionBody
  · exact hskip findsDeclarations_interfaceBody
  · exact hskip findsDeclarations_classBody
  · exact finds_bind (finds_look _) fun _ _ =>
      finds_ite (hskip findsDeclarations_aliasBody) (finds_fail _ _)
  · exact hskip (findsDeclarations_namespaceBody h)
  · exact hskip (findsDeclarations_namespaceBody h)
  · exact finds_fail _ _

/-- A statement that is kept as it is written has no signatures. -/
theorem findsDeclarations_statement (text : List Char) (position : Nat) :
    FindsDeclarations all (statement text position) := by
  intro stream hs reading hread
  obtain ⟨stop, rest, hsplit, rfl⟩ := statement_eq_ok.mp hread
  have hevery : (Declaration.unsupported (String.ofList (Text.slice text position stop))).Every
      (signaturesWritten all) := trivial
  exact ⟨hevery, hs.of_suffix (Simulation.suffix_splitStatement hsplit)⟩

/-- In a declaration, the signatures are written. -/
theorem findsDeclarations_declaration (text : List Char) :
    FindsDeclarations all (declaration text) :=
  finds_recursive (finds_fail _ _) fun _ hmore => finds_bind (finds_look _) fun _ _ =>
    finds_bind (finds_take Simulation.suffix_splitModifierWords) fun _ _ =>
      finds_ite (findsDeclarations_statement _ _) (findsDeclarations_declarationBody hmore)

end Reader

/-- The parameters of every signature of a document that is read are written at a place of the
file. -/
theorem Document.written_ofText {text : String} {document : Document}
    (h : Document.ofText text = .ok document) :
    ∃ tokens, Token.scan text = .ok tokens
      ∧ everyDeclaration (signaturesWritten tokens) document.declarations := by
  obtain ⟨tokens, reading, htokens, hread, rfl⟩ := ofText_eq_ok.mp h
  have hinside : Stream.Inside tokens ⟨tokens, text.utf8ByteSize⟩ := .inl List.suffix_rfl
  exact ⟨tokens, htokens, (Reader.finds_declarations _ (Reader.findsDeclarations_declaration _) _
    hinside reading hread).1⟩

end Facade
