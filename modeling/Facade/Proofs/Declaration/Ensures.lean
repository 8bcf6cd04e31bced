import Facade.Declaration.Document
import Facade.Proofs.Declaration.Contents

/-!
# What readers ensure

A reader that answers has taken some tokens for a reason, so its value and what is left behind it
keep to something. `Reader.Ensures` says so of one reader at one stream; a reader that fails ensures
anything. There is one rule for each way to build a reader, and `ensures_recursive` is the rule for
recursion: what the body ensures as long as its calls do, the reader ensures. The induction over the
depth of the calls is `nested_induction`, here and wherever else a recursive reader is shown to keep
to something.
-/

set_option autoImplicit false

namespace Facade

/-- A declaration that is neither a namespace nor a statement that is kept as it is written. -/
def Declaration.IsPlain : Declaration → Prop
  | .namespace _ _ | .unsupported _ => False
  | _ => True

/-- A plain declaration is no namespace. -/
theorem Declaration.IsPlain.isNamespace {declaration : Declaration} (h : declaration.IsPlain) :
    declaration.isNamespace = false := by
  cases declaration with
  | «namespace» _ _ => cases h
  | _ => rfl

namespace Reader

variable {α β : Type}

/-- If the reader answers at the stream, its value and what is left keep to a condition. -/
def Ensures (reader : Reader α) (stream : Stream) (post : α → Stream → Prop) : Prop :=
  ∀ reading, reader stream = .ok reading → post reading.value reading.rest

/-- What a reader ensures keeps to any weaker condition. -/
theorem Ensures.imp {reader : Reader α} {stream : Stream} {post post' : α → Stream → Prop}
    (h : reader.Ensures stream post) (himp : ∀ value rest, post value rest → post' value rest) :
    reader.Ensures stream post' :=
  fun reading hread => himp _ _ (h reading hread)

/-- Every reader ensures what always holds. -/
theorem ensures_trivial (reader : Reader α) (stream : Stream) :
    reader.Ensures stream fun _ _ => True :=
  fun _ _ => trivial

/-- A value that takes no tokens ensures what holds of it in front of the stream. -/
theorem ensures_pure {value : α} {stream : Stream} {post : α → Stream → Prop}
    (h : post value stream) : Ensures (pure value) stream post := by
  intro reading hread
  cases hread
  exact h

/-- What a sequence of two readers does. -/
theorem bind_eq (reader : Reader α) (next : α → Reader β) (stream : Stream) :
    (reader >>= next) stream = match reader stream with
      | .error error => .error error
      | .ok first =>
        match next first.value first.rest with
        | .error error => .error error
        | .ok second => .ok { second with lost := first.lost ++ second.lost } :=
  rfl

/-- A sequence of two readers answers if both do. -/
theorem bind_eq_ok {reader : Reader α} {next : α → Reader β} {stream : Stream}
    {reading : Reading β} : (reader >>= next) stream = .ok reading ↔
      ∃ first second, reader stream = .ok first ∧ next first.value first.rest = .ok second
        ∧ reading = { second with lost := first.lost ++ second.lost } := by
  rw [bind_eq]
  cases reader stream with
  | error error => simp
  | ok first =>
    dsimp only
    cases hsecond : next first.value first.rest with
    | error error => simp [hsecond]
    | ok second => simp [hsecond, eq_comm]

/-- Behind a reader that leaves no remarks, the next one goes on. -/
theorem bind_of_ok {reader : Reader α} {next : α → Reader β} {value : α} {stream rest : Stream}
    (h : reader stream = .ok ⟨value, [], rest⟩) : (reader >>= next) stream = next value rest := by
  rw [bind_eq, h]
  dsimp only
  cases next value rest <;> rfl

/-- To take the next token and to go on is to go on behind it. -/
theorem skip_bind (next : Unit → Reader β) (stream : Stream) :
    (skip >>= next) stream = next () stream.tail :=
  bind_of_ok rfl

/-- To take a token if it is a given one, and to go on, is to look for it first. -/
theorem accept_bind (lexeme : Lexeme) (next : Bool → Reader β) (stream : Stream) :
    (accept lexeme >>= next) stream
      = if stream.next? = some lexeme then next true stream.tail else next false stream := by
  split
  · rename_i hnext
    exact bind_of_ok (by rw [accept, if_pos hnext])
  · rename_i hnext
    exact bind_of_ok (by rw [accept, if_neg hnext])

/-- To go on behind a value that takes no tokens is to go on with it. -/
theorem pure_bind (value : α) (next : α → Reader β) : pure value >>= next = next value := by
  funext stream
  show (match next value stream with
    | .error error => .error error
    | .ok second => .ok { second with lost := [] ++ second.lost }) = next value stream
  cases next value stream <;> rfl

/-- It does not matter how a sequence of readers is put together. -/
theorem bind_assoc {γ : Type} (reader : Reader α) (next : α → Reader β) (last : β → Reader γ) :
    reader >>= next >>= last = reader >>= fun value => next value >>= last := by
  funext stream
  simp only [bind_eq]
  cases reader stream with
  | error error => rfl
  | ok first =>
    dsimp only
    cases next first.value first.rest with
    | error error => rfl
    | ok second =>
      dsimp only
      cases last second.value second.rest with
      | error error => rfl
      | ok third => simp only [List.append_assoc]

/-- A sequence of readers ensures what the second ensures wherever the first leads. -/
theorem ensures_bind {reader : Reader α} {next : α → Reader β} {stream : Stream}
    {post : β → Stream → Prop}
    (h : reader.Ensures stream fun value rest => (next value).Ensures rest post) :
    Ensures (reader >>= next) stream post := by
  intro reading hread
  obtain ⟨first, second, hfirst, hsecond, rfl⟩ := bind_eq_ok.mp hread
  exact h first hfirst second hsecond

/-- A reader that fails ensures anything. -/
theorem ensures_fail (wanted : Wanted) (stream : Stream) (post : α → Stream → Prop) :
    Ensures (fail wanted) stream post :=
  fun _ hread => by cases hread

/-- To look at the stream ensures what holds of what is seen, in front of the same stream. -/
theorem ensures_look {f : Stream → α} {stream : Stream} {post : α → Stream → Prop}
    (h : post (f stream) stream) : Ensures (look f) stream post := by
  intro reading hread
  cases hread
  exact h

/-- To take what a function takes ensures what holds of it, in front of what is left. -/
theorem ensures_take {f : List Token → α × List Token} {stream : Stream}
    {post : α → Stream → Prop}
    (h : post (f stream.tokens).1 { stream with tokens := (f stream.tokens).2 }) :
    Ensures (take f) stream post := by
  intro reading hread
  cases hread
  exact h

/-- To take the next token ensures what holds behind it. -/
theorem ensures_skip {stream : Stream} {post : Unit → Stream → Prop} (h : post () stream.tail) :
    Ensures skip stream post := by
  intro reading hread
  cases hread
  exact h

/-- To take a token if it is a given one ensures what holds in either case. -/
theorem ensures_accept {lexeme : Lexeme} {stream : Stream} {post : Bool → Stream → Prop}
    (htrue : stream.next? = some lexeme → post true stream.tail)
    (hfalse : stream.next? ≠ some lexeme → post false stream) :
    Ensures (accept lexeme) stream post := by
  intro reading hread
  rw [accept] at hread
  split at hread
  · rename_i hnext
    cases hread
    exact htrue hnext
  · rename_i hnext
    cases hread
    exact hfalse hnext

/-- A choice between two readers ensures what each of them ensures where it is chosen. -/
theorem ensures_ite {condition : Prop} [Decidable condition] {first second : Reader α}
    {stream : Stream} {post : α → Stream → Prop}
    (hfirst : condition → first.Ensures stream post)
    (hsecond : ¬ condition → second.Ensures stream post) :
    Ensures (if condition then first else second) stream post := by
  split
  · exact hfirst ‹_›
  · exact hsecond ‹_›

/-- What a body keeps of the reader that it is given holds at any depth. -/
theorem nested_induction {stuck : Reader α} {body : Reader α → Reader α} (kept : Reader α → Prop)
    (hstuck : kept stuck) (hbody : ∀ reader, kept reader → kept (body reader))
    (depth : List Token) : kept (nested stuck body depth) := by
  induction depth with
  | nil => exact hbody _ hstuck
  | cons _ depth ih => exact hbody _ ih

/-- What the body ensures as long as its calls do, the recursive reader ensures. -/
theorem ensures_recursive {stuck : Reader α} {body : Reader α → Reader α}
    {post : Stream → α → Stream → Prop} (hstuck : ∀ stream, stuck.Ensures stream (post stream))
    (hbody : ∀ reader : Reader α, (∀ stream, reader.Ensures stream (post stream)) →
      ∀ stream, (body reader).Ensures stream (post stream)) (stream : Stream) :
    (recursive stuck body).Ensures stream (post stream) :=
  nested_induction (fun reader => ∀ stream, reader.Ensures stream (post stream)) hstuck hbody
    stream.tokens stream

/-- What the body ensures whatever its calls do, the recursive reader ensures. -/
theorem ensures_recursive_body {stuck : Reader α} {body : Reader α → Reader α} {stream : Stream}
    {post : α → Stream → Prop} (hbody : ∀ reader : Reader α, (body reader).Ensures stream post) :
    (recursive stuck body).Ensures stream post := by
  show Ensures (nested stuck body stream.tokens) stream post
  cases stream.tokens with
  | nil => exact hbody stuck
  | cons _ depth => exact hbody _

/-! ### Lists -/

/-- There is at least one item. -/
theorem ensures_separated (item : Reader α) (separator : Mark) (stream : Stream) :
    (separated item separator).Ensures stream fun values _ => values ≠ [] := by
  refine ensures_recursive_body fun more => ensures_bind ?_
  refine (ensures_trivial item stream).imp fun first rest _ => ensures_bind ?_
  refine (ensures_trivial _ rest).imp fun found behind _ => ensures_ite (fun _ => ?_) fun _ => ?_
  · refine ensures_bind ((ensures_trivial more behind).imp fun values _ _ => ?_)
    exact ensures_pure (List.cons_ne_nil first values)
  · exact ensures_pure (List.cons_ne_nil first [])

/-- What every declaration of a list keeps to, if the reader of declarations ensures it. -/
theorem ensures_declarations (stops : Option Lexeme → Bool) {declaration : Reader Declaration}
    {post : Declaration → Prop}
    (h : ∀ stream, declaration.Ensures stream fun value _ => post value) (stream : Stream) :
    (declarations stops declaration).Ensures stream fun values _ =>
      ∀ value ∈ values, post value := by
  have hnil : ∀ stream, Ensures (pure []) stream fun values _ =>
      ∀ value ∈ values, post value := fun stream =>
    ensures_pure fun value hvalue => absurd hvalue List.not_mem_nil
  refine ensures_recursive hnil
    (fun more ih stream => ?_) stream
  refine ensures_bind (ensures_look (ensures_ite (fun _ => hnil stream) fun _ => ensures_bind ?_))
  refine (ensures_trivial _ stream).imp fun found rest _ =>
    ensures_ite (fun _ => ih rest) fun _ => ?_
  refine ensures_bind ((h rest).imp fun value behind hvalue => ensures_bind ?_)
  refine (ih behind).imp fun values _ hvalues => ensures_pure fun other hother => ?_
  rcases List.mem_cons.mp hother with rfl | hin
  · exact hvalue
  · exact hvalues other hin

/-! ### Namespaces -/

/-- A reader behind the first word of a plain declaration. -/
def MakesPlain (reader : Reader Declaration) : Prop :=
  ∀ stream, reader.Ensures stream fun value _ => value.IsPlain

/-- A plain declaration that takes no tokens is one. -/
theorem makesPlain_pure {value : Declaration} (h : value.IsPlain) :
    MakesPlain (pure value) :=
  fun _ => ensures_pure h

/-- Whatever is read first, it is the last reader that makes the declaration. -/
theorem makesPlain_bind {reader : Reader α} {next : α → Reader Declaration}
    (h : ∀ value, MakesPlain (next value)) : MakesPlain (reader >>= next) :=
  fun stream => ensures_bind ((ensures_trivial reader stream).imp fun value rest _ => h value rest)

/-- A variable is plain. -/
theorem makesPlain_variableBody : MakesPlain variableBody :=
  makesPlain_bind fun _ => makesPlain_bind fun _ => makesPlain_bind fun _ => makesPlain_pure trivial

/-- A function is plain. -/
theorem makesPlain_functionBody : MakesPlain functionBody :=
  makesPlain_bind fun _ => makesPlain_bind fun _ => makesPlain_bind fun _ => makesPlain_pure trivial

/-- An interface is plain. -/
theorem makesPlain_interfaceBody : MakesPlain interfaceBody :=
  makesPlain_bind fun _ => makesPlain_bind fun _ => makesPlain_bind fun _ =>
    makesPlain_bind fun _ => makesPlain_pure trivial

/-- A class is plain. -/
theorem makesPlain_classBody : MakesPlain classBody :=
  makesPlain_bind fun _ => makesPlain_bind fun _ => makesPlain_bind fun _ =>
    makesPlain_bind fun _ => makesPlain_bind fun _ => makesPlain_pure trivial

/-- An alias is plain. -/
theorem makesPlain_aliasBody : MakesPlain aliasBody :=
  makesPlain_bind fun _ => makesPlain_bind fun _ => makesPlain_bind fun _ =>
    makesPlain_bind fun _ => makesPlain_bind fun _ => makesPlain_pure trivial

/-- A namespace has a path of one name at least. -/
theorem ensures_namespaceBody (declaration : Reader Declaration) (stream : Stream) :
    (namespaceBody declaration).Ensures stream
      fun value _ => value.firstSegment?.isSome = true := by
  refine ensures_bind ((ensures_separated bindingName .dot stream).imp fun path rest hpath => ?_)
  refine ensures_bind ((ensures_trivial _ rest).imp fun _ rest _ => ensures_bind ?_)
  refine (ensures_trivial _ rest).imp fun inner rest _ => ensures_bind ?_
  refine (ensures_trivial _ rest).imp fun _ rest _ => ensures_pure ?_
  obtain ⟨segment, more, rfl⟩ := List.exists_cons_of_ne_nil hpath
  rfl

/-- The readers behind the first words of plain declarations. -/
def plainBodies : List (Reader Declaration) :=
  [variableBody, functionBody, interfaceBody, classBody, aliasBody]

/-- What stands behind the first word of a plain declaration makes one. -/
theorem makesPlain_of_mem : ∀ body ∈ plainBodies, MakesPlain body :=
  List.forall_mem_cons.mpr ⟨makesPlain_variableBody, List.forall_mem_cons.mpr
    ⟨makesPlain_functionBody, List.forall_mem_cons.mpr ⟨makesPlain_interfaceBody,
      List.forall_mem_cons.mpr ⟨makesPlain_classBody, List.forall_mem_singleton.mpr
        makesPlain_aliasBody⟩⟩⟩⟩

/-- What follows the words that change nothing starts with a word of its own. Behind that, there is
a plain declaration or a namespace. -/
theorem declarationBody_cases {declaration : Reader Declaration} {stream : Stream}
    {reading : Reading Declaration} (h : declarationBody declaration stream = .ok reading) :
    ∃ word, stream.next? = some (.word word)
      ∧ ((∃ body ∈ plainBodies, body stream.tail = .ok reading)
        ∨ word ∈ [.moduleWord, .namespaceWord]
          ∧ namespaceBody declaration stream.tail = .ok reading) := by
  -- Behind a word that is skipped, one of the plain bodies gives the reading.
  have hskip : ∀ {word : Word} {body : Reader Declaration}, stream.next? = some (.word word) →
      body ∈ plainBodies → (skip >>= fun _ => body) stream = .ok reading →
        ∃ word, stream.next? = some (.word word)
          ∧ ((∃ body ∈ plainBodies, body stream.tail = .ok reading)
            ∨ word ∈ [.moduleWord, .namespaceWord]
              ∧ namespaceBody declaration stream.tail = .ok reading) := by
    intro word body hword hbody hread
    rw [skip_bind] at hread
    exact ⟨word, hword, .inl ⟨body, hbody, hread⟩⟩
  have hmem : ∀ n (hlt : n < plainBodies.length), plainBodies[n] ∈ plainBodies :=
    fun _ hlt => List.getElem_mem hlt
  rw [declarationBody, bind_of_ok rfl] at h
  obtain ⟨next, hnext⟩ : ∃ next, stream.next? = next := ⟨_, rfl⟩
  rw [hnext] at h
  split at h
  -- The cases are in the order of the parser, where three words announce a variable.
  · exact hskip hnext (hmem 0 (by decide)) h
  · exact hskip hnext (hmem 0 (by decide)) h
  · exact hskip hnext (hmem 0 (by decide)) h
  · exact hskip hnext (hmem 1 (by decide)) h
  · exact hskip hnext (hmem 2 (by decide)) h
  · exact hskip hnext (hmem 3 (by decide)) h
  · rw [bind_of_ok rfl] at h
    split at h
    · exact hskip hnext (hmem 4 (by decide)) h
    · cases h
  · rw [skip_bind] at h
    exact ⟨_, hnext, .inr ⟨by decide, h⟩⟩
  · rw [skip_bind] at h
    exact ⟨_, hnext, .inr ⟨by decide, h⟩⟩
  · cases h

/-- A namespace that is read behind its words has a path of one name at least. -/
theorem ensures_declarationBody (declaration : Reader Declaration) (stream : Stream) :
    (declarationBody declaration).Ensures stream fun value _ =>
      value.isNamespace = true → value.firstSegment?.isSome = true := by
  intro reading hread hnamespace
  obtain ⟨word, -, ⟨body, hbody, hplain⟩ | ⟨-, hpath⟩⟩ := declarationBody_cases hread
  · cases hnamespace.symm.trans (makesPlain_of_mem body hbody _ reading hplain).isNamespace
  · exact ensures_namespaceBody declaration stream.tail reading hpath

/-- A statement that is kept is read where the walk over its tokens comes to an end. -/
theorem statement_eq_ok {text : List Char} {position : Nat} {stream : Stream}
    {reading : Reading Declaration} : statement text position stream = .ok reading ↔
      ∃ stop rest, splitStatement 0 position stream.tokens = .done stop rest
        ∧ reading = ⟨.unsupported (String.ofList (Text.slice text position stop)), [],
          { stream with tokens := rest }⟩ := by
  rw [statement]
  constructor
  · intro h
    split at h
    · rename_i stop rest hsplit
      exact ⟨stop, rest, hsplit, (Except.ok.inj h).symm⟩
    · cases h
    · cases h
  · rintro ⟨stop, rest, hsplit, rfl⟩
    rw [hsplit]

/-- A statement that is kept is no namespace. -/
theorem ensures_statement (text : List Char) (position : Nat) (stream : Stream) :
    (statement text position).Ensures stream fun value _ => value.isNamespace = false := by
  intro reading hread
  obtain ⟨stop, rest, -, rfl⟩ := statement_eq_ok.mp hread
  rfl

/-- So every namespace that is read has a path of one name at least. -/
theorem ensures_declaration (text : List Char) (stream : Stream) :
    (declaration text).Ensures stream fun value _ =>
      value.isNamespace = true → value.firstSegment?.isSome = true := by
  refine ensures_recursive_body fun reader => ensures_bind (ensures_look (ensures_bind ?_))
  refine (ensures_trivial _ stream).imp fun found rest _ => ensures_ite (fun _ => ?_) fun _ => ?_
  · refine (ensures_statement text stream.position rest).imp fun value _ hvalue hnamespace => ?_
    cases hnamespace.symm.trans hvalue
  · exact ensures_declarationBody reader rest

end Reader

/-- A text is read as a document exactly if it has tokens and the declarations are read from all of
them. -/
theorem Document.ofText_eq_ok {text : String} {document : Document} :
    ofText text = .ok document ↔ ∃ tokens reading, Token.scan text = .ok tokens
      ∧ Reader.declarations Option.isNone (Reader.declaration text.toList)
          ⟨tokens, text.utf8ByteSize⟩ = .ok reading
      ∧ document = ⟨reading.value, reading.lost⟩ := by
  constructor
  · intro h
    rw [ofText] at h
    split at h
    · rename_i tokens htokens
      rw [ofStream] at h
      split at h
      · rename_i reading hread
        cases h
        exact ⟨tokens, reading, htokens, hread, rfl⟩
      · cases h
    · cases h
  · rintro ⟨tokens, reading, htokens, hread, rfl⟩
    rw [ofText, htokens]
    dsimp only
    rw [ofStream, hread]

/-- The namespaces of a document have paths of one name at least. -/
theorem Document.firstSegment?_ofText {text : String} {document : Document}
    (h : Document.ofText text = .ok document) :
    ∀ declaration ∈ document.declarations,
      declaration.isNamespace = true → declaration.firstSegment?.isSome = true := by
  obtain ⟨tokens, reading, -, hread, rfl⟩ := ofText_eq_ok.mp h
  exact Reader.ensures_declarations Option.isNone (Reader.ensures_declaration text.toList) _ reading
    hread

end Facade
