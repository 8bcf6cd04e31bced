import Facade.Proofs.Declaration.Every
import Facade.Proofs.Declaration.Respect.Types
import Facade.Proofs.Token.Scanned

/-!
# Types and members as they are read

The reader of types answers with trees of a certain shape only: rest types stand nowhere but at
parameters, unions and intersections have two parts at least and are nested by precedence, arrows
reach as far as they can, and names are names. `formed` is this shape, node by node, and
`makes_typeReader` says that the reader keeps to it.

Three facts go along with the shape, because they are what the next node depends on: no type is a
rest type, and what follows a type is neither a bar nor an ampersand (`Complete`). The tokens have
to be those of a scanner, since names and numbers are taken from them as they are.
-/

set_option autoImplicit false

namespace Facade

/-! ### The shape -/

/-- A name that a lexeme of the scanner gives to a variable, a parameter or a type. -/
def IsBindingName (text : String) : Prop :=
  ∃ lexeme : Lexeme, lexeme.Scanned ∧ lexeme.bindingName? = some text

/-- A literal as it is written: a string, a number with a sign or without, or one of four words. -/
def IsLiteral (text : String) : Prop :=
  (∃ value, text = Text.quoted value) ∨ IsNumber text
    ∨ (∃ number, IsNumber number ∧ text = "-" ++ number)
    ∨ text ∈ ["true", "false", "null", "this"]

namespace TypeExpr

/-- Whether the type is a rest type, which is written with dots. -/
def isRepeated : TypeExpr → Bool
  | .repeated _ => true
  | _ => false

/-- Whether the type has parts with bars between them. -/
def isUnion : TypeExpr → Bool
  | .union _ => true
  | _ => false

/-- Whether the type has parts with ampersands between them. -/
def isIntersection : TypeExpr → Bool
  | .intersection _ => true
  | _ => false

/-- Whether the type has an arrow, behind which its result goes on as far as it can. -/
def isArrow : TypeExpr → Bool
  | .function _ => true
  | .constructor _ => true
  | _ => false

/-- Whether the type, or the last part of an intersection, has an arrow. -/
def endsInArrow : TypeExpr → Bool
  | .intersection types => types.getLast?.any isArrow
  | type => type.isArrow

end TypeExpr

/-- A type that is written, if there is one, is no rest type. -/
def NotRepeated (type : Option TypeExpr) : Prop :=
  ∀ found ∈ type, found.isRepeated = false

/-- A member that has the name of one of some lexemes. What is called `new` without a question mark
would be no method, but a construct signature. -/
def Member.NamedBy (allowed : Lexeme → Prop) : Member → Prop
  | .property name _ _ => ∃ lexeme, allowed lexeme ∧ lexeme.propertyName? = some name
  | .method name optional _ => ∃ lexeme, allowed lexeme ∧ lexeme.propertyName? = some name
      ∧ (lexeme = .word .newWord → optional = true)
  | _ => True

/-- The shape of types and members that are read, node by node. -/
def formed : Check where
  type
    | .named path arguments => (∃ first rest, path = first :: rest ∧ IsName first
        ∧ ∀ segment ∈ rest, IsBindingName segment) ∧ ∀ type ∈ arguments, type.isRepeated = false
    | .function signature => signature.result.isSome = true
    | .constructor signature => signature.result.isSome = true
    | .repeated element => element.isRepeated = false
    | .union types => 2 ≤ types.length
        ∧ (∀ type ∈ types, type.isUnion = false ∧ type.isRepeated = false)
        ∧ ∀ type ∈ types.dropLast, type.endsInArrow = false
    | .intersection types => 2 ≤ types.length
        ∧ (∀ type ∈ types, type.isUnion = false ∧ type.isIntersection = false
          ∧ type.isRepeated = false)
        ∧ ∀ type ∈ types.dropLast, type.isArrow = false
    | .tuple types => ∀ type ∈ types, type.isRepeated = false
    | .literal text => IsLiteral text
    | .query path => path ≠ [] ∧ ∀ segment ∈ path, IsBindingName segment
    | .parenthesized inner => inner.isRepeated = false
    | .primitive _ => True
    | .object _ => True
  signature signature := NotRepeated signature.result
  typeParameter parameter :=
    IsBindingName parameter.name ∧ NotRepeated parameter.bound ∧ NotRepeated parameter.default
  parameter parameter := IsBindingName parameter.name
  member member := member.NamedBy Lexeme.Scanned ∧ match member with
    | .index _ type => type.isRepeated = false
    | .property _ _ type => NotRepeated type
    | .static inner => (∀ member, inner ≠ .static member) ∧ ∀ signature, inner ≠ .call signature
    | _ => True
  declaration
    | .variable name type => IsBindingName name ∧ NotRepeated type
    | .function name _ => IsBindingName name
    | .interface name _ parents _ => IsBindingName name ∧ ∀ type ∈ parents, type.isRepeated = false
    | .alias name _ type => IsBindingName name ∧ type.isRepeated = false
    | .class name _ parent interfaces _ => IsBindingName name ∧ NotRepeated parent
        ∧ ∀ type ∈ interfaces, type.isRepeated = false
    | .namespace path _ => path ≠ [] ∧ ∀ segment ∈ path, IsBindingName segment
    | .unsupported _ => True

namespace Stream

/-- Every token is as the scanner makes it. -/
def Scanned (stream : Stream) : Prop :=
  ∀ token ∈ stream.tokens, token.lexeme.Scanned

variable {stream : Stream}

/-- Some of the scanner's tokens are tokens of the scanner. -/
theorem Scanned.of_subset (h : stream.Scanned) {rest : Stream}
    (hsubset : rest.tokens ⊆ stream.tokens) : rest.Scanned :=
  fun token htoken => h token (hsubset htoken)

/-- So is what is left behind the next one. -/
theorem Scanned.tail (h : stream.Scanned) : stream.tail.Scanned :=
  h.of_subset fun _ => List.mem_of_mem_tail

/-- What comes next is as the scanner makes it. -/
theorem Scanned.next? (h : stream.Scanned) {lexeme : Lexeme} (hnext : stream.next? = some lexeme) :
    lexeme.Scanned := by
  obtain ⟨token, htoken, rfl⟩ := Option.map_eq_some_iff.mp hnext
  exact h token (List.mem_of_mem_head? htoken)

/-- What is left of a longer mark without its `>` is a mark, so the scanner could have made it. -/
theorem Scanned.behindAngle (h : stream.Scanned) : stream.behindAngle.Scanned := by
  rw [Stream.behindAngle]
  split
  · rename_i htokens
    rw [Scanned, htokens, List.forall_mem_cons] at h
    split
    · exact List.forall_mem_cons.mpr ⟨trivial, h.2⟩
    · exact h.2
  · exact h

end Stream

namespace Reader

variable {α β : Type}

/-- At tokens of a scanner, the reader answers with what keeps to a condition, and leaves tokens
of a scanner. -/
def Makes (reader : Reader α) (post : α → Stream → Prop) : Prop :=
  ∀ stream : Stream, stream.Scanned →
    reader.Ensures stream fun value rest => post value rest ∧ rest.Scanned

/-- What a reader makes also keeps to any weaker condition. -/
theorem Makes.imp {reader : Reader α} {post post' : α → Stream → Prop} (h : reader.Makes post)
    (himp : ∀ value rest, post value rest → post' value rest) : reader.Makes post' :=
  fun stream hs => (h stream hs).imp fun value rest hpost => ⟨himp value rest hpost.1, hpost.2⟩

/-- A value that takes no tokens keeps to what it keeps to in front of any stream. -/
theorem makes_pure {value : α} {post : α → Stream → Prop} (h : ∀ rest, post value rest) :
    Makes (pure value) post :=
  fun stream hs => ensures_pure ⟨h stream, hs⟩

/-- A reader that fails makes anything. -/
theorem makes_fail (wanted : Wanted) (post : α → Stream → Prop) : Makes (fail wanted) post :=
  fun stream _ => ensures_fail wanted stream _

/-- Readers make their values one after the other, each with what the one before made. -/
theorem makes_bind {reader : Reader α} {next : α → Reader β} {post : α → Stream → Prop}
    {post' : β → Stream → Prop} (h : reader.Makes post)
    (hnext : ∀ value rest, post value rest → (next value).Makes post') :
    Makes (reader >>= next) post' :=
  fun stream hs => ensures_bind ((h stream hs).imp fun value rest hpost =>
    hnext value rest hpost.1 rest hpost.2)

/-- What is made out of a value keeps to what follows for it. -/
theorem makes_map {reader : Reader α} {f : α → β} {post : α → Stream → Prop}
    {post' : β → Stream → Prop} (h : reader.Makes post)
    (hf : ∀ value rest, post value rest → post' (f value) rest) : Makes (f <$> reader) post' :=
  fun stream hs => ensures_bind ((h stream hs).imp fun value rest hpost =>
    ensures_pure ⟨hf value rest hpost.1, hpost.2⟩)

/-- A choice between two readers makes what both of them make, each where it is chosen. -/
theorem makes_ite {condition : Prop} [Decidable condition] {first second : Reader α}
    {post : α → Stream → Prop} (hfirst : condition → first.Makes post)
    (hsecond : ¬ condition → second.Makes post) :
    Makes (if condition then first else second) post :=
  fun stream hs => ensures_ite (fun h => hfirst h stream hs) fun h => hsecond h stream hs

/-- To look at the stream leaves the scanner's tokens. -/
theorem makes_look (f : Stream → α) : Makes (look f) fun _ _ => True :=
  fun _ hs => ensures_look ⟨trivial, hs⟩

/-- To take the next token leaves the scanner's tokens. -/
theorem makes_skip : Makes skip fun _ _ => True :=
  fun _ hs => ensures_skip ⟨trivial, hs.tail⟩

/-- A remark leaves the scanner's tokens. -/
theorem makes_remark (lost : LostRest) : Makes (remark lost) fun _ _ => True := by
  intro stream hs reading hread
  cases hread
  exact ⟨trivial, hs⟩

/-- To take a lexeme, if it comes next, leaves the scanner's tokens. -/
theorem makes_accept (lexeme : Lexeme) : Makes (accept lexeme) fun _ _ => True :=
  fun _ hs => ensures_accept (fun _ => ⟨trivial, hs.tail⟩) fun _ => ⟨trivial, hs⟩

/-- To take a mark that has to come next leaves the scanner's tokens. -/
theorem makes_expect (mark : Mark) : Makes (expect mark) fun _ _ => True :=
  makes_bind (makes_accept _) fun _ _ _ =>
    makes_ite (fun _ => makes_pure fun _ => trivial) fun _ => makes_fail _ _

/-- What a function makes of the next lexeme it makes of one that the scanner made. -/
theorem makes_expectSome (wanted : Wanted) (f : Lexeme → Option α) :
    Makes (expectSome wanted f)
      fun value _ => ∃ lexeme, lexeme.Scanned ∧ f lexeme = some value := by
  intro stream hs reading hread
  obtain ⟨lexeme, value, hnext, hf, rfl⟩ := expectSome_eq_ok.mp hread
  exact ⟨⟨lexeme, hs.next? hnext, hf⟩, hs.tail⟩

/-- A name that is read can be declared. -/
theorem makes_bindingName : Makes bindingName fun name _ => IsBindingName name :=
  makes_expectSome _ _

/-- To take a single `>` leaves the scanner's tokens. -/
theorem makes_closeAngle : Makes closeAngle fun _ _ => True := by
  intro stream hs reading hread
  obtain ⟨-, rfl⟩ := closeAngle_eq_ok.mp hread
  exact ⟨trivial, hs.behindAngle⟩

/-! ### Recursion and lists -/

/-- A reader that answers the same on the same stream, and leaves no more than it finds. -/
def Regular (reader : Reader α) : Prop :=
  ∀ n, Simulation.same.Alike n reader reader

/-- A recursive reader is the same wherever it would be stuck, if its body takes a token before
every call. -/
theorem recursive_eq_fail {more : Nat} {stuck : Reader α} {body : Reader α → Reader α}
    (hbody : ∀ {m reader reader'}, Simulation.same.Answers more m reader reader' →
      Simulation.same.Answers more (m + 1) (body reader) (body reader')) :
    recursive stuck body = recursive (fail .type) body := by
  funext stream
  exact Simulation.eq_of_same (Simulation.answers_recursive (fun _ => hbody)
    (fun _ _ _ _ _ => hbody) (fun _ _ _ _ _ => hbody) rfl (Nat.lt_succ_self _) (Nat.lt_succ_self _))

/-- A recursive reader makes what its body makes, as long as its calls make it. -/
theorem makes_recursive {stuck : Reader α} {body : Reader α → Reader α}
    {post : α → Stream → Prop} (hstuck : stuck.Makes post)
    (hmakes : ∀ reader : Reader α, reader.Makes post → (body reader).Makes post) :
    (recursive stuck body).Makes post :=
  fun stream => nested_induction (Makes · post) hstuck hmakes stream.tokens stream

/-- Items with a separator behind all but the last, where each item keeps to a condition on itself
and what follows it. -/
def Chain (item : α → Stream → Prop) (separator : Mark) (values : List α) (rest : Stream) : Prop :=
  ∃ front last, values = front ++ [last]
    ∧ (∀ value ∈ front, ∃ behind, item value behind ∧ behind.next? = some (.mark separator))
    ∧ item last rest ∧ rest.next? ≠ some (.mark separator)

/-- What follows for every item holds of all values of a chain. -/
theorem Chain.forall {item : α → Stream → Prop} {separator : Mark} {values : List α}
    {rest : Stream} (h : Chain item separator values rest) {post : α → Prop}
    (hpost : ∀ value behind, item value behind → post value) : ∀ value ∈ values, post value := by
  obtain ⟨front, last, rfl, hfront, hlast, -⟩ := h
  intro value hvalue
  rcases List.mem_append.mp hvalue with hin | hin
  · obtain ⟨behind, hitem, -⟩ := hfront value hin
    exact hpost value behind hitem
  · cases List.mem_singleton.mp hin
    exact hpost _ rest hlast

/-- Items with separators make a chain, in which each knows what comes behind it. -/
theorem makes_separated {item : Reader α} {separator : Mark} {post : α → Stream → Prop}
    (hangle : (Lexeme.mark separator).isAngle = false) (hregular : item.Regular)
    (h : item.Makes post) : (separated item separator).Makes (Chain post separator) := by
  have heq : separated item separator
      = recursive (fail .type) (Simulation.separatedBody item separator) :=
    recursive_eq_fail fun hmore => Simulation.alike_separatedBody hangle (hregular _) hmore
  rw [heq]
  refine makes_recursive (makes_fail _ _) fun more hmore stream hs => ?_
  refine ensures_bind ((h stream hs).imp fun first rest hfirst => ensures_bind ?_)
  refine ensures_accept (fun hnext => ?_) fun hnext => ?_
  · refine ensures_bind ((hmore rest.tail hfirst.2.tail).imp fun values behind hvalues => ?_)
    obtain ⟨⟨front, last, rfl, hfront, hlast⟩, hscanned⟩ := hvalues
    refine ensures_pure ⟨⟨first :: front, last, rfl, ?_, hlast⟩, hscanned⟩
    exact List.forall_mem_cons.mpr ⟨⟨rest, hfirst.1, hnext⟩, hfront⟩
  · refine ensures_pure ⟨⟨[], first, rfl, ?_, hfirst.1, hnext⟩, hfirst.2⟩
    exact fun _ hin => absurd hin List.not_mem_nil

/-- Every item keeps to a condition, if each does that is read. -/
theorem makes_separatedUntil {close : Mark} {item : Reader α} {separator : Reader Bool}
    {post : α → Prop} (h : item.Makes fun value _ => post value)
    (hseparator : separator.Makes fun _ _ => True) :
    (separatedUntil close item separator).Makes fun values _ => ∀ value ∈ values, post value := by
  have hnil : Makes (pure []) fun (values : List α) _ => ∀ value ∈ values, post value :=
    makes_pure fun _ value hin => absurd hin List.not_mem_nil
  refine makes_recursive hnil fun more hmore => makes_bind (makes_look _) fun _ _ _ =>
    makes_ite (fun _ => hnil) fun _ => makes_bind h fun first _ hfirst =>
      makes_bind hseparator fun _ _ _ => makes_ite (fun _ => ?_) fun _ => ?_
  · exact makes_bind hmore fun values _ hvalues =>
      makes_pure fun _ => List.forall_mem_cons.mpr ⟨hfirst, hvalues⟩
  · exact makes_pure fun _ => List.forall_mem_singleton.mpr hfirst

/-! ### Names -/

/-- What is left behind names with dots is taken from the tokens. -/
theorem subset_splitDotted (tokens : List Token) : (splitDotted tokens).2 ⊆ tokens :=
  (Simulation.suffix_splitDotted tokens).subset

/-- Behind a dot, only names that can be declared are taken. -/
theorem isBindingName_splitDotted {tokens : List Token}
    (h : ∀ token ∈ tokens, token.lexeme.Scanned) :
    ∀ name ∈ (splitDotted tokens).1, IsBindingName name := by
  fun_induction splitDotted tokens with
  | case1 dot name rest hdot text htext more behind hsplit ih =>
    rw [List.forall_mem_cons, List.forall_mem_cons] at h
    rw [hsplit] at ih
    exact List.forall_mem_cons.mpr ⟨⟨name.lexeme, h.2.1, htext⟩, ih h.2.2⟩
  | case2 | case3 | case4 => exact fun _ hin => absurd hin List.not_mem_nil

/-- The first name of a path is that of the next lexeme. -/
theorem makes_qualifiedName {first : Lexeme → Prop} {stream : Stream} (hs : stream.Scanned)
    (hfirst : ∀ lexeme, stream.next? = some lexeme → first lexeme) :
    qualifiedName.Ensures stream fun path rest =>
      (∃ lexeme name more, first lexeme ∧ lexeme.Scanned ∧ lexeme.bindingName? = some name
        ∧ path = name :: more ∧ ∀ segment ∈ more, IsBindingName segment) ∧ rest.Scanned := by
  refine ensures_bind fun reading hread => ?_
  obtain ⟨lexeme, name, hnext, hlexeme, rfl⟩ := expectSome_eq_ok.mp hread
  refine ensures_bind (ensures_take (ensures_pure ⟨?_, hs.tail.of_subset (subset_splitDotted _)⟩))
  exact ⟨lexeme, name, _, hfirst lexeme hnext, hs.next? hnext, hlexeme, rfl,
    isBindingName_splitDotted hs.tail⟩

/-! ### Signatures -/

/-- What the reader of types answers with: a type in shape that is no rest type, behind which
neither a bar nor an ampersand comes. -/
structure Complete (type : TypeExpr) (rest : Stream) : Prop where
  every : type.Every formed
  isRepeated : type.isRepeated = false
  bar : rest.next? ≠ some (.mark .bar)
  ampersand : rest.next? ≠ some (.mark .ampersand)

/-- A reader of types that the others can go on with. -/
structure ReadsTypes (type : Reader TypeExpr) : Prop where
  regular : type.Regular
  makes : type.Makes Complete

variable {type : Reader TypeExpr}

/-- A type behind a lexeme is in shape and no rest type. -/
theorem makes_typeAfter (h : type.ReadsTypes) (lexeme : Lexeme) :
    (typeAfter type lexeme).Makes fun found _ => everyOption formed found ∧ NotRepeated found :=
  makes_bind (makes_accept lexeme) fun _ _ _ =>
    makes_ite (fun _ => makes_bind h.makes fun found _ hfound => makes_pure fun _ =>
      ⟨hfound.every, fun other hother => by cases hother; exact hfound.isRepeated⟩)
      fun _ => makes_pure fun _ => ⟨trivial, fun _ hother => by cases hother⟩

/-- A type parameter is in shape. -/
theorem makes_typeParameter (h : type.ReadsTypes) :
    (typeParameter type).Makes fun parameter _ => parameter.Every formed :=
  makes_bind makes_bindingName fun _ _ hname =>
    makes_bind (makes_typeAfter h _) fun _ _ hbound =>
      makes_bind (makes_typeAfter h _) fun _ _ hdefault => makes_pure fun _ =>
        ⟨⟨hname, hbound.2, hdefault.2⟩, hbound.1, hdefault.1⟩

/-- Type parameters are in shape. -/
theorem makes_typeParameters (h : type.ReadsTypes) :
    (typeParameters type).Makes fun parameters _ => everyTypeParameter formed parameters := by
  refine makes_bind (makes_accept _) fun _ _ _ => makes_ite (fun _ => ?_) fun _ =>
    makes_pure fun _ => trivial
  refine makes_bind (makes_separated rfl (fun n => ?_) (makes_typeParameter h))
    fun parameters _ hparameters => makes_bind makes_closeAngle fun _ _ _ => makes_pure fun _ => ?_
  · exact (Simulation.alike_typeParameter (h.regular n)).anti (Nat.le_succ n)
  · exact everyTypeParameter_iff.mpr (hparameters.forall fun _ _ hevery => hevery)

/-- The type that a rest parameter keeps is in shape, if the one that is written is and has no dots
itself. -/
theorem makes_restType (position : Nat) (name : String) {found : Option TypeExpr}
    (hevery : everyOption formed found) (hrepeated : NotRepeated found) :
    (restType position name found).Makes fun kept _ => everyOption formed kept := by
  rw [restType]
  split
  · rename_i element helement
    refine makes_pure fun _ => ?_
    obtain ⟨array, rfl, hbind⟩ := Option.bind_eq_some_iff.mp helement
    cases TypeExpr.eq_array_of_arrayElement? hbind
    obtain ⟨⟨-, helements⟩, hinner⟩ := hevery
    exact ⟨helements element (List.mem_singleton.mpr rfl), hinner.1⟩
  · exact makes_bind (makes_remark _) fun _ _ _ => makes_pure fun _ => hevery

/-- A parameter is in shape. -/
theorem makes_parameter (h : type.ReadsTypes) :
    (parameter type).Makes fun parameter _ => parameter.Every formed :=
  makes_bind (makes_look _) fun position _ _ => makes_bind (makes_accept _) fun _ _ _ =>
    makes_bind makes_bindingName fun name _ hname => makes_bind (makes_accept _) fun _ _ _ =>
      makes_bind (makes_typeAfter h _) fun _ _ hfound => makes_ite
        (fun _ => makes_bind (makes_restType position name hfound.1 hfound.2) fun _ _ hkept =>
          makes_pure fun _ => ⟨hname, hkept⟩)
        fun _ => makes_pure fun _ => ⟨hname, hfound.1⟩

/-- A parameter that may turn out to be a receiver is in shape, if there is one. -/
theorem makes_parameterOrReceiver (h : type.ReadsTypes) :
    (parameterOrReceiver type).Makes fun found _ =>
      ∀ parameter ∈ found, parameter.Every formed := by
  refine makes_bind (makes_accept _) fun _ _ _ => makes_ite (fun _ => ?_) fun _ => ?_
  · exact makes_bind (makes_expect _) fun _ _ _ => makes_bind h.makes fun _ _ _ =>
      makes_pure fun _ _ hfound => by cases hfound
  · exact makes_bind (makes_parameter h) fun parameter _ hparameter =>
      makes_pure fun _ _ hfound => by cases hfound; exact hparameter

/-- Parameters are in shape. -/
theorem makes_parameters (h : type.ReadsTypes) :
    (parameters type).Makes fun parameters _ => everyParameter formed parameters := by
  refine makes_bind (makes_expect _) fun _ _ _ => makes_bind
    (makes_separatedUntil (makes_parameterOrReceiver h) (makes_accept _)) fun all _ hall =>
      makes_bind (makes_expect _) fun _ _ _ => makes_pure fun _ => everyParameter_iff.mpr ?_
  intro parameter hparameter
  obtain ⟨found, hfound, hin⟩ := List.mem_filterMap.mp hparameter
  exact hall found hfound parameter hin

/-- A signature is in shape. -/
theorem makes_signature (h : type.ReadsTypes) :
    (signature type).Makes fun signature _ => signature.Every formed :=
  makes_bind (makes_typeParameters h) fun _ _ htypeParameters =>
    makes_bind (makes_parameters h) fun _ _ hparameters =>
      makes_bind (makes_typeAfter h _) fun _ _ hresult => makes_pure fun _ =>
        ⟨hresult.2, htypeParameters, hparameters, hresult.1⟩

/-- A signature with an arrow has a result, and ends where that does. -/
theorem makes_functionSignature (h : type.ReadsTypes) :
    (functionSignature type).Makes fun signature rest =>
      signature.Every formed ∧ signature.result.isSome = true
        ∧ rest.next? ≠ some (.mark .bar) ∧ rest.next? ≠ some (.mark .ampersand) := by
  refine makes_bind (makes_typeParameters h) fun _ _ htypeParameters =>
    makes_bind (makes_parameters h) fun _ _ hparameters =>
      makes_bind (makes_expect _) fun _ _ _ => ?_
  refine fun stream hs => ensures_bind ((h.makes stream hs).imp fun result rest hresult => ?_)
  obtain ⟨hcomplete, hrest⟩ := hresult
  have hrepeated : NotRepeated (some result) := fun found hfound => by
    cases hfound
    exact hcomplete.isRepeated
  exact ensures_pure ⟨⟨⟨hrepeated, htypeParameters, hparameters, hcomplete.every⟩, rfl,
    hcomplete.bar, hcomplete.ampersand⟩, hrest⟩

/-! ### Members -/

/-- What is left behind words that modify is taken from the tokens. -/
theorem subset_splitModifiers (tokens : List Token) : (splitModifiers tokens).2 ⊆ tokens :=
  (Simulation.suffix_splitModifiers tokens).subset

/-- So is what is left behind semicolons. -/
theorem subset_splitSemicolons (tokens : List Token) : (splitSemicolons tokens).2 ⊆ tokens :=
  (Simulation.suffix_splitSemicolons tokens).subset

/-- So is what is left behind brackets. -/
theorem subset_splitBrackets (tokens : List Token) : (splitBrackets tokens).2 ⊆ tokens :=
  (Simulation.suffix_splitBrackets tokens).subset

/-- Behind a modifier there is something that goes on with a member. -/
theorem endsName_splitModifiers (tokens : List Token) :
    splitModifiers tokens = (false, tokens)
      ∨ endsName ((splitModifiers tokens).2.head?.map Token.lexeme) = false := by
  fun_induction splitModifiers tokens with
  | case1 => exact .inl rfl
  | case2 token rest hmodifier isStatic behind hsplit ih =>
    simp only [Bool.and_eq_true, Bool.not_eq_true'] at hmodifier
    rw [hsplit] at ih
    rcases ih with heq | hends
    · cases heq
      exact .inr hmodifier.2
    · exact .inr hends
  | case3 => exact .inl rfl

/-- So no signature comes behind `static`. -/
theorem startsSignature_splitModifiers {tokens : List Token}
    (h : (splitModifiers tokens).1 = true) :
    startsSignature ((splitModifiers tokens).2.head?.map Token.lexeme) = false := by
  have hends : endsName ((splitModifiers tokens).2.head?.map Token.lexeme) = false := by
    rcases endsName_splitModifiers tokens with heq | hends
    · rw [heq] at h
      cases h
    · exact hends
  generalize (splitModifiers tokens).2.head?.map Token.lexeme = next at hends ⊢
  rcases hnext : startsSignature next with - | -
  · rfl
  · simp only [startsSignature, Bool.or_eq_true, beq_iff_eq] at hnext
    rcases hnext with rfl | rfl <;> cases hends

/-- A member in shape that has no modifier. It is a call signature only where one starts. -/
def BareMember (next : Option Lexeme) (member : Member) : Prop :=
  member.Every formed ∧ (∀ inner, member ≠ .static inner)
    ∧ (startsSignature next = false → ∀ signature, member ≠ .call signature)

/-- A member without its modifiers is in shape and bare, and a call signature only where one
starts. -/
theorem ensures_memberBody (h : type.ReadsTypes) {stream : Stream} (hs : stream.Scanned) :
    (memberBody type).Ensures stream fun member rest =>
      BareMember stream.next? member ∧ rest.Scanned := by
  refine ensures_bind (ensures_accept (fun _ => ?_) fun _ => ?_)
  · refine makes_bind (makes_parameter h) (fun parameter _ hparameter => ?_) _ hs.tail
    refine makes_bind (makes_expect _) fun _ _ _ => makes_bind (makes_expect _) fun _ _ _ => ?_
    refine makes_bind h.makes fun found _ hfound => makes_pure fun _ => ?_
    exact ⟨⟨⟨trivial, hfound.isRepeated⟩, hparameter, hfound.every⟩, fun _ => Member.noConfusion,
      fun _ _ => Member.noConfusion⟩
  refine ensures_bind (ensures_look (ensures_ite (fun hstarts => ?_) fun hstarts => ?_))
  · refine makes_bind (makes_signature h)
      (fun signature _ hsignature => makes_pure fun _ => ?_) _ hs
    refine ⟨⟨⟨trivial, trivial⟩, hsignature⟩, fun _ => Member.noConfusion, fun hnot => ?_⟩
    cases hstarts.symm.trans hnot
  refine ensures_bind (ensures_look (ensures_bind (ensures_look ?_)))
  refine ensures_ite (fun _ => ?_) fun hnew => ?_
  · refine ensures_bind (ensures_skip ?_)
    refine makes_bind (makes_signature h) (fun signature _ hsignature => makes_pure fun _ => ?_) _
      hs.tail
    exact ⟨⟨⟨trivial, trivial⟩, hsignature⟩, fun _ => Member.noConfusion,
      fun _ _ => Member.noConfusion⟩
  refine ensures_bind fun reading hread => ?_
  obtain ⟨lexeme, name, hnext, hlexeme, rfl⟩ := expectSome_eq_ok.mp hread
  have hscanned := hs.next? hnext
  -- A method called `new` without a question mark would have been a construct signature.
  refine ensures_bind (ensures_accept (fun _ => ?_) fun _ => ?_)
  · refine ensures_bind (ensures_look (ensures_ite (fun _ => ?_) fun _ => ?_))
    · refine makes_bind (makes_signature h) (fun signature _ hsignature => makes_pure fun _ => ?_)
        _ hs.tail.tail
      exact ⟨⟨⟨⟨lexeme, hscanned, hlexeme, fun _ => rfl⟩, trivial⟩, hsignature⟩,
        fun _ => Member.noConfusion, fun _ _ => Member.noConfusion⟩
    · refine makes_bind (makes_typeAfter h _) (fun found _ hfound => makes_pure fun _ => ?_) _
        hs.tail.tail
      exact ⟨⟨⟨⟨lexeme, hscanned, hlexeme⟩, hfound.2⟩, hfound.1⟩, fun _ => Member.noConfusion,
        fun _ _ => Member.noConfusion⟩
  · refine ensures_bind (ensures_look (ensures_ite (fun hbehind => ?_) fun _ => ?_))
    · refine makes_bind (makes_signature h) (fun signature _ hsignature => makes_pure fun _ => ?_)
        _ hs.tail
      refine ⟨⟨⟨⟨lexeme, hscanned, hlexeme, fun heq => ?_⟩, trivial⟩, hsignature⟩,
        fun _ => Member.noConfusion, fun _ _ => Member.noConfusion⟩
      rw [heq] at hnext
      exact absurd (Bool.and_eq_true_iff.mpr ⟨decide_eq_true hnext, hbehind⟩) hnew
    · refine makes_bind (makes_typeAfter h _) (fun found _ hfound => makes_pure fun _ => ?_) _
        hs.tail
      exact ⟨⟨⟨⟨lexeme, hscanned, hlexeme⟩, hfound.2⟩, hfound.1⟩, fun _ => Member.noConfusion,
        fun _ _ => Member.noConfusion⟩

/-- A member is in shape. If it is `static`, no call signature and no second `static` is inside of
it. -/
theorem makes_member (h : type.ReadsTypes) :
    (member type).Makes fun member _ => member.Every formed := by
  intro stream hs
  have hrest : Stream.Scanned ⟨(splitModifiers stream.tokens).2, stream.stop⟩ :=
    hs.of_subset (subset_splitModifiers _)
  refine ensures_bind (ensures_take (ensures_bind ((ensures_memberBody h hrest).imp
    fun body rest hbody => ensures_pure ?_)))
  obtain ⟨⟨hevery, hstatic, hcall⟩, hscanned⟩ := hbody
  refine ⟨?_, hscanned⟩
  split
  · rename_i hmodifier
    exact ⟨⟨trivial, hstatic, hcall (startsSignature_splitModifiers hmodifier)⟩, hevery⟩
  · exact hevery

/-- The separator of members leaves the scanner's tokens. -/
theorem makes_memberSeparator : memberSeparator.Makes fun _ _ => True := by
  have htake : Makes (take splitSemicolons) fun _ _ => True :=
    fun _ hs => ensures_take ⟨trivial, hs.of_subset (subset_splitSemicolons _)⟩
  have hfound : ∀ found : Bool, Makes (if found = true then
      take splitSemicolons >>= fun _ => pure found else pure found) fun _ _ => True :=
    fun found => makes_ite (fun _ => makes_bind htake fun _ _ _ => makes_pure fun _ => trivial)
      fun _ => makes_pure fun _ => trivial
  have htrue : Makes (pure true) fun _ _ => True := makes_pure fun _ => trivial
  exact makes_bind (makes_accept _) fun _ _ _ => makes_ite
    (fun _ => makes_bind htrue fun found _ _ => hfound found)
    fun _ => makes_bind (makes_accept _) fun found _ _ => hfound found

/-- Members in braces are in shape. -/
theorem makes_members (h : type.ReadsTypes) :
    (members type).Makes fun members _ => everyMember formed members :=
  makes_bind (makes_expect _) fun _ _ _ =>
    makes_bind (makes_separatedUntil (makes_member h) makes_memberSeparator) fun _ _ hmembers =>
      makes_bind (makes_expect _) fun _ _ _ => makes_pure fun _ => everyMember_iff.mpr hmembers

/-! ### Types -/

/-- A type of its own, which is neither a union nor an intersection. If it has an arrow, it has its
result too. -/
structure Primary (type : TypeExpr) (rest : Stream) : Prop where
  every : type.Every formed
  isRepeated : type.isRepeated = false
  isUnion : type.isUnion = false
  isIntersection : type.isIntersection = false
  arrow : type.isArrow = true →
    rest.next? ≠ some (.mark .bar) ∧ rest.next? ≠ some (.mark .ampersand)

/-- A type without parts that are types and without an arrow. -/
theorem Primary.leaf {type : TypeExpr} (hevery : type.Every formed)
    (hshape : type.isRepeated = false ∧ type.isUnion = false ∧ type.isIntersection = false
      ∧ type.isArrow = false) (rest : Stream) : Primary type rest where
  every := hevery
  isRepeated := hshape.1
  isUnion := hshape.2.1
  isIntersection := hshape.2.2.1
  arrow h := by cases hshape.2.2.2.symm.trans h

/-- A literal is a type of its own. -/
theorem Primary.literal {text : String} (h : IsLiteral text) (rest : Stream) :
    Primary (.literal text) rest := by
  have hevery : (TypeExpr.literal text).Every formed := h
  exact .leaf hevery ⟨rfl, rfl, rfl, rfl⟩ rest

/-- The arguments of a type are in shape, and none is a rest type. -/
theorem makes_typeArguments (h : type.ReadsTypes) :
    (typeArguments type).Makes fun arguments _ =>
      everyType formed arguments ∧ ∀ argument ∈ arguments, argument.isRepeated = false :=
  makes_bind (makes_accept _) fun _ _ _ => makes_ite
    (fun _ => makes_bind (makes_separated rfl h.regular h.makes) fun _ _ harguments =>
      makes_bind makes_closeAngle fun _ _ _ => makes_pure fun _ =>
        ⟨everyType_iff.mpr (harguments.forall fun _ _ hargument => hargument.every),
          harguments.forall fun _ _ hargument => hargument.isRepeated⟩)
    fun _ => makes_pure fun _ => ⟨trivial, fun _ hin => absurd hin List.not_mem_nil⟩

/-- A function type or a constructor type ends where its signature does. -/
theorem makes_arrow (h : type.ReadsTypes) {make : Signature → TypeExpr}
    (hmake : make = .function ∨ make = .constructor) :
    Makes (functionSignature type >>= fun signature => pure (make signature)) Primary := by
  refine fun stream hs => ensures_bind ((makes_functionSignature h stream hs).imp
    fun signature rest hsignature => ensures_pure ⟨?_, hsignature.2⟩)
  obtain ⟨⟨hevery, hresult, hends⟩, -⟩ := hsignature
  rcases hmake with rfl | rfl
  · exact ⟨⟨hresult, hevery⟩, rfl, rfl, rfl, fun _ => hends⟩
  · exact ⟨⟨hresult, hevery⟩, rfl, rfl, rfl, fun _ => hends⟩

/-- Takes the next token and goes on. -/
theorem makes_skip_bind {next : Unit → Reader β} {post : β → Stream → Prop}
    (h : (next ()).Makes post) : Makes (skip >>= next) post :=
  makes_bind makes_skip fun _ _ _ => h

/-- What is asked for the type of a value makes a type of its own. -/
theorem makes_query : Makes (qualifiedName >>= fun path => pure (TypeExpr.query path)) Primary := by
  have htrue : ∀ (stream : Stream) (lexeme : Lexeme), stream.next? = some lexeme → True :=
    fun _ _ _ => trivial
  refine fun stream hs => ensures_bind ((makes_qualifiedName hs (htrue stream)).imp
    fun path rest hpath => ensures_pure ⟨.leaf ?_ ⟨rfl, rfl, rfl, rfl⟩ rest, hpath.2⟩)
  obtain ⟨⟨lexeme, name, more, -, hscanned, hname, rfl, hmore⟩, -⟩ := hpath
  exact ⟨List.cons_ne_nil name more, List.forall_mem_cons.mpr ⟨⟨lexeme, hscanned, hname⟩, hmore⟩⟩

/-- A type that starts with a word is a type of its own. -/
theorem makes_wordType (h : type.ReadsTypes) (w : Word) : (wordType type w).Makes Primary := by
  have hliteral : ∀ text ∈ ["true", "false", "null", "this"],
      Makes (pure (TypeExpr.literal text)) Primary := fun text htext =>
    makes_pure (Primary.literal (.inr (.inr (.inr htext))))
  have hprimitive : ∀ primitive, Makes (pure (TypeExpr.primitive primitive)) Primary := fun _ =>
    makes_pure (Primary.leaf trivial ⟨rfl, rfl, rfl, rfl⟩)
  cases w <;> first
    | exact makes_skip_bind (hprimitive _)
    | exact makes_skip_bind (hliteral _ (by decide))
    | exact makes_skip_bind makes_query
    | exact makes_skip_bind (makes_arrow h (.inr rfl))
    | exact makes_fail _ _

/-- A number behind a minus. -/
theorem ensures_minus {stream : Stream} (hs : stream.Scanned) :
    (markType type .minus).Ensures stream fun found rest => Primary found rest ∧ rest.Scanned := by
  by_cases hnumber : ∃ text, stream.tail.next? = some (.number text)
  · obtain ⟨text, hnext⟩ := hnumber
    intro reading hread
    rw [markType_minus hnext] at hread
    cases hread
    have htext : IsNumber text := hs.tail.next? hnext
    exact ⟨.literal (.inr (.inr (.inl ⟨text, htext, rfl⟩))) _, hs.tail.tail⟩
  · rw [Ensures, markType_minus_of_ne fun text hnext => hnumber ⟨text, hnext⟩]
    exact fun _ hread => by cases hread

/-- A type that starts with a mark is a type of its own; the readers of types are called inside of
it. -/
theorem makes_markType (h : type.ReadsTypes) (m : Mark) : (markType type m).Makes Primary := by
  cases m with
  | minus => exact fun stream hs => ensures_minus hs
  | braceOpen =>
    exact makes_bind (makes_members h) fun members _ hmembers =>
      makes_pure (Primary.leaf ⟨trivial, hmembers⟩ ⟨rfl, rfl, rfl, rfl⟩)
  | bracketOpen =>
    have hitem : type.Makes fun found _ => found.Every formed ∧ found.isRepeated = false :=
      h.makes.imp fun _ _ hfound => ⟨hfound.every, hfound.isRepeated⟩
    refine makes_skip_bind (makes_bind (makes_separatedUntil hitem (makes_accept _))
      fun types _ htypes => makes_bind (makes_expect _) fun _ _ _ =>
        makes_pure (Primary.leaf ?_ ?_))
    · exact ⟨fun found hfound => (htypes found hfound).2,
        everyType_iff.mpr fun found hfound => (htypes found hfound).1⟩
    · exact ⟨rfl, rfl, rfl, rfl⟩
  | parenOpen =>
    refine makes_bind (makes_look _) fun opens _ _ => makes_ite (fun _ => makes_arrow h (.inl rfl))
      fun _ => makes_skip_bind (makes_bind h.makes fun inner _ hinner => ?_)
    exact makes_bind (makes_expect _) fun _ _ _ => makes_pure
      (Primary.leaf ⟨hinner.isRepeated, hinner.every⟩ ⟨rfl, rfl, rfl, rfl⟩)
  | less => exact makes_arrow h (.inl rfl)
  | _ => exact makes_fail _ _

/-- A type without suffixes is a type of its own. -/
theorem makes_primaryType (h : type.ReadsTypes) : (primaryType type).Makes Primary := by
  have hliteral : ∀ text, IsLiteral text →
      Makes (skip >>= fun _ => pure (TypeExpr.literal text)) Primary := fun text htext =>
    makes_skip_bind (makes_pure (Primary.literal htext))
  intro stream hs
  refine ensures_bind (ensures_look ?_)
  split
  · rename_i text hnext
    have hfirst : ∀ lexeme, stream.next? = some lexeme → lexeme = .name text := fun lexeme h =>
      (Option.some.inj (hnext.symm.trans h)).symm
    refine ensures_bind ((makes_qualifiedName hs hfirst).imp fun path rest hpath => ?_)
    obtain ⟨⟨_, name, more, rfl, hscanned, hname, rfl, hmore⟩, hrest⟩ := hpath
    cases hname
    refine makes_bind (makes_typeArguments h)
      (fun arguments _ harguments => makes_pure fun behind => ?_)
      rest hrest
    have hpath : ∃ first rest, text :: more = first :: rest ∧ IsName first
        ∧ ∀ segment ∈ rest, IsBindingName segment := ⟨text, more, rfl, hscanned, hmore⟩
    have hevery : (TypeExpr.named (text :: more) arguments).Every formed :=
      ⟨⟨hpath, harguments.2⟩, harguments.1⟩
    exact .leaf hevery ⟨rfl, rfl, rfl, rfl⟩ behind
  · exact hliteral _ (.inl ⟨_, rfl⟩) stream hs
  · rename_i text hnext
    have htext : IsNumber text := hs.next? hnext
    exact hliteral text (.inr (.inl htext)) stream hs
  · exact makes_wordType h _ stream hs
  · exact makes_markType h _ stream hs
  · exact makes_fail _ _ stream hs

/-- An array of elements in shape is in shape, if these are not written with dots. -/
theorem every_array {element : TypeExpr} (hevery : element.Every formed)
    (hrepeated : element.isRepeated = false) : (TypeExpr.array element).Every formed := by
  have hname : IsName "Array" := by decide +kernel
  refine ⟨⟨⟨"Array", [], rfl, hname, fun _ hin => absurd hin List.not_mem_nil⟩, ?_⟩, hevery,
    trivial⟩
  exact List.forall_mem_singleton.mpr hrepeated

/-- An array of an array, and so on, of a type is that type, or an array type with no arrow. -/
theorem Primary.repeat_array {element : TypeExpr} {rest behind : Stream} (depth : Nat)
    (h : Primary element rest) (hzero : depth = 0 → behind = rest) :
    Primary (depth.repeat TypeExpr.array element) behind := by
  have hall : ∀ n : Nat, (n.repeat TypeExpr.array element).Every formed
      ∧ (n.repeat TypeExpr.array element).isRepeated = false := by
    intro n
    induction n with
    | zero => exact ⟨h.every, h.isRepeated⟩
    | succ n ih => exact ⟨every_array ih.1 ih.2, rfl⟩
  cases depth with
  | zero => rw [hzero rfl]; exact h
  | succ depth => exact .leaf (hall (depth + 1)).1 ⟨rfl, rfl, rfl, rfl⟩ behind

/-- If no brackets were counted, none were taken. -/
theorem splitBrackets_eq_zero {tokens : List Token} (h : (splitBrackets tokens).1 = 0) :
    (splitBrackets tokens).2 = tokens := by
  unfold splitBrackets at h ⊢
  split
  · split
    · rename_i hbrackets
      simp only [if_pos hbrackets] at h
      cases h
    · rfl
  · rfl

/-- A type with brackets behind it is a type of its own. -/
theorem makes_suffixedType (h : type.ReadsTypes) : (suffixedType type).Makes Primary := by
  refine fun stream hs => ensures_bind ((makes_primaryType h stream hs).imp
    fun element rest helement => ensures_bind (ensures_take (ensures_pure ⟨?_, ?_⟩)))
  · exact helement.1.repeat_array _ fun hzero => by rw [splitBrackets_eq_zero hzero]
  · exact helement.2.of_subset (subset_splitBrackets _)

/-- An intersection or a single type. No ampersand follows it, and no bar if it ends in an arrow. -/
structure Joined (type : TypeExpr) (rest : Stream) : Prop where
  every : type.Every formed
  isRepeated : type.isRepeated = false
  isUnion : type.isUnion = false
  ampersand : rest.next? ≠ some (.mark .ampersand)
  arrow : type.endsInArrow = true → rest.next? ≠ some (.mark .bar)

/-- A type of its own is one part alone, if no ampersand follows it. -/
theorem Primary.joined {type : TypeExpr} {rest : Stream} (h : Primary type rest)
    (hampersand : rest.next? ≠ some (.mark .ampersand)) : Joined type rest where
  every := h.every
  isRepeated := h.isRepeated
  isUnion := h.isUnion
  ampersand := hampersand
  arrow harrow := by
    refine (h.arrow ?_).1
    cases type <;> first | exact harrow | cases h.isIntersection

/-- Two parts at least are joined, so they make one type of the kind that joins them. -/
theorem oneOrAll_of_length {together : List TypeExpr → TypeExpr} {types : List TypeExpr}
    (h : 2 ≤ types.length) : oneOrAll together types = together types := by
  match types, h with
  | _ :: _ :: _, _ => rfl

/-- Parts with ampersands between them make one type. -/
theorem joined_oneOrAll {types : List TypeExpr} {rest : Stream}
    (h : Chain Primary .ampersand types rest) :
    Joined (oneOrAll .intersection types) rest := by
  have hall : ∀ type ∈ types, type.Every formed ∧ type.isUnion = false
      ∧ type.isIntersection = false ∧ type.isRepeated = false :=
    h.forall fun _ _ hpart => ⟨hpart.every, hpart.isUnion, hpart.isIntersection, hpart.isRepeated⟩
  obtain ⟨front, last, rfl, hfront, hlast, hnext⟩ := h
  cases front with
  | nil => exact hlast.joined hnext
  | cons first front =>
    -- An ampersand follows all parts but the last, and none follows an arrow type.
    have harrow : ∀ type ∈ first :: front, type.isArrow = false := by
      intro type htype
      obtain ⟨behind, hprimary, hbehind⟩ := hfront type htype
      exact Bool.eq_false_iff.mpr fun harrow => (hprimary.arrow harrow).2 hbehind
    have hlength : 2 ≤ (first :: front ++ [last]).length := by simp
    rw [oneOrAll_of_length hlength]
    refine ⟨⟨⟨hlength, fun type htype => (hall type htype).2, ?_⟩,
      everyType_iff.mpr fun type htype => (hall type htype).1⟩, rfl, rfl, hnext, fun hends => ?_⟩
    · rwa [List.dropLast_concat]
    · rw [TypeExpr.endsInArrow, List.getLast?_concat] at hends
      exact (hlast.arrow hends).1

/-- Types joined by `&` are read as one type, and no ampersand follows it. -/
theorem makes_intersectionType (h : type.ReadsTypes) : (intersectionType type).Makes Joined := by
  refine makes_map (makes_separated rfl (fun n => ?_) (makes_suffixedType h))
    fun types rest htypes => joined_oneOrAll htypes
  exact (Simulation.alike_suffixedType (h.regular n)).anti (Nat.le_succ n)

/-- Parts with bars between them make one type. -/
theorem complete_oneOrAll {types : List TypeExpr} {rest : Stream}
    (h : Chain Joined .bar types rest) : Complete (oneOrAll .union types) rest := by
  have hall : ∀ type ∈ types, type.Every formed ∧ type.isUnion = false
      ∧ type.isRepeated = false :=
    h.forall fun _ _ hpart => ⟨hpart.every, hpart.isUnion, hpart.isRepeated⟩
  obtain ⟨front, last, rfl, hfront, hlast, hnext⟩ := h
  cases front with
  | nil => exact ⟨hlast.every, hlast.isRepeated, hnext, hlast.ampersand⟩
  | cons first front =>
    -- A bar follows all parts but the last, and none follows what ends in an arrow type.
    have harrow : ∀ type ∈ first :: front, type.endsInArrow = false := by
      intro type htype
      obtain ⟨behind, hjoined, hbehind⟩ := hfront type htype
      exact Bool.eq_false_iff.mpr fun harrow => hjoined.arrow harrow hbehind
    have hlength : 2 ≤ (first :: front ++ [last]).length := by simp
    rw [oneOrAll_of_length hlength]
    refine ⟨⟨⟨hlength, fun type htype => (hall type htype).2, ?_⟩,
      everyType_iff.mpr fun type htype => (hall type htype).1⟩, rfl, hnext, hlast.ampersand⟩
    rwa [List.dropLast_concat]

/-- Types joined by `|` are read as one type, and neither a bar nor an ampersand follows it. -/
theorem makes_unionType (h : type.ReadsTypes) : (unionType type).Makes Complete := by
  refine makes_bind (makes_accept _) fun _ _ _ =>
    makes_map (makes_separated rfl (fun n => ?_) (makes_intersectionType h))
      fun types rest htypes => complete_oneOrAll htypes
  exact (Simulation.alike_intersectionType (h.regular n)).anti (Nat.le_succ n)

/-- The reader of types keeps to the shape. -/
theorem readsTypes_typeReader : TypeExpr.reader.ReadsTypes where
  regular _ := Simulation.alike_typeReader
  makes := by
    suffices ∀ depth, ReadsTypes (nested (fail .type) unionType depth) from
      fun stream => (this stream.tokens).makes stream
    have hfail : ReadsTypes (fail .type) :=
      ⟨fun _ => Simulation.alike_fail _, makes_fail _ _⟩
    have hunion : ∀ {type : Reader TypeExpr}, type.ReadsTypes → (unionType type).ReadsTypes :=
      fun h => ⟨fun n => (Simulation.alike_unionType (h.regular n)).anti (Nat.le_succ n),
        makes_unionType h⟩
    intro depth
    induction depth with
    | nil => exact hunion hfail
    | cons _ depth ih => exact hunion ih

end Reader

end Facade
