import Facade.Proofs.Declaration.Simulation

/-!
# The readers of types respect simulations

Every reader of types and members answers alike on related streams if the reader of types that it is
given does. A type starts with a token of its own before it goes on to other types, so
`alike_unionType` has room for one more token than it asks of those, and `TypeExpr.reader_eq`, the
equation of the reader of types, follows.

What is taken off the tokens by plain functions (`splitDotted` and its like) is described in terms
of streams first: what comes next, and what comes behind that.
-/

set_option autoImplicit false

namespace Facade

/-- A closing angle bracket is no name that can be declared. -/
theorem Lexeme.bindingName?_of_isAngle {lexeme : Lexeme} (h : lexeme.isAngle = true) :
    lexeme.bindingName? = none := by
  cases lexeme with
  | mark m => rfl
  | _ => cases h

/-- Nor is it the name of a member. -/
theorem Lexeme.propertyName?_of_isAngle {lexeme : Lexeme} (h : lexeme.isAngle = true) :
    lexeme.propertyName? = none := by
  cases lexeme with
  | mark m => rfl
  | _ => cases h

/-! ### Types by what comes next -/

namespace Reader

variable {type : Reader TypeExpr} {stream : Stream}

/-- A minus in front of a number makes a literal of the two. -/
theorem markType_minus {text : String} (h : stream.tail.next? = some (.number text)) :
    markType type .minus stream = .ok ⟨.literal ("-" ++ text), [], stream.tail.tail⟩ := by
  have hsecond : stream.second? = some (.number text) := h
  rw [markType, bind_eq]
  simp only [look, hsecond]
  rfl

/-- A minus in front of anything else is no type. -/
theorem markType_minus_of_ne (h : ∀ text, stream.tail.next? ≠ some (.number text)) :
    markType type .minus stream = fail .type stream := by
  have hsecond : ∀ text, stream.second? ≠ some (.number text) := h
  rw [markType, bind_eq]
  simp only [look]
  cases hbehind : stream.second? with
  | none => rfl
  | some lexeme =>
    cases lexeme with
    | number text => exact absurd hbehind (hsecond text)
    | _ => rfl

/-- No type starts with a closing angle bracket. -/
theorem primaryType_of_startsAngle (h : stream.startsAngle = true) :
    primaryType type stream = fail .type stream := by
  rw [Stream.startsAngle] at h
  rw [primaryType, bind_eq]
  simp only [look]
  cases hnext : stream.next? with
  | none => rw [hnext] at h; cases h
  | some lexeme =>
    rw [hnext] at h
    cases lexeme with
    | mark m => cases m <;> first | rfl | cases h
    | _ => cases h

end Reader

namespace Simulation

variable {S : Simulation} {α β : Type} {first second : Stream} {n : Nat}
  {type type' : Reader TypeExpr}

/-! ### What is taken by plain functions -/

/-- What a function takes off related streams is the same, and leaves related streams. -/
def Respected (S : Simulation) (f : List Token → α × List Token) : Prop :=
  ∀ ⦃first second : Stream⦄, S.streams first second →
    (f first.tokens).1 = (f second.tokens).1
      ∧ S.streams { first with tokens := (f first.tokens).2 }
        { second with tokens := (f second.tokens).2 }

/-- A function respects related streams if it does so as long as it does for shorter ones. Streams
are shortened by taking tokens off both. -/
theorem respected_of_shorter {f : List Token → α × List Token}
    (h : ∀ {first second : Stream}, S.streams first second →
      (∀ {rest rest' : Stream}, rest.size < first.size → S.streams rest rest' →
        (f rest.tokens).1 = (f rest'.tokens).1
          ∧ S.streams { rest with tokens := (f rest.tokens).2 }
            { rest' with tokens := (f rest'.tokens).2 }) →
      (f first.tokens).1 = (f second.tokens).1
        ∧ S.streams { first with tokens := (f first.tokens).2 }
          { second with tokens := (f second.tokens).2 }) : S.Respected f := by
  intro first
  induction hsize : first.size using Nat.strongRecOn generalizing first with
  | ind size ih =>
    intro second hstreams
    refine h hstreams fun {rest rest'} hless hrest => ?_
    exact ih rest.size (hsize ▸ hless) rfl hrest

/-- In terms of streams: a dot and a name are taken off, and more of them behind that. -/
theorem splitDotted_hit {stream : Stream} {name : String}
    (hdot : stream.next? = some (.mark .dot))
    (hname : stream.tail.next?.bind Lexeme.bindingName? = some name) :
    Reader.splitDotted stream.tokens
      = (name :: (Reader.splitDotted stream.tail.tail.tokens).1,
          (Reader.splitDotted stream.tail.tail.tokens).2) := by
  obtain ⟨tokens, stop⟩ := stream
  match tokens with
  | [] => cases hdot
  | [_] => cases hname
  | dot :: other :: rest =>
    have hdot' : dot.lexeme = .mark .dot := Option.some.inj hdot
    have hname' : other.lexeme.bindingName? = some name := hname
    rw [Reader.splitDotted, if_pos hdot', hname']
    rfl

/-- Without a dot and a name, nothing is taken off. -/
theorem splitDotted_miss {stream : Stream} (h : stream.next? = some (.mark .dot) →
    stream.tail.next?.bind Lexeme.bindingName? = none) :
    Reader.splitDotted stream.tokens = ([], stream.tokens) := by
  obtain ⟨tokens, stop⟩ := stream
  match tokens with
  | [] => rfl
  | [_] => rfl
  | dot :: other :: rest =>
    rw [Reader.splitDotted]
    split
    · rename_i hdot
      have hnone : other.lexeme.bindingName? = none := h (congrArg some hdot)
      rw [hnone]
    · rfl

/-- Names with dots are taken off related streams alike. -/
theorem respected_splitDotted : S.Respected Reader.splitDotted := by
  refine respected_of_shorter fun {first second} h ih => ?_
  by_cases hdot : first.next? = some (.mark .dot)
  · have hdot' := (next?_iff h rfl).mp hdot
    have htail := S.tail h hdot rfl
    have hsame := bind_next?_eq htail fun _ => Lexeme.bindingName?_of_isAngle
    cases hname : first.tail.next?.bind Lexeme.bindingName? with
    | none =>
      rw [splitDotted_miss fun _ => hname, splitDotted_miss fun _ => hsame.symm.trans hname]
      exact ⟨rfl, h⟩
    | some name =>
      obtain ⟨lexeme, hnext, hsome⟩ := Option.bind_eq_some_iff.mp hname
      have hangle := Lexeme.isAngle_eq_false (fun _ => Lexeme.bindingName?_of_isAngle) hsome
      -- A dot and a name are taken, which the related stream has as well.
      have hless := Nat.lt_trans (Stream.size_tail_lt hnext) (Stream.size_tail_lt hdot)
      obtain ⟨hmore, hrest⟩ := ih hless (S.tail htail hnext hangle)
      rw [splitDotted_hit hdot hname, splitDotted_hit hdot' (hsame.symm.trans hname), hmore]
      exact ⟨rfl, hrest⟩
  · have hdot' : second.next? ≠ some (.mark .dot) := fun hsecond =>
      hdot ((next?_iff h rfl).mpr hsecond)
    rw [splitDotted_miss fun hfirst => absurd hfirst hdot,
      splitDotted_miss fun hsecond => absurd hsecond hdot']
    exact ⟨rfl, h⟩

/-- A pair of brackets is taken off and counted, and more of them behind that. -/
theorem splitBrackets_hit {stream : Stream} (hopen : stream.next? = some (.mark .bracketOpen))
    (hclose : stream.tail.next? = some (.mark .bracketClose)) :
    Reader.splitBrackets stream.tokens
      = ((Reader.splitBrackets stream.tail.tail.tokens).1 + 1,
          (Reader.splitBrackets stream.tail.tail.tokens).2) := by
  obtain ⟨tokens, stop⟩ := stream
  match tokens with
  | [] => cases hopen
  | [_] => cases hclose
  | opening :: closing :: rest =>
    have hopen' : opening.lexeme = .mark .bracketOpen := Option.some.inj hopen
    have hclose' : closing.lexeme = .mark .bracketClose := Option.some.inj hclose
    rw [Reader.splitBrackets, hopen', hclose']
    rfl

/-- Without a pair of brackets, nothing is taken off. -/
theorem splitBrackets_miss {stream : Stream} (h : stream.next? = some (.mark .bracketOpen) →
    stream.tail.next? ≠ some (.mark .bracketClose)) :
    Reader.splitBrackets stream.tokens = (0, stream.tokens) := by
  obtain ⟨tokens, stop⟩ := stream
  match tokens with
  | [] => rfl
  | [_] => rfl
  | opening :: closing :: rest =>
    rw [Reader.splitBrackets]
    split
    · rename_i hboth
      simp only [Bool.and_eq_true, decide_eq_true_eq] at hboth
      exact absurd (congrArg some hboth.2) (h (congrArg some hboth.1))
    · rfl

/-- Brackets are taken off related streams alike. -/
theorem respected_splitBrackets : S.Respected Reader.splitBrackets := by
  refine respected_of_shorter fun {first second} h ih => ?_
  by_cases hboth : first.next? = some (.mark .bracketOpen)
      ∧ first.tail.next? = some (.mark .bracketClose)
  · obtain ⟨hopen, hclose⟩ := hboth
    have htail := S.tail h hopen rfl
    have hless := Nat.lt_trans (Stream.size_tail_lt hclose) (Stream.size_tail_lt hopen)
    obtain ⟨hmore, hrest⟩ := ih hless (S.tail htail hclose rfl)
    rw [splitBrackets_hit hopen hclose,
      splitBrackets_hit ((next?_iff h rfl).mp hopen) ((next?_iff htail rfl).mp hclose), hmore]
    exact ⟨rfl, hrest⟩
  · have hmiss : first.next? = some (.mark .bracketOpen) →
        first.tail.next? ≠ some (.mark .bracketClose) := fun hopen hclose =>
      hboth ⟨hopen, hclose⟩
    rw [splitBrackets_miss hmiss, splitBrackets_miss fun hopen hclose => ?_]
    · exact ⟨rfl, h⟩
    · have hopen' := (next?_iff h rfl).mpr hopen
      exact hmiss hopen' ((next?_iff (S.tail h hopen' rfl) rfl).mpr hclose)

/-- A semicolon is taken off, and more of them behind that. -/
theorem splitSemicolons_hit {stream : Stream} (h : stream.next? = some (.mark .semicolon)) :
    Reader.splitSemicolons stream.tokens = Reader.splitSemicolons stream.tail.tokens := by
  obtain ⟨tokens, stop⟩ := stream
  match tokens with
  | [] => cases h
  | token :: rest =>
    have htoken : token.lexeme = .mark .semicolon := Option.some.inj h
    have hpass : (token.lexeme == Lexeme.mark .semicolon) = true := beq_iff_eq.mpr htoken
    have hdrop : (token :: rest).dropWhile (·.lexeme == .mark .semicolon)
        = rest.dropWhile (·.lexeme == .mark .semicolon) := List.dropWhile_cons_of_pos hpass
    exact congrArg (Prod.mk ()) hdrop

/-- Without a semicolon, nothing is taken off. -/
theorem splitSemicolons_miss {stream : Stream} (h : stream.next? ≠ some (.mark .semicolon)) :
    Reader.splitSemicolons stream.tokens = ((), stream.tokens) := by
  obtain ⟨tokens, stop⟩ := stream
  match tokens with
  | [] => rfl
  | token :: rest =>
    have hpass : ¬ (token.lexeme == Lexeme.mark .semicolon) = true := fun heq =>
      h (congrArg some (beq_iff_eq.mp heq))
    have hdrop : (token :: rest).dropWhile (·.lexeme == .mark .semicolon) = token :: rest :=
      List.dropWhile_cons_of_neg hpass
    exact congrArg (Prod.mk ()) hdrop

/-- Semicolons are taken off related streams alike. -/
theorem respected_splitSemicolons : S.Respected Reader.splitSemicolons := by
  refine respected_of_shorter fun {first second} h ih => ?_
  by_cases hnext : first.next? = some (.mark .semicolon)
  · rw [splitSemicolons_hit hnext, splitSemicolons_hit ((next?_iff h rfl).mp hnext)]
    exact ih (Stream.size_tail_lt hnext) (S.tail h hnext rfl)
  · rw [splitSemicolons_miss hnext,
      splitSemicolons_miss fun hsecond => hnext ((next?_iff h rfl).mpr hsecond)]
    exact ⟨rfl, h⟩

/-- A closing angle bracket does not end the name of a member. -/
theorem endsName_of_isAngle {lexeme : Lexeme} (h : lexeme.isAngle = true) :
    ¬ Reader.endsName (some lexeme) = true := by
  cases lexeme with
  | mark m => cases m <;> first | decide | cases h
  | _ => cases h

/-- Whether the next word modifies what comes behind it. -/
def modifies (stream : Stream) (lexeme : Lexeme) : Prop :=
  stream.next? = some lexeme ∧ Reader.isModifierWord lexeme = true
    ∧ ¬ Reader.endsName stream.tail.next? = true

/-- A word that modifies is taken off, with more of them behind it; `static` is remembered. -/
theorem splitModifiers_hit {stream : Stream} {lexeme : Lexeme} (h : modifies stream lexeme) :
    Reader.splitModifiers stream.tokens
      = ((Reader.splitModifiers stream.tail.tokens).1 || lexeme == .word .staticWord,
          (Reader.splitModifiers stream.tail.tokens).2) := by
  obtain ⟨tokens, stop⟩ := stream
  obtain ⟨hnext, hword, hends⟩ := h
  match tokens with
  | [] => cases hnext
  | token :: rest =>
    cases Option.some.inj hnext
    have hends' : Reader.endsName (rest.head?.map Token.lexeme) = false := by
      rw [← Bool.not_eq_true]
      exact hends
    rw [Reader.splitModifiers, hword, hends']
    rfl

/-- Without a word that modifies, nothing is taken off. -/
theorem splitModifiers_miss {stream : Stream} (h : ∀ lexeme, ¬ modifies stream lexeme) :
    Reader.splitModifiers stream.tokens = (false, stream.tokens) := by
  obtain ⟨tokens, stop⟩ := stream
  match tokens with
  | [] => rfl
  | token :: rest =>
    rw [Reader.splitModifiers]
    split
    · rename_i hboth
      simp only [Bool.and_eq_true, Bool.not_eq_true'] at hboth
      exact absurd ⟨rfl, hboth.1, by rw [Bool.not_eq_true]; exact hboth.2⟩ (h token.lexeme)
    · rfl

/-- A word that modifies is no closing angle bracket. -/
theorem isAngle_of_isModifierWord {lexeme : Lexeme} (h : Reader.isModifierWord lexeme = true) :
    lexeme.isAngle = false := by
  cases lexeme with
  | mark m => cases h
  | _ => rfl

/-- Of related streams, the next word modifies in both or in none. -/
theorem modifies_iff (h : S.streams first second) (lexeme : Lexeme) :
    modifies first lexeme ↔ modifies second lexeme := by
  by_cases hword : Reader.isModifierWord lexeme = true
  · have hangle := isAngle_of_isModifierWord hword
    constructor
    · rintro ⟨hnext, -, hends⟩
      refine ⟨(next?_iff h hangle).mp hnext, hword, fun hsecond => hends ?_⟩
      exact (test_next?_iff (S.tail h hnext hangle) (Reader.endsName · = true)
        fun _ => endsName_of_isAngle).mpr hsecond
    · rintro ⟨hnext, -, hends⟩
      have hnext' := (next?_iff h hangle).mpr hnext
      refine ⟨hnext', hword, fun hfirst => hends ?_⟩
      exact (test_next?_iff (S.tail h hnext' hangle) (Reader.endsName · = true)
        fun _ => endsName_of_isAngle).mp hfirst
  · exact iff_of_false (fun hfirst => hword hfirst.2.1) fun hsecond => hword hsecond.2.1

/-- Words that modify are taken off related streams alike. -/
theorem respected_splitModifiers : S.Respected Reader.splitModifiers := by
  refine respected_of_shorter fun {first second} h ih => ?_
  by_cases hmodifies : ∃ lexeme, modifies first lexeme
  · obtain ⟨lexeme, hfirst⟩ := hmodifies
    have htail := S.tail h hfirst.1 (isAngle_of_isModifierWord hfirst.2.1)
    obtain ⟨hmore, hrest⟩ := ih (Stream.size_tail_lt hfirst.1) htail
    rw [splitModifiers_hit hfirst, splitModifiers_hit ((modifies_iff h lexeme).mp hfirst), hmore]
    exact ⟨rfl, hrest⟩
  · have hnone : ∀ lexeme, ¬ modifies first lexeme := fun lexeme hfirst =>
      hmodifies ⟨lexeme, hfirst⟩
    rw [splitModifiers_miss hnone,
      splitModifiers_miss fun lexeme hsecond => hnone lexeme ((modifies_iff h lexeme).mpr hsecond)]
    exact ⟨rfl, h⟩

/-! ### Looking for the end of parameters -/

/-- The walk over the tokens, in terms of streams. -/
theorem closesBeforeArrow_of_next? {stream : Stream} {lexeme : Lexeme}
    (h : stream.next? = some lexeme) (depth : Nat) :
    Reader.closesBeforeArrow depth stream.tokens
      = if lexeme = .mark .parenOpen then
          Reader.closesBeforeArrow (depth + 1) stream.tail.tokens
        else if lexeme = .mark .parenClose then
          if depth ≤ 1 then stream.tail.next? == some (.mark .arrow)
          else Reader.closesBeforeArrow (depth - 1) stream.tail.tokens
        else Reader.closesBeforeArrow depth stream.tail.tokens := by
  obtain ⟨tokens, stop⟩ := stream
  match tokens with
  | [] => cases h
  | token :: rest =>
    cases Option.some.inj h
    rw [Reader.closesBeforeArrow]
    rfl

/-- Angle brackets are walked over. -/
theorem closesBeforeArrow_behindAngle {stream : Stream} (h : stream.startsAngle = true)
    (depth : Nat) : Reader.closesBeforeArrow depth stream.tokens
      = Reader.closesBeforeArrow depth stream.behindAngle.tokens := by
  obtain ⟨tokens, stop⟩ := stream
  match tokens with
  | [] => cases h
  | ⟨lexeme, start, behind⟩ :: rest =>
    cases lexeme with
    | mark mark => cases mark <;> first | rfl | cases h
    | _ => cases h

/-- On related streams, the search for the parenthesis that closes in front of an arrow ends
alike. -/
theorem closesBeforeArrow_eq (h : S.streams first second) (depth : Nat) :
    Reader.closesBeforeArrow depth first.tokens
      = Reader.closesBeforeArrow depth second.tokens := by
  -- Streams that differ in how angle brackets are split shrink only when counted in single tokens.
  induction hsize : (singles first.tokens).length using Nat.strongRecOn
    generalizing first second depth with
  | ind size ih =>
    cases hangle : first.startsAngle with
    | true =>
      have hangle' := (startsAngle_eq h).symm.trans hangle
      obtain ⟨bracket, hsingles, -⟩ := Stream.singles_behindAngle hangle
      rw [closesBeforeArrow_behindAngle hangle, closesBeforeArrow_behindAngle hangle']
      refine ih _ ?_ (S.angle h hangle) depth rfl
      rw [← hsize, hsingles]
      exact Nat.lt_succ_self _
    | false =>
      have hsame := next?_eq h hangle
      cases hnext : first.next? with
      | none =>
        rw [Stream.next?_eq_none.mp hnext, Stream.next?_eq_none.mp (hsame.symm.trans hnext)]
      | some lexeme =>
        have hplain : lexeme.isAngle = false := by
          rw [← Stream.startsAngle_of_next? hnext, hangle]
        have htail := S.tail h hnext hplain
        have hless : (singles first.tail.tokens).length < size := by
          rw [← hsize]
          exact Stream.length_singles_tail_lt hnext
        have harrow : (first.tail.next? == some (.mark .arrow))
            = (second.tail.next? == some (.mark .arrow)) := by
          rw [Bool.eq_iff_iff, beq_iff_eq, beq_iff_eq]
          exact next?_iff htail rfl
        rw [closesBeforeArrow_of_next? hnext, closesBeforeArrow_of_next? (hsame.symm.trans hnext),
          ih _ hless htail (depth + 1) rfl, ih _ hless htail (depth - 1) rfl,
          ih _ hless htail depth rfl, harrow]

/-- So related streams open a function type both or not at all. -/
theorem opensFunctionType_eq (h : S.streams first second) :
    Reader.opensFunctionType first = Reader.opensFunctionType second :=
  closesBeforeArrow_eq h 0

/-! ### Signatures -/

/-- A type behind a lexeme is read alike. -/
theorem alike_typeAfter (h : S.Alike n type type') {lexeme : Lexeme}
    (hangle : lexeme.isAngle = false) :
    S.Alike (n + 1) (Reader.typeAfter type lexeme) (Reader.typeAfter type' lexeme) :=
  alike_accept hangle (alike_bind h fun _ => alike_pure _) (alike_pure _) (Nat.le_refl _)

/-- A name that can be declared is read alike, and takes a token. -/
theorem takes_bindingName : S.Takes n Reader.bindingName Reader.bindingName :=
  takes_expectSome fun _ => Lexeme.bindingName?_of_isAngle

/-- The name of a member is read alike, and takes a token. -/
theorem takes_propertyName : S.Takes n Reader.propertyName Reader.propertyName :=
  takes_expectSome fun _ => Lexeme.propertyName?_of_isAngle

/-- A type parameter is read alike. -/
theorem alike_typeParameter (h : S.Alike n type type') :
    S.Alike (n + 1) (Reader.typeParameter type) (Reader.typeParameter type') :=
  alike_bind takes_bindingName.alike fun _ => alike_bind (alike_typeAfter h rfl) fun _ =>
    alike_bind (alike_typeAfter h rfl) fun _ => alike_pure _

/-- Type parameters in angle brackets are read alike; the last bracket may be a part of a longer
mark. -/
theorem alike_typeParameters (h : S.Alike n type type') :
    S.Alike (n + 1) (Reader.typeParameters type) (Reader.typeParameters type') := by
  refine alike_accept rfl ?_ (alike_pure _) (Nat.le_refl _)
  refine alike_bind (alike_separated rfl ((alike_typeParameter h).anti (Nat.le_succ n))) fun _ => ?_
  exact alike_bind alike_closeAngle fun _ => alike_pure _

/-- What becomes of a rest parameter's type is alike, with a remark at the position that stands for
the other. -/
theorem alike_restType {position position' : Nat} (hposition : S.positions position position')
    (name : String) (declared : Option TypeExpr) :
    S.Alike n (Reader.restType position name declared)
      (Reader.restType position' name declared) := by
  rw [Reader.restType, Reader.restType]
  cases declared.bind TypeExpr.arrayElement? with
  | some element => exact alike_pure _
  | none => exact alike_bind (alike_remark ⟨rfl, rfl, hposition⟩) fun _ => alike_pure _

/-- A parameter is read alike. -/
theorem alike_parameter (h : S.Alike n type type') :
    S.Alike (n + 1) (Reader.parameter type) (Reader.parameter type') := by
  refine alike_position fun position position' hposition => ?_
  refine alike_bind (alike_acceptOnly rfl) fun isRest => ?_
  refine alike_bind takes_bindingName.alike fun name => ?_
  refine alike_bind (alike_acceptOnly rfl) fun optional => ?_
  refine alike_bind (alike_typeAfter h rfl) fun declared => alike_ite ?_ (alike_pure _)
  exact alike_bind (alike_restType hposition name declared) fun _ => alike_pure _

/-- So is a parameter that may turn out to be a receiver. -/
theorem alike_parameterOrReceiver (h : S.Alike n type type') :
    S.Alike (n + 1) (Reader.parameterOrReceiver type) (Reader.parameterOrReceiver type') := by
  refine alike_accept rfl ?_ (alike_bind (alike_parameter h) fun _ => alike_pure _) (Nat.le_refl _)
  exact alike_bind (takes_expect rfl).alike fun _ => alike_bind h fun _ => alike_pure _

/-- A lexeme that is no closing angle bracket separates: it is taken on both streams or on none. -/
theorem separates_accept {lexeme : Lexeme} (hangle : lexeme.isAngle = false) :
    S.Separates (Reader.accept lexeme) :=
  fun htrue hfalse hle => alike_accept hangle htrue hfalse hle

/-- Parameters in parentheses are read alike. -/
theorem alike_parameters (h : S.Alike n type type') :
    S.Alike (n + 1) (Reader.parameters type) (Reader.parameters type') := by
  refine alike_bind (takes_expect rfl).alike fun _ => alike_bind ?_ fun _ => ?_
  · exact alike_separatedUntil rfl (fun _ => separates_accept rfl) (alike_parameterOrReceiver h)
  · exact alike_bind (takes_expect rfl).alike fun _ => alike_pure _

/-- A signature is read alike. -/
theorem alike_signature (h : S.Alike n type type') :
    S.Alike (n + 1) (Reader.signature type) (Reader.signature type') :=
  alike_bind (alike_typeParameters h) fun _ => alike_bind (alike_parameters h) fun _ =>
    alike_bind (alike_typeAfter h rfl) fun _ => alike_pure _

/-- So is the signature of a function type. -/
theorem alike_functionSignature (h : S.Alike n type type') :
    S.Alike (n + 1) (Reader.functionSignature type) (Reader.functionSignature type') :=
  alike_bind (alike_typeParameters h) fun _ => alike_bind (alike_parameters h) fun _ =>
    alike_bind_takes (takes_expect rfl) fun _ => alike_bind h fun _ => alike_pure _

/-! ### Members -/

/-- A closing angle bracket starts no signature. -/
theorem startsSignature_of_isAngle {lexeme : Lexeme} (h : lexeme.isAngle = true) :
    ¬ Reader.startsSignature (some lexeme) = true := by
  cases lexeme with
  | mark m => cases m <;> first | decide | cases h
  | _ => cases h

/-- To decide whether the word `new` comes next and modifies a signature, and to take it then. -/
theorem alike_ifNew {one one' : Unit → Reader β} {other other' : Reader β}
    (hone : S.Alike n (one ()) (one' ())) (hother : S.Alike (n + 1) other other') :
    S.Alike (n + 1)
      (Reader.look Stream.next? >>= fun next => Reader.look Stream.second? >>= fun behind =>
        if (decide (next = some (.word .newWord)) && Reader.startsSignature behind) = true then
          Reader.skip >>= one
        else other)
      (Reader.look Stream.next? >>= fun next => Reader.look Stream.second? >>= fun behind =>
        if (decide (next = some (.word .newWord)) && Reader.startsSignature behind) = true then
          Reader.skip >>= one'
        else other') := by
  intro first second h hlt hlt'
  -- The second lexeme is the same only because the first is no angle bracket.
  have hiff : first.next? = some (.word .newWord) ∧ Reader.startsSignature first.second? = true
      ↔ second.next? = some (.word .newWord) ∧ Reader.startsSignature second.second? = true := by
    rw [next?_iff h rfl]
    refine and_congr_right fun hnext => ?_
    exact test_next?_iff (S.tail h ((next?_iff h rfl).mpr hnext) rfl)
      (Reader.startsSignature · = true)
      fun _ => startsSignature_of_isAngle
  refine outcome_of_ok rfl rfl (outcome_of_ok rfl rfl ?_)
  simp only [Bool.and_eq_true, decide_eq_true_eq]
  by_cases hnew : first.next? = some (.word .newWord) ∧ Reader.startsSignature first.second? = true
  · rw [if_pos hnew, if_pos (hiff.mp hnew)]
    exact (outcome_skip h hnew.1 rfl hone (Nat.le_of_lt_succ hlt) (Nat.le_of_lt_succ hlt')).mono
      (Nat.le_succ _) (Nat.le_succ _)
  · rw [if_neg hnew, if_neg fun hsecond => hnew (hiff.mpr hsecond)]
    exact hother h hlt hlt'

/-- A member without its modifiers is read alike, since both streams show the same form. -/
theorem alike_memberBody (h : S.Alike n type type') :
    S.Alike (n + 1) (Reader.memberBody type) (Reader.memberBody type') := by
  have hsignature := alike_signature h
  refine alike_accept rfl ?_ ?_ (Nat.le_refl _)
  · refine alike_bind ((alike_parameter h).anti (Nat.le_succ n)) fun parameter => ?_
    refine alike_bind (takes_expect rfl).alike fun _ =>
      alike_bind (takes_expect rfl).alike fun _ => ?_
    exact alike_bind h fun _ => alike_pure _
  refine alike_ifNext (fun _ => startsSignature_of_isAngle) ?_ (alike_ifNew ?_ ?_)
  · exact alike_bind hsignature fun _ => alike_pure _
  · exact alike_bind (hsignature.anti (Nat.le_succ n)) fun _ => alike_pure _
  refine alike_bind takes_propertyName.alike fun name => ?_
  refine alike_bind (alike_acceptOnly rfl) fun optional => ?_
  refine alike_ifNext (fun _ => startsSignature_of_isAngle) ?_ ?_
  · exact alike_bind hsignature fun _ => alike_pure _
  · exact alike_bind (alike_typeAfter h rfl) fun _ => alike_pure _

/-- What is left behind words that modify is the end of the tokens. -/
theorem suffix_splitModifiers (tokens : List Token) :
    (Reader.splitModifiers tokens).2 <:+ tokens := by
  fun_induction Reader.splitModifiers tokens <;> grind [List.suffix_cons, List.IsSuffix.trans]

/-- There are no more tokens behind words that modify. -/
theorem length_splitModifiers_le (tokens : List Token) :
    (Reader.splitModifiers tokens).2.length ≤ tokens.length :=
  (suffix_splitModifiers tokens).length_le

/-- What is left behind semicolons is the end of the tokens. -/
theorem suffix_splitSemicolons (tokens : List Token) :
    (Reader.splitSemicolons tokens).2 <:+ tokens :=
  List.dropWhile_suffix _

/-- There are no more tokens behind semicolons. -/
theorem length_splitSemicolons_le (tokens : List Token) :
    (Reader.splitSemicolons tokens).2.length ≤ tokens.length :=
  (suffix_splitSemicolons tokens).length_le

/-- A member is read alike. -/
theorem alike_member (h : S.Alike n type type') :
    S.Alike (n + 1) (Reader.member type) (Reader.member type') := by
  refine alike_bind (alike_take (fun h => respected_splitModifiers h) length_splitModifiers_le)
    fun isStatic => ?_
  exact alike_bind (alike_memberBody h) fun _ => alike_pure _

/-- The separator of members, with what goes on behind it. -/
theorem memberSeparator_bind (next : Bool → Reader β) :
    Reader.memberSeparator >>= next = Reader.accept (.mark .semicolon) >>= fun semicolon =>
      if semicolon then Reader.take Reader.splitSemicolons >>= fun _ => next true
      else Reader.accept (.mark .comma) >>= fun comma =>
        if comma then Reader.take Reader.splitSemicolons >>= fun _ => next true
        else next false := by
  have hfound : ∀ found : Bool, ((if found = true then
      Reader.take Reader.splitSemicolons >>= fun _ => pure found else pure found) >>= next)
      = if found then Reader.take Reader.splitSemicolons >>= fun _ => next true
        else next false := by
    intro found
    cases found with
    | false => exact Reader.pure_bind false next
    | true =>
      exact (Reader.bind_assoc _ _ next).trans
        (congrArg _ (funext fun _ => Reader.pure_bind true next))
  have hother : ∀ semicolon : Bool, ((if semicolon = true then pure true >>= fun found =>
        if found = true then Reader.take Reader.splitSemicolons >>= fun _ => pure found
        else pure found
      else Reader.accept (.mark .comma) >>= fun found =>
        if found = true then Reader.take Reader.splitSemicolons >>= fun _ => pure found
        else pure found) >>= next)
      = if semicolon then Reader.take Reader.splitSemicolons >>= fun _ => next true
        else Reader.accept (.mark .comma) >>= fun comma =>
          if comma then Reader.take Reader.splitSemicolons >>= fun _ => next true
          else next false := by
    -- A comma is looked for only where there is no semicolon.
    intro semicolon
    cases semicolon with
    | false => exact (Reader.bind_assoc _ _ next).trans (congrArg _ (funext hfound))
    | true => exact (congrArg (· >>= next) (Reader.pure_bind true _)).trans (hfound true)
  exact (Reader.bind_assoc _ _ next).trans (congrArg _ (funext hother))

/-- What stands between members separates. -/
theorem separates_memberSeparator (S : Simulation) : S.Separates Reader.memberSeparator := by
  intro β m n next next' htrue hfalse hle
  have hsemicolons : S.Alike m (Reader.take Reader.splitSemicolons >>= fun _ => next true)
      (Reader.take Reader.splitSemicolons >>= fun _ => next' true) :=
    alike_bind (alike_take (fun h => respected_splitSemicolons h) length_splitSemicolons_le)
      fun _ => htrue
  rw [memberSeparator_bind, memberSeparator_bind]
  exact alike_accept rfl hsemicolons (alike_accept rfl hsemicolons hfalse hle) hle

/-- Members in braces are read alike. -/
theorem alike_members (h : S.Alike n type type') :
    S.Alike (n + 1) (Reader.members type) (Reader.members type') := by
  refine alike_bind (takes_expect rfl).alike fun _ => alike_bind ?_ fun _ => ?_
  · exact alike_separatedUntil rfl separates_memberSeparator (alike_member h)
  · exact alike_bind (takes_expect rfl).alike fun _ => alike_pure _

/-! ### Types -/

/-- What is left behind names with dots is the end of the tokens. -/
theorem suffix_splitDotted (tokens : List Token) : (Reader.splitDotted tokens).2 <:+ tokens := by
  fun_induction Reader.splitDotted tokens <;> grind [List.suffix_cons, List.IsSuffix.trans]

/-- There are no more tokens behind names with dots. -/
theorem length_splitDotted_le (tokens : List Token) :
    (Reader.splitDotted tokens).2.length ≤ tokens.length :=
  (suffix_splitDotted tokens).length_le

/-- What is left behind brackets is the end of the tokens. -/
theorem suffix_splitBrackets (tokens : List Token) :
    (Reader.splitBrackets tokens).2 <:+ tokens := by
  fun_induction Reader.splitBrackets tokens <;> grind [List.suffix_cons, List.IsSuffix.trans]

/-- There are no more tokens behind brackets. -/
theorem length_splitBrackets_le (tokens : List Token) :
    (Reader.splitBrackets tokens).2.length ≤ tokens.length :=
  (suffix_splitBrackets tokens).length_le

/-- To take names with dots off related streams is alike. -/
theorem alike_splitDotted :
    S.Alike n (Reader.take Reader.splitDotted) (Reader.take Reader.splitDotted) :=
  alike_take (fun h => respected_splitDotted h) length_splitDotted_le

/-- A name with dots is read alike. -/
theorem alike_qualifiedName : S.Alike n Reader.qualifiedName Reader.qualifiedName :=
  alike_bind takes_bindingName.alike fun _ => alike_bind alike_splitDotted fun _ => alike_pure _

/-- The arguments of a type are read alike; the last bracket may be a part of a longer mark. -/
theorem alike_typeArguments (h : S.Alike n type type') :
    S.Alike (n + 1) (Reader.typeArguments type) (Reader.typeArguments type') := by
  refine alike_accept rfl ?_ (alike_pure _) (Nat.le_refl _)
  exact alike_bind (alike_separated rfl h) fun _ =>
    alike_bind alike_closeAngle fun _ => alike_pure _

/-- To take the next token and to go on, where a reader has looked at it before. -/
theorem outcome_skip_succ (h : S.streams first second) {lexeme : Lexeme}
    (hnext : first.next? = some lexeme) (hangle : lexeme.isAngle = false)
    {next next' : Unit → Reader β} (halike : S.Alike n (next ()) (next' ()))
    (hlt : first.size < n + 1) (hlt' : second.size < n + 1) :
    S.Outcome (first.size + 1) (second.size + 1) ((Reader.skip >>= next) first)
      ((Reader.skip >>= next') second) :=
  (outcome_skip h hnext hangle halike (Nat.le_of_lt_succ hlt) (Nat.le_of_lt_succ hlt')).mono
    (Nat.le_succ _) (Nat.le_succ _)

/-- A type that starts with a word is read alike, by the word. -/
theorem outcome_wordType (h : S.Alike n type type') (hstreams : S.streams first second)
    {w : Word} (hnext : first.next? = some (.word w)) (hlt : first.size < n + 1)
    (hlt' : second.size < n + 1) :
    S.Outcome (first.size + 1) (second.size + 1) (Reader.wordType type w first)
      (Reader.wordType type' w second) := by
  have hskip : ∀ {next next' : Unit → Reader TypeExpr}, S.Alike n (next ()) (next' ()) →
      S.Outcome (first.size + 1) (second.size + 1) ((Reader.skip >>= next) first)
        ((Reader.skip >>= next') second) := fun halike =>
    outcome_skip_succ hstreams hnext rfl halike hlt hlt'
  have hsignature := (alike_functionSignature h).anti (Nat.le_succ n)
  cases w <;> first
    | exact hskip (alike_pure _)
    | exact hskip (alike_bind alike_qualifiedName fun _ => alike_pure _)
    | exact hskip (alike_bind hsignature fun _ => alike_pure _)
    | exact outcome_fail _ hstreams

/-- A minus makes a literal of the number that comes second. -/
theorem outcome_minus (hstreams : S.streams first second)
    (hnext : first.next? = some (.mark .minus)) :
    S.Outcome (first.size + 1) (second.size + 1) (Reader.markType type .minus first)
      (Reader.markType type' .minus second) := by
  have htail := S.tail hstreams hnext rfl
  -- Only a number decides, and that is no angle bracket.
  by_cases hnumber : ∃ text, first.tail.next? = some (.number text)
  · obtain ⟨text, hbehind⟩ := hnumber
    have hbehind' := (next?_iff htail rfl).mp hbehind
    have hlt := Nat.lt_trans (Stream.size_tail_lt hbehind) (Stream.size_tail_lt hnext)
    have hlt' := Nat.lt_trans (Stream.size_tail_lt hbehind')
      (Stream.size_tail_lt ((next?_iff hstreams rfl).mp hnext))
    rw [Reader.markType_minus hbehind, Reader.markType_minus hbehind']
    exact .ok .nil (S.tail htail hbehind rfl) (Nat.lt_succ_of_lt hlt) (Nat.lt_succ_of_lt hlt')
  · have hnone : ∀ text, first.tail.next? ≠ some (.number text) := fun text hbehind =>
      hnumber ⟨text, hbehind⟩
    rw [Reader.markType_minus_of_ne hnone, Reader.markType_minus_of_ne fun text hbehind =>
      hnone text ((next?_iff htail rfl).mpr hbehind)]
    exact outcome_fail _ hstreams

/-- A type that starts with a mark is read alike, by the mark. What it calls runs on smaller
streams. -/
theorem outcome_markType (h : S.Alike n type type') (hstreams : S.streams first second) {m : Mark}
    (hnext : first.next? = some (.mark m)) (hangle : (Lexeme.mark m).isAngle = false)
    (hlt : first.size < n + 1) (hlt' : second.size < n + 1) :
    S.Outcome (first.size + 1) (second.size + 1) (Reader.markType type m first)
      (Reader.markType type' m second) := by
  -- To skip the mark leaves smaller streams, on which the readers are known to answer alike.
  have hskip : ∀ {next next' : Unit → Reader TypeExpr}, S.Alike n (next ()) (next' ()) →
      S.Outcome (first.size + 1) (second.size + 1) ((Reader.skip >>= next) first)
        ((Reader.skip >>= next') second) := fun halike =>
    outcome_skip_succ hstreams hnext hangle halike hlt hlt'
  have hfunction : S.Outcome (first.size + 1) (second.size + 1)
      ((Reader.functionSignature type >>= fun made => pure (TypeExpr.function made)) first)
      ((Reader.functionSignature type' >>= fun made => pure (TypeExpr.function made)) second) :=
    alike_bind (alike_functionSignature h) (fun _ => alike_pure _) hstreams hlt hlt'
  cases m with
  | minus => exact outcome_minus hstreams hnext
  | braceOpen =>
    exact alike_bind (alike_members h) (fun _ => alike_pure _) hstreams hlt hlt'
  | bracketOpen =>
    refine hskip (alike_bind
      (alike_separatedUntil rfl (fun _ => separates_accept rfl) h) fun _ => ?_)
    exact alike_bind (takes_expect rfl).alike fun _ => alike_pure _
  | parenOpen =>
    refine outcome_look (opensFunctionType_eq hstreams) ?_
    cases Reader.opensFunctionType first with
    | true => exact hfunction
    | false =>
      refine hskip (alike_bind h fun _ => ?_)
      exact alike_bind (takes_expect rfl).alike fun _ => alike_pure _
  | less => exact hfunction
  | _ => exact outcome_fail _ hstreams

/-- A type of its own starts with a token that it takes before any other type. -/
theorem alike_primaryType (h : S.Alike n type type') :
    S.Alike (n + 1) (Reader.primaryType type) (Reader.primaryType type') := by
  intro first second hstreams hlt hlt'
  cases hangle : first.startsAngle with
  | true =>
    rw [Reader.primaryType_of_startsAngle hangle,
      Reader.primaryType_of_startsAngle ((startsAngle_eq hstreams).symm.trans hangle)]
    exact outcome_fail _ hstreams
  | false =>
    refine outcome_look (next?_eq hstreams hangle) ?_
    cases hnext : first.next? with
    | none => exact outcome_fail _ hstreams
    | some lexeme =>
      rw [Stream.startsAngle_of_next? hnext] at hangle
      cases lexeme with
      | name text =>
        refine alike_bind alike_qualifiedName (fun path => ?_) hstreams hlt hlt'
        exact alike_bind (alike_typeArguments h) fun _ => alike_pure _
      | word w => exact outcome_wordType h hstreams hnext hlt hlt'
      | mark m => exact outcome_markType h hstreams hnext hangle hlt hlt'
      | string value => exact outcome_skip_succ hstreams hnext rfl (alike_pure _) hlt hlt'
      | number text => exact outcome_skip_succ hstreams hnext rfl (alike_pure _) hlt hlt'

/-- A type with brackets behind it is read alike. -/
theorem alike_suffixedType (h : S.Alike n type type') :
    S.Alike (n + 1) (Reader.suffixedType type) (Reader.suffixedType type') := by
  refine alike_bind (alike_primaryType h) fun element => alike_bind ?_ fun depth => alike_pure _
  exact alike_take (fun h => respected_splitBrackets h) length_splitBrackets_le

/-- What is made out of values that are read alike is alike. -/
theorem alike_map {reader reader' : Reader α} (h : S.Alike n reader reader') (f : α → β) :
    S.Alike n (f <$> reader) (f <$> reader') :=
  alike_bind h fun _ => alike_pure _

/-- Types joined by `&` are read alike. -/
theorem alike_intersectionType (h : S.Alike n type type') :
    S.Alike (n + 1) (Reader.intersectionType type) (Reader.intersectionType type') :=
  alike_map (alike_separated rfl (alike_suffixedType h)) _

/-- Types joined by `|` are read alike. -/
theorem alike_unionType (h : S.Alike n type type') :
    S.Alike (n + 1) (Reader.unionType type) (Reader.unionType type') :=
  alike_bind (alike_acceptOnly rfl) fun _ =>
    alike_map (alike_separated rfl (alike_intersectionType h)) _

/-- The reader of types answers alike on related streams. -/
theorem alike_typeReader : S.Alike n TypeExpr.reader TypeExpr.reader :=
  answers_recursive (fun _ => alike_unionType) (fun _ _ _ _ _ => alike_unionType)
    fun _ _ _ _ _ => alike_unionType

end Simulation

/-- The equation of the reader of types. -/
theorem TypeExpr.reader_eq (stream : Stream) :
    TypeExpr.reader stream = Reader.unionType TypeExpr.reader stream :=
  Simulation.recursive_eq Simulation.alike_unionType stream

end Facade
