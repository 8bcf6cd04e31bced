import Facade.Proofs.Checked.Runs

/-!
# The checked parser of types runs like the reader

For each parser of the grammar there is a `Runs` lemma, which follows the parser rule by rule. A
parser that is a loop over tokens is a function on tokens in the reader, and one equation says what
that function does first. The one parser that counts, `closesBeforeArrow`, looks ahead from where a
parenthesis is open: a counter that comes back to zero ends it (`closesBeforeArrow_eq`).

All of them run as long as types do, on fewer tokens than a bound, and a type takes one token more
than the types in it. So types run on any number of tokens (`runs_typeExpr`).
-/

set_option autoImplicit false

namespace Facade.Checked

open Facade.Text Machine

variable {text : List Char} {state : State} {stream : Stream} {n : Nat}
  {type : Machine TypeExpr}

/-! ### Loops over tokens -/

/-- In terms of readers: a dot and a name are taken, and more of them behind that. -/
theorem take_splitDotted_hit {name : String} (hdot : stream.next? = some (.mark .dot))
    (hname : stream.tail.next?.bind Lexeme.bindingName? = some name) :
    Reader.take Reader.splitDotted stream
      = (Reader.skip >>= fun _ => Reader.bindingName >>= fun first =>
          Reader.take Reader.splitDotted >>= fun more => pure (first :: more)) stream := by
  have hbinding : Reader.bindingName stream.tail = .ok ⟨name, [], stream.tail.tail⟩ := by
    rw [Reader.bindingName, Reader.expectSome_eq, hname]
  rw [Reader.skip_bind, Reader.bind_of_ok hbinding, Reader.take,
    Simulation.splitDotted_hit hdot hname]
  rfl

/-- The loop over names with dots runs like the reader. -/
theorem runs_dotted : Runs text 1 n dotted (Reader.take Reader.splitDotted) := by
  refine runs_recursive fun {m more} hlt hmore state stream h hsize => ?_
  rw [bind_of_ok (peek_eq h), bind_of_ok (peekSecond_eq h)]
  by_cases hhit : stream.next? = some (.mark .dot)
      ∧ (stream.tail.next?.bind Lexeme.bindingName?).isSome = true
  · obtain ⟨hdot, hsome⟩ := hhit
    obtain ⟨name, hname⟩ := Option.isSome_iff_exists.mp hsome
    rw [Stream.second?_eq, if_pos ⟨hdot, hsome⟩, take_splitDotted_hit hdot hname]
    refine (agrees_advance h hdot (fun _ => ?_) (Nat.le_of_lt_succ hsize)).mono (Nat.le_succ _)
    exact runs_bind (takes_expectSome _ _).weaken fun _ => runs_bind hmore fun _ => runs_pure _
  · have hmiss : stream.next? = some (.mark .dot) →
        stream.tail.next?.bind Lexeme.bindingName? = none := fun hdot =>
      Option.not_isSome_iff_eq_none.mp fun hsome => hhit ⟨hdot, hsome⟩
    rw [Stream.second?_eq, if_neg hhit, Reader.take, Simulation.splitDotted_miss hmiss]
    exact agrees_ok h rfl (Nat.lt_succ_self _)

/-- A name with dots is parsed as it is read. -/
theorem runs_qualifiedName : Runs text 1 n qualifiedName Reader.qualifiedName :=
  runs_bind (takes_expectSome _ _).weaken fun _ => runs_bind runs_dotted fun _ => runs_pure _

/-! ### Signatures -/

/-- A type behind a lexeme is parsed as it is read. -/
theorem runs_typeAfter {lexeme : Lexeme} (h : Runs text 1 n type TypeExpr.reader) :
    Runs text 1 (n + 1) (typeAfter type lexeme) (Reader.typeAfter TypeExpr.reader lexeme) := by
  refine runs_accept ?_ (runs_pure _) (Nat.le_refl _)
  exact runs_bind h fun _ => runs_pure _

/-- A type parameter is parsed as it is read. -/
theorem runs_typeParameter (h : Runs text 1 n type TypeExpr.reader) :
    Runs text 1 (n + 1) (typeParameter type) (Reader.typeParameter TypeExpr.reader) :=
  runs_bind (takes_expectSome _ _).weaken fun _ => runs_bind (runs_typeAfter h) fun _ =>
    runs_bind (runs_typeAfter h) fun _ => runs_pure _

/-- Type parameters are parsed as they are read. -/
theorem runs_typeParameters (h : Runs text 1 n type TypeExpr.reader) :
    Runs text 1 (n + 1) (typeParameters type) (Reader.typeParameters TypeExpr.reader) := by
  refine runs_accept ?_ (runs_pure _) (Nat.le_refl _)
  refine runs_bind (runs_separated rfl (fun n => ?_) ((runs_typeParameter h).anti (Nat.le_succ n)))
    fun _ => ?_
  · exact (Simulation.alike_typeParameter Simulation.alike_typeReader).anti (Nat.le_succ n)
  · exact runs_bind runs_closeAngle fun _ => runs_pure _

/-- What becomes of a rest parameter's type is the same, and the remark stands between two
characters. -/
theorem runs_restType {position : Nat} (hposition : IsBoundary text position) (name : String)
    (declared : Option TypeExpr) : Runs text 1 n (restType position name declared)
      (Reader.restType position name declared) := by
  rw [restType, Reader.restType]
  cases declared.bind TypeExpr.arrayElement? with
  | some element => exact runs_pure _
  | none => exact runs_bind (runs_remark hposition) fun _ => runs_pure _

/-- A parameter is parsed as it is read. -/
theorem runs_parameter (h : Runs text 1 n type TypeExpr.reader) :
    Runs text 1 (n + 1) (parameter type) (Reader.parameter TypeExpr.reader) := by
  refine runs_position fun position hposition => ?_
  refine runs_bind (runs_acceptOnly _) fun isRest => ?_
  refine runs_bind (takes_expectSome _ _).weaken fun name => ?_
  refine runs_bind (runs_acceptOnly _) fun optional => ?_
  refine runs_bind (runs_typeAfter h) fun declared => runs_ite ?_ (runs_pure _)
  exact runs_bind (runs_restType hposition name declared) fun _ => runs_pure _

/-- So is a parameter that may turn out to be a receiver. -/
theorem runs_parameterOrReceiver (h : Runs text 1 n type TypeExpr.reader) :
    Runs text 1 (n + 1) (parameterOrReceiver type)
      (Reader.parameterOrReceiver TypeExpr.reader) := by
  refine runs_accept ?_ (runs_bind (runs_parameter h) fun _ => runs_pure _) (Nat.le_refl _)
  exact runs_bind (takes_expect _).weaken fun _ => runs_bind h fun _ => runs_pure _

/-- To take a lexeme between items runs like the reader. -/
theorem runsSeparator_accept (lexeme : Lexeme) :
    RunsSeparator text (accept lexeme) (Reader.accept lexeme) :=
  fun htrue hfalse hle => runs_accept htrue hfalse hle

/-- Parameters are parsed as they are read. -/
theorem runs_parameters (h : Runs text 1 n type TypeExpr.reader) :
    Runs text 1 (n + 1) (parameters type) (Reader.parameters TypeExpr.reader) := by
  refine runs_bind (takes_expect _).weaken fun _ => runs_bind ?_ fun _ => ?_
  · exact runs_separatedUntil rfl (Simulation.separates_accept rfl)
      (fun n => (Simulation.alike_parameterOrReceiver Simulation.alike_typeReader).anti
        (Nat.le_succ n)) (runsSeparator_accept _) (runs_parameterOrReceiver h)
  · exact runs_bind (takes_expect _).weaken fun _ => runs_pure _

/-- A signature is parsed as it is read. -/
theorem runs_signature (h : Runs text 1 n type TypeExpr.reader) :
    Runs text 1 (n + 1) (signature type) (Reader.signature TypeExpr.reader) :=
  runs_bind (runs_typeParameters h) fun _ => runs_bind (runs_parameters h) fun _ =>
    runs_bind (runs_typeAfter h) fun _ => runs_pure _

/-- So is the signature of a function type. -/
theorem runs_functionSignature (h : Runs text 1 n type TypeExpr.reader) :
    Runs text 1 (n + 1) (functionSignature type) (Reader.functionSignature TypeExpr.reader) :=
  runs_bind (runs_typeParameters h) fun _ => runs_bind (runs_parameters h) fun _ =>
    (takes_bind (takes_expect _) fun _ => runs_bind h fun _ => runs_pure _).weaken

/-! ### Members -/

/-- In terms of readers: a word that modifies is taken, and more of them behind that. -/
theorem take_splitModifiers_hit {lexeme : Lexeme} (h : Simulation.modifies stream lexeme) :
    Reader.take Reader.splitModifiers stream
      = (Reader.skip >>= fun _ => Reader.take Reader.splitModifiers >>= fun isStatic =>
          pure (isStatic || lexeme == .word .staticWord)) stream := by
  rw [Reader.skip_bind, Reader.take, Simulation.splitModifiers_hit h]
  rfl

/-- The loop over words that modify runs like the reader. -/
theorem runs_modifiers : Runs text 1 n modifiers (Reader.take Reader.splitModifiers) := by
  refine runs_recursive fun {m more} hlt hmore state stream h hsize => ?_
  rw [bind_of_ok (peek_eq h), bind_of_ok (peekSecond_eq h), Stream.second?_eq]
  by_cases hhit : ∃ lexeme, Simulation.modifies stream lexeme
  · obtain ⟨lexeme, hmodifies⟩ := hhit
    obtain ⟨hnext, hword, hends⟩ := hmodifies
    rw [take_splitModifiers_hit ⟨hnext, hword, hends⟩, hnext, if_pos (by simp [hword, hends])]
    refine (agrees_advance h hnext (fun _ => ?_) (Nat.le_of_lt_succ hsize)).mono (Nat.le_succ _)
    exact runs_bind hmore fun isStatic => runs_pure _
  · have hmiss : ∀ lexeme, ¬ Simulation.modifies stream lexeme := fun lexeme hmodifies =>
      hhit ⟨lexeme, hmodifies⟩
    rw [Reader.take, Simulation.splitModifiers_miss hmiss, if_neg]
    · exact agrees_ok h rfl (Nat.lt_succ_self _)
    · intro hboth
      cases hnext : stream.next? with
      | none =>
        rw [hnext] at hboth
        cases hboth
      | some lexeme =>
        rw [hnext] at hboth
        exact hmiss lexeme ⟨hnext, by simpa using hboth⟩

/-- A member without its modifiers is parsed as it is read. -/
theorem runs_memberBody (h : Runs text 1 n type TypeExpr.reader) :
    Runs text 1 (n + 1) (memberBody type) (Reader.memberBody TypeExpr.reader) := by
  have hsignature := runs_signature h
  refine runs_accept ?_ ?_ (Nat.le_refl _)
  · refine runs_bind ((runs_parameter h).anti (Nat.le_succ n)) fun parameter => ?_
    refine runs_bind (takes_expect _).weaken fun _ => runs_bind (takes_expect _).weaken fun _ => ?_
    exact runs_bind h fun _ => runs_pure _
  refine runs_peek fun next => runs_ite ?_ ?_
  · exact runs_bind hsignature fun _ => runs_pure _
  intro state stream hstands hsize
  refine agrees_peek hstands (agrees_peekSecond hstands ?_)
  split
  · rename_i hnew
    simp only [Bool.and_eq_true, decide_eq_true_eq] at hnew
    refine (agrees_advance hstands hnew.1 (fun _ => ?_) (Nat.le_of_lt_succ hsize)).mono
      (Nat.le_succ _)
    exact runs_bind (hsignature.anti (Nat.le_succ n)) fun _ => runs_pure _
  · refine runs_bind (takes_expectSome _ _).weaken (fun name => ?_) hstands hsize
    refine runs_bind (runs_acceptOnly _) fun optional => runs_peek fun next => runs_ite ?_ ?_
    · exact runs_bind hsignature fun _ => runs_pure _
    · exact runs_bind (runs_typeAfter h) fun _ => runs_pure _

/-- In terms of readers: semicolons are taken one by one. -/
theorem take_splitSemicolons_eq : Reader.take Reader.splitSemicolons
    = Reader.accept (.mark .semicolon) >>= fun found =>
        if found = true then Reader.take Reader.splitSemicolons else pure () := by
  funext stream
  rw [Reader.accept_bind, if_pos rfl, if_neg Bool.false_ne_true, Reader.take, Reader.take]
  by_cases hnext : stream.next? = some (.mark .semicolon)
  · rw [if_pos hnext, Simulation.splitSemicolons_hit hnext]
    rfl
  · rw [if_neg hnext, Simulation.splitSemicolons_miss hnext]
    rfl

/-- The loop over semicolons runs like the reader. -/
theorem runs_semicolons : Runs text 1 n semicolons (Reader.take Reader.splitSemicolons) := by
  refine runs_recursive fun hlt hmore => ?_
  rw [take_splitSemicolons_eq]
  exact runs_accept hmore (runs_pure _) (Nat.le_refl _)

/-- A member is parsed as it is read. -/
theorem runs_member (h : Runs text 1 n type TypeExpr.reader) :
    Runs text 1 (n + 1) (member type) (Reader.member TypeExpr.reader) :=
  runs_bind runs_modifiers fun _ => runs_bind (runs_memberBody h) fun _ => runs_pure _

/-- The separator of members, with what goes on behind it. -/
theorem memberSeparator_bind {β : Type} (next : Bool → Machine β) :
    memberSeparator >>= next = accept (.mark .semicolon) >>= fun semicolon =>
      if semicolon then semicolons >>= fun _ => next true
      else accept (.mark .comma) >>= fun comma =>
        if comma then semicolons >>= fun _ => next true else next false := by
  have hfound : ∀ found : Bool, ((if found = true then semicolons >>= fun _ => pure found
      else pure found) >>= next)
      = if found then semicolons >>= fun _ => next true else next false := by
    intro found
    cases found with
    | false => rfl
    | true => exact bind_assoc _ _ next
  refine (bind_assoc _ _ next).trans (congrArg _ (funext fun semicolon => ?_))
  cases semicolon with
  | false => exact (bind_assoc _ _ next).trans (congrArg _ (funext hfound))
  | true => exact hfound true

/-- The separator of members runs like the reader. -/
theorem runsSeparator_memberSeparator :
    RunsSeparator text memberSeparator Reader.memberSeparator := by
  intro β m n next next' htrue hfalse hle
  have hsemicolons : Runs text 1 m (semicolons >>= fun _ => next true)
      (Reader.take Reader.splitSemicolons >>= fun _ => next' true) :=
    runs_bind runs_semicolons fun _ => htrue
  rw [memberSeparator_bind, Simulation.memberSeparator_bind]
  exact runs_accept hsemicolons (runs_accept hsemicolons hfalse hle) hle

/-- Members in braces are parsed as they are read. -/
theorem runs_members (h : Runs text 1 n type TypeExpr.reader) :
    Runs text 1 (n + 1) (members type) (Reader.members TypeExpr.reader) := by
  refine runs_bind (takes_expect _).weaken fun _ => runs_bind ?_ fun _ => ?_
  · exact runs_separatedUntil rfl (Simulation.separates_memberSeparator _)
      (fun n => (Simulation.alike_member Simulation.alike_typeReader).anti (Nat.le_succ n))
      runsSeparator_memberSeparator (runs_member h)
  · exact runs_bind (takes_expect _).weaken fun _ => runs_pure _

/-! ### Types -/

/-- Before the end of the text, no parenthesis closes the first. -/
theorem closesBeforeArrow_atEnd {stop index : Nat} (depth : Nat)
    (hcells : state.cells.drop index = cellsOf [] stop) :
    closesBeforeArrow (depth, index) text state = some (.ok (.inr false, state)) := by
  rw [closesBeforeArrow, getState_bind, if_pos (lt_length_of_drop hcells),
    getElem?_of_drop hcells]
  rfl

/-- One round in front of a token. -/
theorem closesBeforeArrow_token (text : List Char) {token : Token} {tokens : List Token}
    {stop index : Nat} (depth : Nat)
    (hcells : state.cells.drop index = cellsOf (token :: tokens) stop) :
    closesBeforeArrow (depth, index) text state
      = (if token.lexeme = .mark .parenOpen then pure (.inl (depth + 1, index + 1))
        else if token.lexeme = .mark .parenClose then check (sub? depth 1) >>= fun depth =>
          if depth = 0 then
            pure (.inr ((state.cells[index + 1]?.bind Cell.kind) == some (.mark .arrow)))
          else pure (.inl (depth, index + 1))
        else pure (.inl (depth, index + 1)) : Machine ((Nat × Nat) ⊕ Bool)) text state := by
  rw [closesBeforeArrow, getState_bind, if_pos (lt_length_of_drop hcells),
    getElem?_of_drop hcells]
  rfl

/-- To look for the parenthesis that closes the first never leaves the cells, and never counts below
zero if a parenthesis is open or comes next. -/
theorem closesBeforeArrow_eq {tokens : List Token} {stop index depth rounds : Nat}
    (hcells : state.cells.drop index = cellsOf tokens stop) (hrounds : tokens.length < rounds)
    (hdepth : tokens.head?.map Token.lexeme = some (.mark .parenOpen) ∨ 0 < depth) :
    loop stuck closesBeforeArrow rounds (depth, index) text state
      = some (.ok (Reader.closesBeforeArrow depth tokens, state)) := by
  induction tokens generalizing index depth rounds with
  | nil =>
    obtain ⟨rounds, rfl⟩ := Nat.exists_eq_succ_of_ne_zero (Nat.ne_of_gt hrounds)
    rw [loop, bind_of_ok (closesBeforeArrow_atEnd depth hcells)]
    rfl
  | cons token tokens ih =>
    obtain ⟨rounds, rfl⟩ :=
      Nat.exists_eq_succ_of_ne_zero (Nat.ne_of_gt (Nat.zero_lt_of_lt hrounds))
    have hbehind : state.cells.drop (index + 1) = cellsOf tokens stop := by
      rw [← List.drop_drop, hcells]
      rfl
    have hrounds' : tokens.length < rounds := Nat.lt_of_succ_lt_succ hrounds
    have hround := closesBeforeArrow_token text depth hcells
    rw [Reader.closesBeforeArrow]
    by_cases hopen : token.lexeme = .mark .parenOpen
    · rw [if_pos hopen] at hround ⊢
      rw [loop, bind_of_ok hround]
      exact ih hbehind hrounds' (.inr (Nat.zero_lt_succ depth))
    -- No parenthesis comes next, so one is open, and the counter can be taken down.
    have hpos : 0 < depth := hdepth.resolve_left fun hnext => hopen (Option.some.inj hnext)
    rw [if_neg hopen] at hround ⊢
    by_cases hclose : token.lexeme = .mark .parenClose
    · have hsub : sub? depth 1 = some (depth - 1) := if_pos hpos
      rw [if_pos hclose, check_bind hsub] at hround
      rw [if_pos hclose]
      by_cases hlast : depth ≤ 1
      · rw [if_pos (Nat.sub_eq_zero_of_le hlast), kind_of_drop hbehind] at hround
        rw [if_pos hlast, loop, bind_of_ok hround]
        rfl
      · have hopen' : 0 < depth - 1 := by omega
        rw [if_neg (Nat.ne_of_gt hopen')] at hround
        rw [if_neg hlast, loop, bind_of_ok hround]
        exact ih hbehind hrounds' (.inr hopen')
    · rw [if_neg hclose] at hround ⊢
      rw [loop, bind_of_ok hround]
      exact ih hbehind hrounds' (.inr hpos)

/-- So a parenthesis opens a function type for the parser where it does for the reader. -/
theorem opensFunctionType_eq (h : Stands text state stream)
    (hnext : stream.next? = some (.mark .parenOpen)) :
    opensFunctionType text state = some (.ok (Reader.opensFunctionType stream, state)) := by
  have hrounds : stream.tokens.length < state.cells.length + 1 := by
    rw [h.length_cells]
    show stream.size < _
    omega
  rw [opensFunctionType, getState_bind]
  exact closesBeforeArrow_eq h.cells hrounds (.inl hnext)

/-- In terms of readers: a pair of brackets is taken and counted, and more of them behind that. -/
theorem take_splitBrackets_hit (hopen : stream.next? = some (.mark .bracketOpen))
    (hclose : stream.tail.next? = some (.mark .bracketClose)) :
    Reader.take Reader.splitBrackets stream
      = (Reader.skip >>= fun _ => Reader.skip >>= fun _ =>
          Reader.take Reader.splitBrackets >>= fun more => pure (more + 1)) stream := by
  rw [Reader.skip_bind, Reader.skip_bind, Reader.take,
    Simulation.splitBrackets_hit hopen hclose]
  rfl

/-- The loop over brackets runs like the reader. -/
theorem runs_brackets : Runs text 1 n brackets (Reader.take Reader.splitBrackets) := by
  refine runs_recursive fun {m more} hlt hmore state stream h hsize => ?_
  rw [bind_of_ok (peek_eq h), bind_of_ok (peekSecond_eq h), Stream.second?_eq]
  by_cases hhit : stream.next? = some (.mark .bracketOpen)
      ∧ stream.tail.next? = some (.mark .bracketClose)
  · obtain ⟨hopen, hclose⟩ := hhit
    have hless := Stream.size_tail_lt hopen
    have hless' := Stream.size_tail_lt hclose
    rw [if_pos ⟨hopen, hclose⟩, take_splitBrackets_hit hopen hclose]
    refine agrees_skip h hopen fun hbehind => agrees_skip hbehind hclose fun hbehind' => ?_
    have hruns : Runs text 1 m (more >>= fun depth => pure (depth + 1))
        (Reader.take Reader.splitBrackets >>= fun depth => pure (depth + 1)) :=
      runs_bind hmore fun _ => runs_pure _
    exact (hruns hbehind' (by omega)).mono (by omega)
  · rw [if_neg hhit, Reader.take,
      Simulation.splitBrackets_miss fun hopen hclose => hhit ⟨hopen, hclose⟩]
    exact agrees_ok h rfl (Nat.lt_succ_self _)

/-- The arguments of a type are parsed as they are read. -/
theorem runs_typeArguments (h : Runs text 1 n type TypeExpr.reader) :
    Runs text 1 (n + 1) (typeArguments type) (Reader.typeArguments TypeExpr.reader) := by
  refine runs_accept ?_ (runs_pure _) (Nat.le_refl _)
  refine runs_bind (runs_separated rfl (fun _ => Simulation.alike_typeReader) h) fun _ => ?_
  exact runs_bind runs_closeAngle fun _ => runs_pure _

/-- To take the next token and to go on, where there is room for one more token. -/
theorem agrees_advance_succ {β : Type} {lexeme : Lexeme} (h : Stands text state stream)
    (hnext : stream.next? = some lexeme) {next : Cell → Machine β} {next' : Unit → Reader β}
    (hruns : ∀ cell, Runs text 1 n (next cell) (next' ())) (hsize : stream.size < n + 1) :
    Agrees text state (stream.size + 1) ((advance >>= next) text state)
      ((Reader.skip >>= next') stream) :=
  (agrees_advance h hnext hruns (Nat.le_of_lt_succ hsize)).mono (Nat.le_succ _)

/-- A type that starts with a word is parsed as it is read. -/
theorem agrees_wordType (h : Runs text 1 n type TypeExpr.reader)
    (hstands : Stands text state stream) {w : Word} (hnext : stream.next? = some (.word w))
    (hsize : stream.size < n + 1) :
    Agrees text state (stream.size + 1) (wordType type w text state)
      (Reader.wordType TypeExpr.reader w stream) := by
  have hskip : ∀ {next : Cell → Machine TypeExpr} {next' : Unit → Reader TypeExpr},
      (∀ cell, Runs text 1 n (next cell) (next' ())) →
      Agrees text state (stream.size + 1) ((advance >>= next) text state)
        ((Reader.skip >>= next') stream) := fun hruns =>
    agrees_advance_succ hstands hnext hruns hsize
  have hsignature := (runs_functionSignature h).anti (Nat.le_succ n)
  cases w <;> first
    | exact hskip fun _ => runs_pure _
    | exact hskip fun _ => runs_bind runs_qualifiedName fun _ => runs_pure _
    | exact hskip fun _ => runs_bind hsignature fun _ => runs_pure _
    | exact agrees_fail _ hstands

/-- A minus makes a literal of the number that comes second. -/
theorem agrees_minus (hstands : Stands text state stream)
    (hnext : stream.next? = some (.mark .minus)) :
    Agrees text state (stream.size + 1) (markType type .minus text state)
      (Reader.markType TypeExpr.reader .minus stream) := by
  refine agrees_peekSecond hstands ?_
  rw [Stream.second?_eq]
  cases hbehind : stream.tail.next? with
  | none => exact agrees_fail _ hstands
  | some lexeme =>
    cases lexeme with
    | number text =>
      have hless := Stream.size_tail_lt hnext
      have hless' := Stream.size_tail_lt hbehind
      refine agrees_skip hstands hnext fun htail => agrees_skip htail hbehind fun htail' => ?_
      exact agrees_ok htail' rfl (by omega)
    | _ => exact agrees_fail _ hstands

/-- A type that starts with a mark is parsed as it is read. -/
theorem agrees_markType (h : Runs text 1 n type TypeExpr.reader)
    (hstands : Stands text state stream) {m : Mark} (hnext : stream.next? = some (.mark m))
    (hsize : stream.size < n + 1) :
    Agrees text state (stream.size + 1) (markType type m text state)
      (Reader.markType TypeExpr.reader m stream) := by
  -- To go past the mark leaves a smaller stream, on which the readers are known to agree.
  have hskip : ∀ {next : Cell → Machine TypeExpr} {next' : Unit → Reader TypeExpr},
      (∀ cell, Runs text 1 n (next cell) (next' ())) →
      Agrees text state (stream.size + 1) ((advance >>= next) text state)
        ((Reader.skip >>= next') stream) := fun hruns =>
    agrees_advance_succ hstands hnext hruns hsize
  have hfunction : Runs text 1 (n + 1)
      (functionSignature type >>= fun made => pure (TypeExpr.function made))
      (Reader.functionSignature TypeExpr.reader >>= fun made => pure (TypeExpr.function made)) :=
    runs_bind (runs_functionSignature h) fun _ => runs_pure _
  cases m with
  | minus => exact agrees_minus hstands hnext
  | braceOpen => exact runs_bind (runs_members h) (fun _ => runs_pure _) hstands hsize
  | bracketOpen =>
    refine hskip fun _ => runs_bind ?_ fun _ => ?_
    · exact runs_separatedUntil rfl (Simulation.separates_accept rfl)
        (fun _ => Simulation.alike_typeReader) (runsSeparator_accept _) h
    · exact runs_bind (takes_expect _).weaken fun _ => runs_pure _
  | parenOpen =>
    refine agrees_of_ok (opensFunctionType_eq hstands hnext) rfl rfl ?_
    cases Reader.opensFunctionType stream with
    | true => exact hfunction hstands hsize
    | false =>
      refine hskip fun _ => runs_bind h fun _ => ?_
      exact runs_bind (takes_expect _).weaken fun _ => runs_pure _
  | less => exact hfunction hstands hsize
  | _ => exact agrees_fail _ hstands

/-- A type of its own starts with a token that it takes before any other type. -/
theorem runs_primaryType (h : Runs text 1 n type TypeExpr.reader) :
    Runs text 1 (n + 1) (primaryType type) (Reader.primaryType TypeExpr.reader) := by
  intro state stream hstands hsize
  refine agrees_peek hstands ?_
  cases hnext : stream.next? with
  | none => exact agrees_fail _ hstands
  | some lexeme =>
    cases lexeme with
    | name text =>
      refine runs_bind runs_qualifiedName (fun path => ?_) hstands hsize
      exact runs_bind (runs_typeArguments h) fun _ => runs_pure _
    | word w => exact agrees_wordType h hstands hnext hsize
    | mark m => exact agrees_markType h hstands hnext hsize
    | string value => exact agrees_advance_succ hstands hnext (fun _ => runs_pure _) hsize
    | number text => exact agrees_advance_succ hstands hnext (fun _ => runs_pure _) hsize

/-- A type with brackets behind it is parsed as it is read. -/
theorem runs_suffixedType (h : Runs text 1 n type TypeExpr.reader) :
    Runs text 1 (n + 1) (suffixedType type) (Reader.suffixedType TypeExpr.reader) :=
  runs_bind (runs_primaryType h) fun _ => runs_bind runs_brackets fun _ => runs_pure _

/-- Types joined by `&` are parsed as they are read. -/
theorem runs_intersectionType (h : Runs text 1 n type TypeExpr.reader) :
    Runs text 1 (n + 1) (intersectionType type) (Reader.intersectionType TypeExpr.reader) := by
  refine runs_bind (runs_separated rfl (fun n => ?_) (runs_suffixedType h)) fun _ => runs_pure _
  exact (Simulation.alike_suffixedType Simulation.alike_typeReader).anti (Nat.le_succ n)

/-- Types joined by `|` are parsed as they are read. -/
theorem runs_unionType (h : Runs text 1 n type TypeExpr.reader) :
    Runs text 1 (n + 1) (unionType type) (Reader.unionType TypeExpr.reader) := by
  refine runs_bind (runs_acceptOnly _) fun _ => ?_
  refine runs_bind (runs_separated rfl (fun n => ?_) (runs_intersectionType h)) fun _ => runs_pure _
  exact (Simulation.alike_intersectionType Simulation.alike_typeReader).anti (Nat.le_succ n)

/-- The checked parser of types runs like the reader of types. -/
theorem runs_typeExpr : Runs text 1 n typeExpr TypeExpr.reader := by
  refine runs_recursive fun _ htype => ?_
  have hreader := runs_unionType htype
  rwa [← funext TypeExpr.reader_eq] at hreader

end Facade.Checked
