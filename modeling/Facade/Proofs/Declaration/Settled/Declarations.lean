import Facade.Proofs.Declaration.Settled.Types
import Facade.Proofs.Declaration.Walks

/-!
# What is read of declarations is settled

A declaration may take the last semicolon, and then the text may go on as it likes: what was read
of it is settled (`whole_declaration`). A list of declarations is not, since it goes on with the
text. In a namespace that makes no difference, for its closing brace has to come first.
-/

set_option autoImplicit false

namespace Facade

namespace Reader

variable {α β : Type} {stream : Stream} {asked left : Stream → Prop}

/-! ### Statements -/

/-- The walk over a statement stops at a semicolon at the latest, unless it is inside brackets, and
does not look behind that. -/
theorem splitStatement_followed {depth stop behind last : Nat} {tokens rest : List Token}
    (hended : Stream.Ended ⟨tokens, last⟩ ∨ tokens = [] ∧ 0 < depth)
    (h : splitStatement depth stop tokens = .done behind rest) (more : List Token) :
    (rest = [] ∨ Stream.Ended ⟨rest, last⟩)
      ∧ splitStatement depth stop (tokens ++ more) = .done behind (rest ++ more) := by
  induction tokens generalizing depth stop with
  | nil =>
    rcases hended with hended | ⟨-, hdepth⟩
    · cases hended
    · match depth with
      | 0 => cases hdepth
      | _ + 1 => cases h
  | cons token tokens ih =>
    have hfirst : Stream.Ended ⟨token :: tokens, last⟩ :=
      hended.resolve_right fun hnil => List.cons_ne_nil _ _ hnil.1
    have hleft : ∀ {first : Token} {rest : List Token}, Stream.Ended ⟨first :: rest, last⟩ →
        rest = [] ∨ Stream.Ended ⟨rest, last⟩ := fun hrest => hrest.or_nil (List.suffix_cons _ _)
    rw [List.cons_append]
    by_cases hsemicolon : token.lexeme = .mark .semicolon
    -- Only inside of brackets does the walk pass over a semicolon, and then it is not closed yet.
    · match depth with
      | 0 =>
        rw [splitStatement_ends hsemicolon] at h ⊢
        cases h
        exact ⟨hleft hfirst, rfl⟩
      | depth + 1 =>
        have hplain : token.lexeme.isBracket = false := by rw [hsemicolon]; rfl
        rw [splitStatement_plain hplain] at h ⊢
        exact ih ((hleft hfirst).symm.imp_right fun hnil => ⟨hnil, Nat.succ_pos depth⟩) h
    -- Another token comes in front of the semicolon, so there are tokens behind it.
    · have hrest : Stream.Ended ⟨tokens, last⟩ := hfirst.tail rfl hsemicolon
      cases walkStep depth token.lexeme with
      | leaves hdepth hlexeme =>
        cases hdepth
        rw [splitStatement_leaves hlexeme] at h ⊢
        cases h
        exact ⟨.inr hfirst, rfl⟩
      | fails _ hstray =>
        rw [hstray token stop tokens rfl] at h
        cases h
      | ends _ hlexeme => exact absurd hlexeme hsemicolon
      | closes hdepth hlexeme =>
        cases hdepth
        obtain ⟨next, others, rfl⟩ := List.exists_cons_of_ne_nil hrest.ne_nil
        rw [List.cons_append]
        by_cases hnext : next.lexeme = .mark .semicolon
        · rw [splitStatement_brace_semicolon hlexeme hnext] at h ⊢
          cases h
          exact ⟨hleft hrest, rfl⟩
        · rw [splitStatement_brace hlexeme hnext] at h ⊢
          cases h
          exact ⟨.inr hrest, rfl⟩
      | goes deeper hgoes =>
        rw [hgoes token stop _ rfl] at h ⊢
        exact ih (.inl hrest) h

/-- What is read of a statement is settled. -/
theorem whole_statement (text : List Char) (position : Nat) : Whole (statement text position) := by
  intro stream hended more stop reading hread _
  obtain ⟨behind, rest, hsplit, rfl⟩ := statement_eq_ok.mp hread
  obtain ⟨hleft, hsame⟩ := splitStatement_followed (.inl hended) hsplit more
  exact ⟨hleft, statement_eq_ok.mpr ⟨behind, _, hsame, rfl⟩⟩

/-- Behind tokens that have ended, more tokens make no difference to whether a statement starts. -/
theorem startsStatement_followed {tokens : List Token} {last : Nat}
    (h : Stream.Ended ⟨tokens, last⟩) (more : List Token) :
    startsStatement (tokens ++ more) = startsStatement tokens := by
  match tokens with
  | [] => cases h
  | [token] =>
    obtain ⟨lexeme, start, stop⟩ := token
    obtain rfl : lexeme = .mark .semicolon := lexeme_of_ended h
    rfl
  | _ :: _ :: _ => rfl

/-- Modifiers are cut off the front. -/
theorem cuts_splitModifierWords : Cuts splitModifierWords where
  taken tokens := by
    fun_induction splitModifierWords tokens with
    | case1 | case2 | case4 => exact ⟨[], rfl, fun _ hin => absurd hin List.not_mem_nil⟩
    | case3 token rest hstarts hmodifier ih =>
      obtain ⟨taken, htokens, hplain⟩ := ih
      refine ⟨token :: taken, congrArg (token :: ·) htokens,
        List.forall_mem_cons.mpr ⟨?_, hplain⟩⟩
      simp only [Bool.or_eq_true, decide_eq_true_eq] at hmodifier
      rcases hmodifier with hword | hword <;> rw [hword] <;> rfl
  followed tokens last hended more := by
    fun_induction splitModifierWords tokens with
    | case1 => cases hended
    | case2 token rest hstarts =>
      have hsame := startsStatement_followed hended more
      rw [List.cons_append] at hsame ⊢
      rw [splitModifierWords, hsame, if_pos hstarts]
    | case3 token rest hstarts hmodifier ih =>
      have hsame := startsStatement_followed hended more
      have hplain : token.lexeme.isPlain = true := by
        simp only [Bool.or_eq_true, decide_eq_true_eq] at hmodifier
        rcases hmodifier with hword | hword <;> rw [hword] <;> rfl
      rw [List.cons_append] at hsame ⊢
      rw [splitModifierWords, hsame, if_neg hstarts, if_pos hmodifier,
        ih (ended_of_cons hended hplain)]
    | case4 token rest hstarts hmodifier =>
      have hsame := startsStatement_followed hended more
      rw [List.cons_append] at hsame ⊢
      rw [splitModifierWords, hsame, if_neg hstarts, if_neg hmodifier]

/-! ### Declarations -/

/-- To make something of what was read. -/
theorem settles_map {reader : Reader α} (h : reader.Settles asked left) (f : α → β) :
    Settles asked left (reader >>= fun value => pure (f value)) := by
  intro stream hended more stop reading hread hasked
  rw [bind_eq] at hread ⊢
  cases hfirst : reader stream with
  | error error => rw [hfirst] at hread; cases hread
  | ok first =>
    rw [hfirst] at hread
    cases hread
    obtain ⟨hleft, hsame⟩ := h stream hended more stop first hfirst hasked
    rw [hsame]
    exact ⟨hleft, rfl⟩

/-- Whether a semicolon comes that may be left out is settled, also if it is the last token. -/
theorem whole_optionalSemicolon : Whole optionalSemicolon :=
  settles_map (whole_accept _) _

/-- The types behind a word are read steadily. -/
theorem steady_typesAfter (w : Word) : Steady (typesAfter w) :=
  steady_bind (steady_accept rfl) fun _ =>
    steady_ite (steady_separated steady_typeReader regular_typeReader rfl rfl) (steady_pure _)

/-- What stands behind `var`, `let` or `const` is settled. -/
theorem whole_variableBody : Whole variableBody :=
  settles_bind steady_bindingName.inside fun _ =>
    settles_bind (steady_typeAfter steady_typeReader rfl).inside fun _ =>
      settles_map whole_optionalSemicolon _

/-- So is what stands behind `function`. -/
theorem whole_functionBody : Whole functionBody :=
  settles_bind steady_bindingName.inside fun _ =>
    settles_bind (steady_signature steady_typeReader regular_typeReader).inside fun _ =>
      settles_map whole_optionalSemicolon _

/-- What stands behind `interface` is settled inside of its braces. -/
theorem inside_interfaceBody : Inside interfaceBody :=
  settles_bind steady_bindingName.inside fun _ =>
    settles_bind (steady_typeParameters steady_typeReader regular_typeReader).inside fun _ =>
      settles_bind (steady_typesAfter _).inside fun _ =>
        settles_map (steady_members steady_typeReader regular_typeReader).inside _

/-- So is what stands behind `class`. -/
theorem inside_classBody : Inside classBody :=
  settles_bind steady_bindingName.inside fun _ =>
    settles_bind (steady_typeParameters steady_typeReader regular_typeReader).inside fun _ =>
      settles_bind (steady_typeAfter steady_typeReader rfl).inside fun _ =>
        settles_bind (steady_typesAfter _).inside fun _ =>
          settles_map (steady_members steady_typeReader regular_typeReader).inside _

/-- What stands behind `type` is settled. -/
theorem whole_aliasBody : Whole aliasBody :=
  settles_bind steady_bindingName.inside fun _ =>
    settles_bind (steady_typeParameters steady_typeReader regular_typeReader).inside fun _ =>
      settles_bind (inside_expect (by decide)) fun _ =>
        settles_bind steady_typeReader.inside fun _ => settles_map whole_optionalSemicolon _

/-- A list of declarations goes on behind the last semicolon, but not before. -/
theorem loose_declarations {stops : Option Lexeme → Bool} {declaration : Reader Declaration}
    (hstops : ∀ lexeme : Lexeme, lexeme.isAngle = true → ¬ stops (some lexeme) = true)
    (h : declaration.Whole) (htakes : ∀ n, Simulation.same.Takes n declaration declaration) :
    Loose (declarations stops declaration) := by
  have hsame : ∀ {m : Nat} {more more' : Reader (List Declaration)},
      Simulation.same.Alike m more more' →
      Simulation.same.Alike (m + 1) (Simulation.declarationsBody stops declaration more)
        (Simulation.declarationsBody stops declaration more') := fun hmore =>
    Simulation.alike_declarationsBody hstops (htakes _) hmore
  refine settles_recursive (fun reader => Loose reader ∧ Regular reader) hsame
    ⟨(inside_pure _).loose, fun _ => Simulation.alike_pure _⟩ (fun more hmore => ?_)
    fun _ hkept => hkept.1
  obtain ⟨hloose, hregular⟩ := hmore
  have hrest : ∀ first : Declaration, Regular (more >>= fun rest => pure (first :: rest)) :=
    fun _ n => Simulation.alike_bind (hregular n) fun _ => Simulation.alike_pure _
  refine ⟨?_, fun n => (hsame (hregular n)).anti (Nat.le_succ n)⟩
  refine settles_bind inside_next? fun _ => settles_ite (inside_pure _).loose ?_
  -- Behind the last semicolon the list would go on, but then it leaves nothing.
  refine loose_bind (whole_accept _).loose (fun _ n => ?_) fun _ => settles_ite hloose ?_
  · exact Simulation.alike_ite (hregular n)
      (Simulation.alike_bind (htakes n).alike fun first => hrest first n)
  · exact loose_bind h.loose hrest fun _ => settles_map hloose _

/-- A namespace is settled inside of its braces, if its declarations are. -/
theorem inside_namespaceBody {declaration : Reader Declaration} (h : declaration.Whole)
    (htakes : ∀ n, Simulation.same.Takes n declaration declaration) :
    Inside (namespaceBody declaration) := by
  refine settles_bind (steady_separated steady_bindingName ?_ rfl rfl).inside fun _ => ?_
  · exact fun _ => Simulation.takes_bindingName.alike
  refine settles_bind (inside_expect (by decide)) fun _ => ?_
  refine settles_bind_expect (loose_declarations ?_ h htakes) (by decide) fun _ => inside_pure _
  intro lexeme hangle
  cases lexeme with
  | mark m => cases m <;> first | decide | cases hangle
  | _ => cases hangle

/-- What stands behind modifiers is settled, if the declarations inside are. -/
theorem whole_declarationBody {declaration : Reader Declaration} (h : declaration.Whole)
    (htakes : ∀ n, Simulation.same.Takes n declaration declaration) :
    Whole (declarationBody declaration) := by
  intro stream hended
  refine settlesAt_look (fun _ _ => Stream.next?_followed hended) ?_
  cases hnext : stream.next? with
  | none => exact settlesAt_fail _
  | some lexeme =>
    cases lexeme with
    | word w =>
      have htail : stream.tail.Ended := hended.tail hnext Lexeme.noConfusion
      have hskip : ∀ {next : Unit → Reader Declaration}, Whole (next ()) →
          SettlesAt (fun _ => True) (fun rest => rest.tokens = [] ∨ rest.Ended) (skip >>= next)
            stream :=
        fun hwhole => settlesAt_skip hended (hwhole stream.tail htail)
      cases w <;> first
        | exact hskip whole_variableBody
        | exact hskip whole_functionBody
        | exact hskip inside_interfaceBody.whole
        | exact hskip inside_classBody.whole
        | exact hskip (inside_namespaceBody h htakes).whole
        | exact settlesAt_fail _
        | skip
      -- Only an alias has to look at what comes second.
      refine settlesAt_look (fun _ _ => ?_) ?_
      · rw [Stream.second?_eq, Stream.second?_eq, Stream.tail_followed hended,
          Stream.next?_followed htail]
      · split
        · exact hskip whole_aliasBody
        · exact settlesAt_fail _
    | _ => exact settlesAt_fail _

/-- So is a declaration or a statement that is kept as it is written. -/
theorem whole_declarationOrStatement (text : List Char) {declaration : Reader Declaration}
    (h : declaration.Whole) (htakes : ∀ n, Simulation.same.Takes n declaration declaration) :
    Whole (declarationOrStatement text declaration) :=
  settles_bind inside_position fun position =>
    settles_bind (inside_take cuts_splitModifierWords) fun _ =>
      settles_ite (whole_statement text position) (whole_declarationBody h htakes)

/-- What is read of a declaration is settled, whether it takes the last semicolon or not. -/
theorem whole_declaration (text : List Char) : Whole (declaration text) := by
  have hsame : ∀ {n : Nat} {reader reader' : Reader Declaration},
      Simulation.same.Takes n reader reader' → Simulation.same.Takes (n + 1)
        (declarationOrStatement text reader) (declarationOrStatement text reader') :=
    Simulation.takes_declarationOrStatement (Simulation.verbatim_same text)
  refine settles_recursive (fun reader => Whole reader ∧ ∀ n, Simulation.same.Takes n reader reader)
    hsame ⟨settles_fail _, fun _ _ _ h _ _ => Simulation.outcome_fail _ h⟩
      (fun reader hreader => ?_)
    fun _ hkept => hkept.1
  exact ⟨whole_declarationOrStatement text hreader.1 hreader.2,
    fun n => (hsame (hreader.2 n)).anti (Nat.le_succ n)⟩

end Reader

end Facade
