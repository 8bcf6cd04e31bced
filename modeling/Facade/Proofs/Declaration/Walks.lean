import Facade.Proofs.Declaration.Statements

/-!
# Walks over statements, wherever they stand

How far the walk over a statement comes depends on the lexemes of the statement and on little of
what follows it: on whether a semicolon comes behind a closing brace, and on whether there is
anything behind a statement that nothing ends. `Walks` says that tokens with some lexemes are
walked over in front of anything that may follow, and `walks_of_splitStatement` that one walk is
enough to know. The words in front of a statement are found again in the same way:
`splitModifierWords_again`.
-/

set_option autoImplicit false

namespace Facade

namespace Reader

variable {depth stop behind : Nat} {tokens rest : List Token}

/-! ### All tokens of a statement -/

/-- Where the last of some tokens ends, or a position if there is none. -/
def lastStop (stop : Nat) (tokens : List Token) : Nat :=
  (tokens.getLast?.map Token.stop).getD stop

/-- The last token behind another ends where it does, or the other does. -/
theorem lastStop_cons (stop : Nat) (token : Token) (rest : List Token) :
    lastStop stop (token :: rest) = lastStop token.stop rest := by
  cases rest with
  | nil => rfl
  | cons next rest =>
    rw [lastStop, List.getLast?_cons_cons, lastStop,
      List.getLast?_eq_getLast_of_ne_nil (List.cons_ne_nil next rest)]
    rfl

/-- There is nothing more, or a closing brace. -/
def IsClose (next : Option Lexeme) : Prop :=
  next = none ∨ next = some (.mark .braceClose)

/-- Anything but a semicolon. -/
def NoSemicolon (next : Option Lexeme) : Prop :=
  next ≠ some (.mark .semicolon)

/-- What comes first of some tokens. -/
abbrev front? (tokens : List Token) : Option Lexeme :=
  tokens.head?.map Token.lexeme

/-- Tokens with some lexemes are walked over up to their end, in front of anything that may
follow. -/
def Walks (depth : Nat) (lexemes : List Lexeme) (follow : Option Lexeme → Prop) : Prop :=
  ∀ (stop : Nat) (tokens rest : List Token), tokens.map Token.lexeme = lexemes →
    follow (front? rest) →
    splitStatement depth stop (tokens ++ rest) = .done (lastStop stop tokens) rest

/-- To go on behind a first lexeme. -/
theorem Walks.cons {deeper : Nat} {lexeme : Lexeme} {lexemes : List Lexeme}
    {follow : Option Lexeme → Prop} (h : Walks deeper lexemes follow)
    (hgoes : ∀ (token : Token) (stop : Nat) (rest : List Token), token.lexeme = lexeme →
      splitStatement depth stop (token :: rest) = splitStatement deeper token.stop rest) :
    Walks depth (lexeme :: lexemes) follow := by
  intro stop tokens rest htokens hrest
  obtain ⟨token, more, rfl, htoken, hmore⟩ := List.map_eq_cons_iff.mp htokens
  rw [List.cons_append, hgoes token stop _ htoken, h token.stop more rest hmore hrest,
    lastStop_cons]

/-- Without a semicolon behind it, the brace that closes the last bracket is the end. -/
theorem splitStatement_closes {token : Token} (h : token.lexeme = .mark .braceClose) (stop : Nat)
    {rest : List Token} (hrest : NoSemicolon (front? rest)) :
    splitStatement 1 stop (token :: rest) = .done token.stop rest := by
  cases rest with
  | nil =>
    obtain ⟨lexeme, start, behind⟩ := token
    cases (h : lexeme = .mark .braceClose)
    rfl
  | cons next rest => exact splitStatement_brace h (fun heq => hrest (congrArg some heq)) stop rest

/-- Where nothing but what comes behind ends a statement, nothing is taken. -/
theorem walks_nil : Walks 0 [] IsClose := by
  intro stop tokens rest htokens hrest
  cases List.map_eq_nil_iff.mp htokens
  cases rest with
  | nil => rfl
  | cons token rest =>
    rcases hrest with hnone | hclose
    · cases hnone
    · exact splitStatement_leaves (Option.some.inj hclose) stop rest

/-- Outside of brackets, the walk ends behind a semicolon. -/
theorem walks_semicolon (follow : Option Lexeme → Prop) : Walks 0 [.mark .semicolon] follow := by
  intro stop tokens rest htokens _
  obtain ⟨token, rfl, htoken⟩ := List.map_eq_singleton_iff.mp htokens
  exact splitStatement_ends htoken stop rest

/-- Inside of one, it ends behind a closing brace with no semicolon behind that. -/
theorem walks_brace : Walks 1 [.mark .braceClose] NoSemicolon := by
  intro stop tokens rest htokens hrest
  obtain ⟨token, rfl, htoken⟩ := List.map_eq_singleton_iff.mp htokens
  exact splitStatement_closes htoken stop hrest

/-- It ends behind the semicolon otherwise. -/
theorem walks_brace_semicolon (follow : Option Lexeme → Prop) :
    Walks 1 [.mark .braceClose, .mark .semicolon] follow := by
  intro stop tokens rest htokens _
  obtain ⟨closing, more, rfl, hclosing, hmore⟩ := List.map_eq_cons_iff.mp htokens
  obtain ⟨semicolon, rfl, hsemicolon⟩ := List.map_eq_singleton_iff.mp hmore
  exact splitStatement_brace_semicolon hclosing hsemicolon stop rest

/-- A walk that takes nothing. -/
theorem splitStatement_self (h : splitStatement depth stop rest = .done behind rest) :
    depth = 0 ∧ behind = stop ∧ IsClose (front? rest) := by
  cases rest with
  | nil =>
    cases depth with
    | zero => exact ⟨rfl, (StatementEnd.done.inj h).1.symm, .inl rfl⟩
    | succ depth => exact StatementEnd.noConfusion h
  | cons token rest =>
    -- Behind the token, a walk cannot leave the token.
    have hlonger : ∀ {more : List Token}, more.length ≤ rest.length → more ≠ token :: rest := by
      rintro more hle rfl
      exact absurd hle (Nat.not_succ_le_self _)
    cases walkStep depth token.lexeme with
    | leaves hdepth hlexeme =>
      cases hdepth
      rw [splitStatement_leaves hlexeme] at h
      exact ⟨rfl, (StatementEnd.done.inj h).1.symm, .inr (congrArg some hlexeme)⟩
    | fails _ hstray =>
      rw [hstray token stop rest rfl] at h
      exact StatementEnd.noConfusion h
    | ends hdepth hlexeme =>
      cases hdepth
      rw [splitStatement_ends hlexeme] at h
      exact absurd (StatementEnd.done.inj h).2 (hlonger (Nat.le_refl _))
    | closes hdepth hlexeme =>
      cases hdepth
      by_cases hrest : NoSemicolon (front? rest)
      · rw [splitStatement_closes hlexeme stop hrest] at h
        exact absurd (StatementEnd.done.inj h).2 (hlonger (Nat.le_refl _))
      · cases rest with
        | nil => exact absurd (fun heq => by cases heq) hrest
        | cons next rest =>
          have hnext : next.lexeme = .mark .semicolon := Option.some.inj (not_not.mp hrest)
          rw [splitStatement_brace_semicolon hlexeme hnext] at h
          exact absurd (StatementEnd.done.inj h).2 (hlonger (Nat.le_succ _))
    | goes deeper hgoes =>
      rw [hgoes token stop rest rfl] at h
      exact absurd rfl (hlonger (Simulation.length_splitStatement_le h))

/-- Behind the brace that closes the last bracket, a statement has a semicolon at most. -/
theorem splitStatement_closes_cases {token : Token} (h : token.lexeme = .mark .braceClose)
    (hsplit : splitStatement 1 stop (token :: (tokens ++ rest)) = .done behind rest) :
    behind = lastStop token.stop tokens
      ∧ (tokens = []
        ∨ ∃ semicolon, tokens = [semicolon] ∧ semicolon.lexeme = .mark .semicolon) := by
  by_cases hnext : NoSemicolon (front? (tokens ++ rest))
  · rw [splitStatement_closes h stop hnext] at hsplit
    obtain ⟨rfl, hrest⟩ := StatementEnd.done.inj hsplit
    cases List.append_left_eq_self.mp hrest
    exact ⟨rfl, .inl rfl⟩
  -- The semicolon is taken, so it is one of the tokens of the statement.
  · cases tokens with
    | nil =>
      cases rest with
      | nil => exact absurd (fun heq => by cases heq) hnext
      | cons next rest =>
        have hlexeme : next.lexeme = .mark .semicolon := Option.some.inj (not_not.mp hnext)
        rw [List.nil_append, splitStatement_brace_semicolon h hlexeme] at hsplit
        exact absurd (StatementEnd.done.inj hsplit).2.symm (List.cons_ne_self next rest)
    | cons semicolon tokens =>
      have hlexeme : semicolon.lexeme = .mark .semicolon := Option.some.inj (not_not.mp hnext)
      rw [List.cons_append, splitStatement_brace_semicolon h hlexeme] at hsplit
      obtain ⟨rfl, hrest⟩ := StatementEnd.done.inj hsplit
      cases List.append_left_eq_self.mp hrest
      exact ⟨rfl, .inr ⟨semicolon, rfl, hlexeme⟩⟩

/-- One walk over the tokens of a statement is enough to know how far any walk over their lexemes
comes. Either it does so in front of anything but a semicolon, or nothing ends the statement but
what comes behind it. -/
theorem walks_of_splitStatement
    (h : splitStatement depth stop (tokens ++ rest) = .done behind rest) :
    behind = lastStop stop tokens ∧ (Walks depth (tokens.map Token.lexeme) NoSemicolon
      ∨ IsClose (front? rest) ∧ Walks depth (tokens.map Token.lexeme) IsClose) := by
  induction tokens generalizing depth stop with
  | nil =>
    obtain ⟨rfl, rfl, hclose⟩ := splitStatement_self h
    exact ⟨rfl, .inr ⟨hclose, walks_nil⟩⟩
  | cons token tokens ih =>
    rw [lastStop_cons]
    rw [List.cons_append] at h
    cases walkStep depth token.lexeme with
    | leaves hdepth hlexeme =>
      cases hdepth
      rw [splitStatement_leaves hlexeme] at h
      -- The statement would end in front of the token, but the tokens behind it are fewer than
      -- that.
      have hlength := congrArg List.length (StatementEnd.done.inj h).2
      rw [List.length_cons, List.length_append] at hlength
      omega
    | fails _ hstray =>
      rw [hstray token stop _ rfl] at h
      exact StatementEnd.noConfusion h
    | ends hdepth hlexeme =>
      cases hdepth
      rw [splitStatement_ends hlexeme] at h
      obtain ⟨rfl, hrest⟩ := StatementEnd.done.inj h
      cases List.append_left_eq_self.mp hrest
      rw [List.map_singleton, hlexeme]
      exact ⟨rfl, .inl (walks_semicolon _)⟩
    | closes hdepth hlexeme =>
      cases hdepth
      -- The last brace ends the statement, unless a semicolon follows it, which then is taken as
      -- well.
      obtain ⟨hbehind, rfl | ⟨semicolon, rfl, hlexeme'⟩⟩ := splitStatement_closes_cases hlexeme h
      · rw [List.map_singleton, hlexeme]
        exact ⟨hbehind, .inl walks_brace⟩
      · rw [List.map_cons, List.map_singleton, hlexeme, hlexeme']
        exact ⟨hbehind, .inl (walks_brace_semicolon _)⟩
    | goes deeper hgoes =>
      rw [hgoes token stop _ rfl] at h
      obtain ⟨hbehind, hwalks⟩ := ih h
      exact ⟨hbehind, hwalks.imp (·.cons hgoes) fun hopen => ⟨hopen.1, hopen.2.cons hgoes⟩⟩

/-! ### The words in front of a statement -/

/-- Whether a statement starts shows in the first two lexemes. -/
theorem startsStatement_congr {tokens tokens' : List Token}
    (hfirst : front? tokens = front? tokens')
    (hsecond : front? tokens.tail = front? tokens'.tail) :
    startsStatement tokens = startsStatement tokens' := by
  have htokens := Simulation.startsStatement_eq_opensStatement ⟨tokens, 0⟩
  have htokens' := Simulation.startsStatement_eq_opensStatement ⟨tokens', 0⟩
  rw [htokens, htokens']
  exact congrArg₂ _ hfirst hsecond

/-- What comes first is the first lexeme. -/
theorem front?_eq (tokens : List Token) : front? tokens = (tokens.map Token.lexeme).head? := by
  cases tokens <;> rfl

/-- Whether a statement starts is a matter of lexemes. -/
theorem startsStatement_of_map_eq {tokens tokens' : List Token}
    (h : tokens.map Token.lexeme = tokens'.map Token.lexeme) :
    startsStatement tokens = startsStatement tokens' := by
  refine startsStatement_congr ?_ ?_
  · rw [front?_eq, front?_eq, h]
  · rw [front?_eq, front?_eq, List.map_tail, List.map_tail, h]

/-- Where words were taken off a statement, the same words are taken off again, whatever comes
behind the statement. -/
theorem splitModifierWords_again {statement : List Token}
    (h : splitModifierWords (tokens ++ rest) = (true, statement ++ rest))
    (hstarts : startsStatement statement = true) {again : List Token}
    (hagain : again.map Token.lexeme = tokens.map Token.lexeme) (more : List Token) :
    ∃ left, left <:+ again ∧ left.map Token.lexeme = statement.map Token.lexeme
      ∧ splitModifierWords (again ++ more) = (true, left ++ more) := by
  have hne : statement ≠ [] := by
    rintro rfl
    cases hstarts
  induction tokens generalizing again with
  | nil =>
    have hle := Simulation.length_splitModifierWords_le rest
    rw [List.nil_append] at h
    rw [h, List.length_append] at hle
    exact absurd (List.eq_nil_of_length_eq_zero (by omega)) hne
  | cons token tokens ih =>
    obtain ⟨token', again, rfl, htoken, hmore⟩ := List.map_eq_cons_iff.mp hagain
    cases hfound : startsStatement (token :: (tokens ++ rest)) with
    | true =>
      rw [List.cons_append, splitModifierWords, hfound, if_pos rfl] at h
      -- The statement is all that is left in front of the rest.
      have hstatement : statement = token :: tokens :=
        (List.append_cancel_right (Prod.mk.inj h).2).symm
      have hstarts' : startsStatement (token' :: again) = true := by
        rw [startsStatement_of_map_eq hagain, ← hstatement]
        exact hstarts
      refine ⟨token' :: again, List.suffix_rfl, by rw [hstatement, hagain], ?_⟩
      have hall : startsStatement (Stream.tokens ⟨token' :: again ++ more, 0⟩) = true :=
        startsStatement_append hstarts' more
      exact Simulation.splitModifierWords_found hall
    | false =>
      rw [List.cons_append, splitModifierWords, hfound, if_neg Bool.false_ne_true] at h
      split at h
      · rename_i hmodifier
        obtain ⟨left, hsuffix, hlexemes, hleft⟩ := ih h hmore
        refine ⟨left, hsuffix.trans (List.suffix_cons token' again), hlexemes, ?_⟩
        -- A token comes behind the word in any case, so no statement starts at the word.
        have hnonempty : again ≠ [] := by
          rintro rfl
          rw [List.suffix_nil.mp hsuffix] at hlexemes
          exact hne (List.map_eq_nil_iff.mp hlexemes.symm)
        obtain ⟨second, others, rfl⟩ := List.exists_cons_of_ne_nil hnonempty
        obtain ⟨second', others', rfl, hsecond, -⟩ := List.map_eq_cons_iff.mp hmore.symm
        have hnot : startsStatement (token' :: (second :: others ++ more)) = false := by
          rw [← hfound]
          exact startsStatement_congr (congrArg some htoken) (congrArg some hsecond.symm)
        rw [List.cons_append, splitModifierWords, hnot, if_neg Bool.false_ne_true, htoken,
          if_pos hmodifier]
        exact hleft
      · cases h

/-- The lexemes that show that a statement starts belong to the statement. -/
theorem startsStatement_of_splitStatement {statement : List Token}
    (h : startsStatement (statement ++ rest) = true)
    (hsplit : splitStatement 0 stop (statement ++ rest) = .done behind rest) :
    startsStatement statement = true := by
  match statement with
  | _ :: _ :: _ => exact h
  | [] =>
    obtain ⟨-, -, hclose⟩ := splitStatement_self hsplit
    cases rest with
    | nil => cases h
    | cons token rest =>
      rw [List.nil_append, startsStatement] at h
      rcases hclose with hnone | hclose
      · cases hnone
      · simp [Option.some.inj hclose] at h
  -- With a single token, what follows is a closing brace or nothing, and cannot be what shows the
  -- start.
  | [token] =>
    obtain ⟨first, more, htokens, hmore⟩ := Simulation.splitStatement_of_startsStatement h stop
    obtain ⟨rfl, rfl⟩ := List.cons.inj htokens
    rw [hmore] at hsplit
    obtain ⟨-, -, hclose⟩ := splitStatement_self hsplit
    cases rest with
    | nil => exact h
    | cons next rest =>
      rcases hclose with hnone | hclose
      · cases hnone
      · have hnext : next.lexeme = .mark .braceClose := Option.some.inj hclose
        obtain ⟨lexeme, start, behind⟩ := token
        simp only [startsStatement, List.singleton_append, List.head?_cons, List.tail_cons,
          Option.map_some, hnext] at h
        cases lexeme with
        | word word => cases word <;> first | rfl | exact absurd h (by decide)
        | _ => exact absurd h (by simp)

/-- The words in front of a statement are the same one by one. -/
theorem splitModifierWords_singles (tokens : List Token) : splitModifierWords (singles tokens)
    = ((splitModifierWords tokens).1, singles (splitModifierWords tokens).2) := by
  induction tokens with
  | nil => rfl
  | cons token rest ih =>
    have hsame : startsStatement (singles (token :: rest)) = startsStatement (token :: rest) := by
      have hstreams : singly.streams ⟨singles (token :: rest), 0⟩ ⟨token :: rest, 0⟩ :=
        ⟨singles_singles _, rfl⟩
      exact Simulation.startsStatement_eq hstreams
    cases hstarts : startsStatement (token :: rest) with
    | true =>
      have hfound : startsStatement (Stream.tokens ⟨singles (token :: rest), 0⟩) = true :=
        hsame.trans hstarts
      have hsplit := Simulation.splitModifierWords_found hfound
      rw [splitModifierWords, hstarts, if_pos rfl]
      exact hsplit
    | false =>
      have hnot := hsame.trans hstarts
      rw [splitModifierWords, hstarts, if_neg Bool.false_ne_true]
      split
      · rename_i hmodifier
        have hangle : token.lexeme.isAngle = false := by
          rw [Bool.or_eq_true, decide_eq_true_eq, decide_eq_true_eq] at hmodifier
          exact Simulation.isAngle_of_isPlainModifier hmodifier
        rw [singles_cons, Token.singles_of_not_isAngle hangle, List.singleton_append] at hnot ⊢
        rw [splitModifierWords, hnot, if_neg Bool.false_ne_true, if_pos hmodifier, ih]
      · rename_i hmodifier
        obtain ⟨first, more, hsingles, -, hlexeme⟩ := token.exists_singles_eq_cons
        rw [singles_cons, hsingles, List.cons_append] at hnot ⊢
        -- The first single token is the token itself or an angle bracket: no modifier in either
        -- case.
        have hmiss : ∀ lexeme, Stream.next? ⟨first :: (more ++ singles rest), 0⟩ = some lexeme →
            ¬ Simulation.isPlainModifier lexeme := by
          rintro _ hnext hplain
          cases Option.some.inj hnext
          rw [hlexeme] at hplain
          split at hplain
          · exact hplain.elim Lexeme.noConfusion Lexeme.noConfusion
          · rw [Bool.or_eq_true, decide_eq_true_eq, decide_eq_true_eq] at hmodifier
            exact hmodifier hplain
        exact Simulation.splitModifierWords_miss hmiss hnot

end Reader

end Facade
