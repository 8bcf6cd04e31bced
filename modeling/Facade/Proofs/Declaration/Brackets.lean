import Facade.Proofs.Declaration.Walks

/-!
# Pairs of brackets

A bracket that closes belongs to the most recent one that opens and is not closed yet.
`bracketPairs` finds these pairs, of whatever kind the two may be, and has no answer where one is
missing. Tokens are balanced exactly if all of them are paired and each pair is of one kind
(`balanced_iff`). The walk over a statement counts brackets of all kinds with one number, so it
comes to an end where all are paired (`isSome_bracketPairs`), and it does not see whether they are
of one kind.
-/

set_option autoImplicit false

namespace Facade

open Reader

/-- The brackets of some tokens behind others that are open, each as the token that opens it and the
one that closes it, in the order of the latter. There is no answer if nothing is open where one
closes, or if one is left open. -/
def bracketPairs : (unclosed tokens : List Token) → Option (List (Token × Token))
  | unclosed, [] => if unclosed.isEmpty then some [] else none
  | unclosed, token :: rest =>
    if token.lexeme.opens then bracketPairs (token :: unclosed) rest
    else if token.lexeme.closes then
      unclosed.head?.bind fun opening =>
        (bracketPairs unclosed.tail rest).map ((opening, token) :: ·)
    else bracketPairs unclosed rest

section

variable {token : Token} {unclosed rest : List Token}

/-- A bracket that opens is open from there on. -/
theorem bracketPairs_opens (h : token.lexeme.opens = true) (unclosed rest : List Token) :
    bracketPairs unclosed (token :: rest) = bracketPairs (token :: unclosed) rest := by
  rw [bracketPairs, if_pos h]

/-- A bracket opens or closes. -/
theorem Lexeme.isBracket_eq (lexeme : Lexeme) :
    lexeme.isBracket = (lexeme.opens || lexeme.closes) := by
  cases lexeme with
  | mark mark => cases mark <;> rfl
  | _ => rfl

/-- Any other token belongs to no pair. -/
theorem bracketPairs_plain (h : token.lexeme.isBracket = false) (unclosed rest : List Token) :
    bracketPairs unclosed (token :: rest) = bracketPairs unclosed rest := by
  rw [Lexeme.isBracket_eq, Bool.or_eq_false_iff] at h
  rw [bracketPairs, if_neg (by rw [h.1]; decide), if_neg (by rw [h.2]; decide)]

/-- A bracket that closes belongs to the one that was opened last. -/
theorem bracketPairs_closes (hopens : token.lexeme.opens = false) (h : token.lexeme.closes = true)
    (opening : Token) (unclosed rest : List Token) :
    bracketPairs (opening :: unclosed) (token :: rest)
      = (bracketPairs unclosed rest).map ((opening, token) :: ·) := by
  rw [bracketPairs, if_neg (by rw [hopens]; decide), if_pos h]
  rfl

/-- There is no pair for it if none is open. -/
theorem bracketPairs_stray (hopens : token.lexeme.opens = false) (h : token.lexeme.closes = true)
    (rest : List Token) : bracketPairs [] (token :: rest) = none := by
  rw [bracketPairs, if_neg (by rw [hopens]; decide), if_pos h]
  rfl

end

/-- What stands for the tokens and has their lexemes has their pairs. -/
theorem bracketPairs_map {f : Token → Token} (hf : ∀ token, (f token).lexeme = token.lexeme)
    (unclosed tokens : List Token) : bracketPairs (unclosed.map f) (tokens.map f)
      = (bracketPairs unclosed tokens).map (List.map fun pair => (f pair.1, f pair.2)) := by
  induction tokens generalizing unclosed with
  | nil => cases unclosed <;> rfl
  | cons token tokens ih =>
    rw [List.map_cons, bracketPairs, bracketPairs, hf]
    split
    · exact ih (token :: unclosed)
    split
    · cases unclosed with
      | nil => rfl
      | cons opening unclosed =>
        simp only [List.map_cons, List.head?_cons, List.tail_cons, Option.bind_some, ih,
          Option.map_map]
        rfl
    · exact ih unclosed

/-! ### Balanced tokens -/

/-- Of two tokens that enclose something, the first opens a bracket and the second closes one. -/
theorem Encloses.opens {opening closing : Token} (h : Encloses opening closing) :
    opening.lexeme.opens = true ∧ closing.lexeme.opens = false ∧ closing.lexeme.closes = true := by
  obtain ⟨m, close, hopening, hclosing, hclose⟩ := h
  rw [hopening, hclosing]
  cases m <;> cases hclose <;> decide

/-- Balanced tokens have their pairs among themselves, and each is of one kind. -/
theorem Balanced.exists_pairs {tokens : List Token} (h : Balanced tokens) :
    ∃ pairs, (∀ pair ∈ pairs, Encloses pair.1 pair.2) ∧ ∀ unclosed rest,
      bracketPairs unclosed (tokens ++ rest) = (bracketPairs unclosed rest).map (pairs ++ ·) := by
  induction h with
  | nil =>
    refine ⟨[], List.forall_mem_nil _, fun unclosed rest => ?_⟩
    rw [List.nil_append]
    cases bracketPairs unclosed rest <;> rfl
  | plain hplain _ ih =>
    obtain ⟨pairs, hpairs, hrest⟩ := ih
    refine ⟨pairs, hpairs, fun unclosed rest => ?_⟩
    rw [List.cons_append, bracketPairs_plain hplain, hrest]
  | @group opening closing inner more hencloses _ _ ihinner ihmore =>
    obtain ⟨pairs, hpairs, hinner⟩ := ihinner
    obtain ⟨pairs', hpairs', hmore⟩ := ihmore
    obtain ⟨hopens, hnot, hcloses⟩ := hencloses.opens
    refine ⟨pairs ++ (opening, closing) :: pairs', ?_, fun unclosed rest => ?_⟩
    · exact List.forall_mem_append.mpr ⟨hpairs, List.forall_mem_cons.mpr ⟨hencloses, hpairs'⟩⟩
    · rw [List.cons_append, List.append_assoc, List.cons_append, bracketPairs_opens hopens, hinner,
        bracketPairs_closes hnot hcloses, hmore]
      simp only [Option.map_map, Function.comp_def, List.append_assoc, List.cons_append]

/-- Tokens that close some brackets that are open, the last one first, with balanced tokens between
them and around them. -/
inductive Unwinds : (unclosed tokens : List Token) → Prop where
  | done {tokens : List Token} : Balanced tokens → Unwinds [] tokens
  | close {opening closing : Token} {unclosed inner rest : List Token} :
      Encloses opening closing → Balanced inner → Unwinds unclosed rest →
      Unwinds (opening :: unclosed) (inner ++ closing :: rest)

/-- A token that is no bracket changes nothing. -/
theorem Unwinds.plain {token : Token} {unclosed tokens : List Token} (h : Unwinds unclosed tokens)
    (hplain : token.lexeme.isBracket = false) : Unwinds unclosed (token :: tokens) := by
  cases h with
  | done hbalanced => exact .done (.plain hplain hbalanced)
  | close hencloses hinner hrest => exact .close hencloses (.plain hplain hinner) hrest

/-- A bracket that is opened and closed again stands in front. -/
theorem Unwinds.group {opening : Token} {unclosed tokens : List Token}
    (h : Unwinds (opening :: unclosed) tokens) : Unwinds unclosed (opening :: tokens) := by
  cases h with
  | @close _ closing _ inner rest hencloses hinner hrest =>
    cases hrest with
    | done hbalanced => exact .done (.group hencloses hinner hbalanced)
    | @close next closing' _ inner' rest' hencloses' hinner' hrest' =>
      have hgroup := Unwinds.close hencloses' (.group hencloses hinner hinner') hrest'
      rwa [List.cons_append, List.append_assoc] at hgroup

/-- Tokens whose pairs are all of one kind close the brackets that are open. -/
theorem unwinds_of_bracketPairs {unclosed tokens : List Token} {pairs : List (Token × Token)}
    (h : bracketPairs unclosed tokens = some pairs)
    (hpairs : ∀ pair ∈ pairs, Encloses pair.1 pair.2) : Unwinds unclosed tokens := by
  induction tokens generalizing unclosed pairs with
  | nil =>
    cases unclosed with
    | nil => exact .done .nil
    | cons => cases h
  | cons token tokens ih =>
    cases hopens : token.lexeme.opens with
    | true =>
      rw [bracketPairs_opens hopens] at h
      exact (ih h hpairs).group
    | false =>
      cases hcloses : token.lexeme.closes with
      | true =>
        cases unclosed with
        | nil =>
          rw [bracketPairs_stray hopens hcloses] at h
          cases h
        | cons opening unclosed =>
          rw [bracketPairs_closes hopens hcloses] at h
          obtain ⟨others, hothers, rfl⟩ := Option.map_eq_some_iff.mp h
          obtain ⟨hfirst, hrest⟩ := List.forall_mem_cons.mp hpairs
          -- The first pair is that of the last open bracket, and the others are those of the rest.
          exact .close hfirst .nil (ih hothers hrest)
      | false =>
        have hplain : token.lexeme.isBracket = false := by
          rw [Lexeme.isBracket_eq, hopens, hcloses]
          rfl
        rw [bracketPairs_plain hplain] at h
        exact (ih h hpairs).plain hplain

/-- Tokens are balanced exactly if every bracket has its pair and each pair is of one kind. -/
theorem balanced_iff {tokens : List Token} : Balanced tokens
    ↔ ∃ pairs, bracketPairs [] tokens = some pairs ∧ ∀ pair ∈ pairs, Encloses pair.1 pair.2 := by
  constructor
  · intro h
    obtain ⟨pairs, hpairs, hall⟩ := h.exists_pairs
    have hnone := hall [] []
    rw [List.append_nil, bracketPairs, List.isEmpty_nil, if_pos rfl, Option.map_some,
      List.append_nil] at hnone
    exact ⟨pairs, hnone, hpairs⟩
  · rintro ⟨pairs, h, hpairs⟩
    cases unwinds_of_bracketPairs h hpairs with
    | done hbalanced => exact hbalanced

/-! ### The walk -/

/-- Where the walk over a statement ends, all brackets of the statement are paired. -/
theorem isSome_bracketPairs {depth stop behind : Nat} {tokens rest : List Token}
    (h : splitStatement depth stop (tokens ++ rest) = .done behind rest) {unclosed : List Token}
    (hdepth : unclosed.length = depth) : (bracketPairs unclosed tokens).isSome = true := by
  induction tokens generalizing depth stop unclosed with
  | nil =>
    obtain ⟨rfl, -, -⟩ := splitStatement_self h
    cases List.eq_nil_of_length_eq_zero hdepth
    rfl
  | cons token tokens ih =>
    rw [List.cons_append] at h
    cases walkStep depth token.lexeme with
    -- Here the walk leaves the token, but it is one of those that are taken.
    | leaves hleaves hlexeme =>
      cases hleaves
      rw [splitStatement_leaves hlexeme] at h
      have hlength := congrArg List.length (StatementEnd.done.inj h).2
      rw [List.length_cons, List.length_append] at hlength
      omega
    | fails _ hstray =>
      rw [hstray token stop _ rfl] at h
      exact StatementEnd.noConfusion h
    | ends hends hlexeme =>
      cases hends
      cases List.eq_nil_of_length_eq_zero hdepth
      rw [splitStatement_ends hlexeme] at h
      cases List.append_left_eq_self.mp (StatementEnd.done.inj h).2
      rw [bracketPairs_plain (by rw [hlexeme]; rfl)]
      rfl
    -- The last brace closes what is open, and a semicolon may be behind it.
    | closes hcloses hlexeme =>
      cases hcloses
      obtain ⟨opening, rfl⟩ := List.length_eq_one_iff.mp hdepth
      rw [bracketPairs_closes (by rw [hlexeme]; rfl) (by rw [hlexeme]; rfl), Option.isSome_map]
      obtain ⟨-, rfl | ⟨semicolon, rfl, hsemicolon⟩⟩ := splitStatement_closes_cases hlexeme h
      · rfl
      · rw [bracketPairs_plain (by rw [hsemicolon]; rfl)]
        rfl
    | goes deeper hgoes hleads =>
      rw [hgoes token stop _ rfl] at h
      rw [Lexeme.Leads] at hleads
      split at hleads
      · rename_i hopens
        rw [bracketPairs_opens hopens]
        exact ih h (by rw [List.length_cons, hdepth, hleads])
      split at hleads
      · rename_i hopens hcloses
        obtain ⟨opening, others, rfl⟩ : ∃ opening others, unclosed = opening :: others :=
          List.exists_cons_of_length_pos (by omega)
        rw [bracketPairs_closes (Bool.eq_false_iff.mpr hopens) hcloses, Option.isSome_map]
        exact ih h (by rw [List.length_cons] at hdepth; omega)
      · rename_i hopens hcloses
        have hplain : token.lexeme.isBracket = false := by
          rw [Lexeme.isBracket_eq, Bool.eq_false_iff.mpr hopens, Bool.eq_false_iff.mpr hcloses]
          rfl
        rw [bracketPairs_plain hplain]
        exact ih h (by rw [hdepth, hleads])

end Facade
