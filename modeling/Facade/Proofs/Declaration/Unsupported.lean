import Facade.Proofs.Declaration.Brackets
import Facade.Proofs.Declaration.GoesOn

/-!
# Statements that are kept as they are written, in their file

Every statement that a document keeps as it is written was read at a place where its file goes on
with declarations. What is kept is a run of the tokens there: the words in front of the statement,
and the statement up to the token that the walk over it ends with (`IsKeptRun`).
`Document.unsupported_run` says of every such statement that its text is that of the run and makes
the same tokens, and that its brackets are paired.
-/

set_option autoImplicit false

namespace Facade

open Facade.Text (byteLength slice)
open Reader

/-! ### Runs of tokens -/

/-- The words that are taken off in front of a statement change nothing. -/
theorem exists_words (tokens : List Token) :
    ∃ words, words ++ (splitModifierWords tokens).2 = tokens
      ∧ ∀ word ∈ words, Simulation.isPlainModifier word.lexeme := by
  fun_induction splitModifierWords tokens with
  | case1 | case2 | case4 => exact ⟨[], rfl, List.forall_mem_nil _⟩
  | case3 token rest _ hmodifier ih =>
    obtain ⟨words, hwords, hplain⟩ := ih
    rw [Bool.or_eq_true, decide_eq_true_eq, decide_eq_true_eq] at hmodifier
    exact ⟨token :: words, congrArg (token :: ·) hwords,
      List.forall_mem_cons.mpr ⟨hmodifier, hplain⟩⟩

/-- Some tokens of a file are a statement that is kept as it is written. The file goes on with
them, and what is read there is the statement. They are words that change nothing with the
statement behind them, and the text goes from the first of them to the last. -/
structure IsKeptRun (source : String) (tokens run behind : List Token) (kept : String) : Prop where
  place : GoesOn source.toList ⟨tokens, source.utf8ByteSize⟩ ⟨run ++ behind, source.utf8ByteSize⟩
  read : declaration source.toList ⟨run ++ behind, source.utf8ByteSize⟩
    = .ok ⟨.unsupported kept, [], ⟨behind, source.utf8ByteSize⟩⟩
  suffix : run ++ behind <:+ tokens
  words : ∃ words statement, run = words ++ statement
    ∧ (∀ word ∈ words, Simulation.isPlainModifier word.lexeme) ∧ startsStatement statement = true
  text : ∃ first last, run.head? = some first ∧ run.getLast? = some last
    ∧ kept = String.ofList (slice source.toList first.start last.stop)
  nonempty : kept ≠ ""

/-- Behind words that change nothing, a statement has all its pairs. -/
theorem isSome_bracketPairs_words {words statement rest : List Token} {position stop : Nat}
    (hwords : ∀ word ∈ words, Simulation.isPlainModifier word.lexeme)
    (hsplit : splitStatement 0 position (statement ++ rest) = .done stop rest) :
    (bracketPairs [] (words ++ statement)).isSome = true := by
  induction words with
  | nil => exact isSome_bracketPairs hsplit rfl
  | cons word words ih =>
    obtain ⟨hword, hrest⟩ := List.forall_mem_cons.mp hwords
    rw [List.cons_append, bracketPairs_plain (by rcases hword with h | h <;> rw [h] <;> rfl)]
    exact ih hrest

/-- By itself, a text that is cut out of a file from a first token to a last one makes the tokens
that it was made of. -/
theorem scan_slice {source : String} {before tokens rest : List Token} {first : Token}
    (hscan : Token.scan source = .ok (before ++ (first :: tokens ++ rest))) :
    ∃ own, Token.scan (String.ofList (slice source.toList first.start
        (lastStop first.start (first :: tokens)))) = .ok own
      ∧ first :: tokens = own.map (Token.shift first.start) := by
  obtain ⟨front, taken, behind, base, htext, hstart, hlast, hbase, hspells⟩ := exists_spells hscan
  have hslice : slice source.toList first.start (lastStop first.start (first :: tokens))
      = taken := by
    rw [lastStop_eq (List.cons_ne_nil first tokens) hlast, hstart, htext, Text.slice_middle]
  have hnone : Cursor.tokens ⟨[], 0 + byteLength taken⟩ = .ok [] := Cursor.tokens_of_step_none rfl
  have hscans := (hspells [] 0 (.intro [] behind Cursor.Stops.nil)).tokens_eq
  rw [List.append_nil, hnone, Cursor.shift_zero] at hscans
  refine ⟨base, ?_, hbase⟩
  rw [hslice, Token.scan, Cursor.ofText, String.toList_ofList, hscans]
  exact congrArg Except.ok (List.append_nil base)

/-- A statement of the file is kept from some of its tokens. By itself, the text makes the same
tokens, and their brackets are paired. -/
theorem exists_isKeptRun {source : String} {tokens : List Token} {stream : Stream}
    {reading : Reading Declaration} (hscan : Token.scan source = .ok tokens)
    (hplace : GoesOn source.toList ⟨tokens, source.utf8ByteSize⟩ stream)
    (hread : declaration source.toList stream = .ok reading)
    (hwords : (splitModifierWords stream.tokens).1 = true)
    (hstatement : statement source.toList stream.position
      { stream with tokens := (splitModifierWords stream.tokens).2 } = .ok reading) :
    ∃ run behind own pairs kept, stream.tokens = run ++ behind
      ∧ reading = ⟨.unsupported kept, [], ⟨behind, source.utf8ByteSize⟩⟩
      ∧ IsKeptRun source tokens run behind kept ∧ Token.scan kept = .ok own
      ∧ (∀ first ∈ run.head?, run = own.map (Token.shift first.start))
      ∧ bracketPairs [] own = some pairs := by
  obtain ⟨hwithin, hstop⟩ := hplace.within
  obtain ⟨first, more, statement, rest, htokens, hsplitWords, hsuffix, hstarts, hsplit, rfl⟩ :=
    exists_run hwords hstatement
  have hsuffixAll : first :: more ++ rest <:+ tokens := by
    rw [← htokens]
    exact suffix_of_splitModifierWords hwithin hwords
  have hstream : stream = ⟨first :: more ++ rest, source.utf8ByteSize⟩ :=
    congrArg₂ Stream.mk htokens hstop
  subst hstream
  obtain ⟨before, hbefore⟩ := id hsuffixAll
  rw [← hbefore] at hscan
  obtain ⟨own, hown, hshift⟩ := scan_slice hscan
  -- The words are what is in front of the statement in the run.
  obtain ⟨words, hall, hplain⟩ := exists_words (first :: more ++ rest)
  rw [hsplitWords, ← List.append_assoc] at hall
  have hrun : words ++ statement = first :: more := List.append_cancel_right hall
  obtain ⟨pairs, hpairs⟩ := Option.isSome_iff_exists.mp (isSome_bracketPairs_words hplain hsplit)
  have hownPairs := bracketPairs_map (f := Token.shift first.start) (fun _ => rfl) [] own
  rw [← hshift, ← hrun, List.map_nil, hpairs] at hownPairs
  obtain ⟨ownPairs, hfound, -⟩ := Option.map_eq_some_iff.mp hownPairs.symm
  refine ⟨first :: more, rest, own, ownPairs, _, rfl, rfl, ⟨hplace, hread, hsuffixAll,
    ⟨words, statement, hrun.symm, hplain, hstarts⟩, ?_, ?_⟩, hown, ?_, hfound⟩
  · refine ⟨first, (first :: more).getLast (List.cons_ne_nil _ _), rfl,
      List.getLast?_eq_getLast_of_ne_nil _, ?_⟩
    rw [lastStop, List.getLast?_eq_getLast_of_ne_nil (List.cons_ne_nil _ _)]
    rfl
  -- An empty text makes no tokens, and there is at least the first one.
  · intro hempty
    have hnone : Token.scan "" = .ok [] := Cursor.tokens_of_step_none rfl
    rw [hempty, hnone] at hown
    cases hown
    cases hshift
  · intro other hother
    cases Option.mem_some_iff.mp hother
    exact hshift

/-- No plain declaration is a statement that is kept. -/
theorem not_mem_atAnyDepth_of_isPlain {value : Declaration} (h : value.IsPlain) (kept : String) :
    .unsupported kept ∉ value.atAnyDepth := by
  intro hin
  cases value with
  | «namespace» | unsupported => cases h
  | _ => cases List.mem_singleton.mp hin

/-- Every statement that a file keeps as it is written, at any depth of namespaces, is kept from
some of its tokens, and their brackets are paired. -/
theorem Document.exists_isKeptRun_of_unsupported {source : String} {tokens : List Token}
    {document : Document} (hscan : Token.scan source = .ok tokens)
    (h : ofText source = .ok document) : ∀ kept,
    .unsupported kept ∈ allAtAnyDepth document.declarations → ∃ run behind own pairs,
      IsKeptRun source tokens run behind kept ∧ Token.scan kept = .ok own
        ∧ (∀ first ∈ run.head?, run = own.map (Token.shift first.start))
        ∧ bracketPairs [] own = some pairs := by
  obtain ⟨_, hall⟩ := induction_ofText (motive := fun _ reading => ∀ kept,
      .unsupported kept ∈ allAtAnyDepth reading.value → ∃ run behind own pairs,
        IsKeptRun source tokens run behind kept ∧ Token.scan kept = .ok own
          ∧ (∀ first ∈ run.head?, run = own.map (Token.shift first.start))
          ∧ bracketPairs [] own = some pairs) hscan h
    (fun _ _ hin => absurd hin List.not_mem_nil) (fun _ _ _ hrest => hrest)
    fun stream first others hstream hread hdeclared hrest kept hin => by
      refine (List.mem_append.mp hin).elim (fun hfirst => ?_) (hrest kept)
      cases hdeclared with
      | kept hwords hstatement =>
        obtain ⟨run, behind, own, pairs, _, -, rfl, hrun⟩ :=
          exists_isKeptRun hscan hstream hread hwords hstatement
        cases List.mem_singleton.mp hfirst
        exact ⟨run, behind, own, pairs, hrun⟩
      | plain _ _ hbody hplain =>
        exact absurd hfirst
          (not_mem_atAnyDepth_of_isPlain (makesPlain_of_mem _ hbody _ _ hplain) kept)
      | inside _ _ _ hinner => exact hinner kept hfirst
  exact hall

/-- Every statement that a file keeps as it is written, at any depth of namespaces, has a text that
is not empty and goes from its first token to its last, words in front of it included. By itself,
the text makes the same tokens. Every bracket among them that closes belongs to the most recent one
that opens and is not closed, and none is left open; but the two need not be of one kind, and the
tokens are balanced exactly if all of them are. -/
theorem Document.unsupported_run {source : String} {tokens : List Token} {document : Document}
    (hscan : Token.scan source = .ok tokens) (h : ofText source = .ok document) {kept : String}
    (hin : .unsupported kept ∈ allAtAnyDepth document.declarations) :
    ∃ run behind own pairs, IsKeptRun source tokens run behind kept ∧ Token.scan kept = .ok own
      ∧ (∀ first ∈ run.head?, run = own.map (Token.shift first.start))
      ∧ bracketPairs [] own = some pairs
      ∧ (Balanced own ↔ ∀ pair ∈ pairs, Encloses pair.1 pair.2) := by
  obtain ⟨run, behind, own, pairs, hrun, hown, hshift, hpairs⟩ :=
    exists_isKeptRun_of_unsupported hscan h kept hin
  refine ⟨run, behind, own, pairs, hrun, hown, hshift, hpairs, ?_⟩
  rw [balanced_iff, hpairs]
  exact ⟨fun ⟨_, hsame, hall⟩ => Option.some.inj hsame ▸ hall, fun hall => ⟨pairs, rfl, hall⟩⟩

/-- A square bracket closes a round one. -/
theorem Document.unsupported_run_mixed :
    ∃ tokens run behind own, Token.scan "namespace N \x7b export import ( ] ; \x7d" = .ok tokens
      ∧ IsKeptRun "namespace N \x7b export import ( ] ; \x7d" tokens run behind
        "export import ( ] ;"
      ∧ Token.scan "export import ( ] ;" = .ok own ∧ ¬ Balanced own := by
  have hscan : Token.scan "namespace N \x7b export import ( ] ; \x7d"
      = .ok [⟨.word .namespaceWord, 0, 9⟩, ⟨.name "N", 10, 11⟩, ⟨.mark .braceOpen, 12, 13⟩,
        ⟨.word .exportWord, 14, 20⟩, ⟨.word .importWord, 21, 27⟩, ⟨.mark .parenOpen, 28, 29⟩,
        ⟨.mark .bracketClose, 30, 31⟩, ⟨.mark .semicolon, 32, 33⟩,
        ⟨.mark .braceClose, 34, 35⟩] := by
    decide +kernel
  have hread : ofText "namespace N \x7b export import ( ] ; \x7d"
      = .ok ⟨[.namespace ["N"] [.unsupported "export import ( ] ;"]], []⟩ := by
    with_unfolding_all rfl
  have hown : Token.scan "export import ( ] ;"
      = .ok [⟨.word .exportWord, 0, 6⟩, ⟨.word .importWord, 7, 13⟩, ⟨.mark .parenOpen, 14, 15⟩,
        ⟨.mark .bracketClose, 16, 17⟩, ⟨.mark .semicolon, 18, 19⟩] := by decide +kernel
  obtain ⟨run, behind, own, pairs, hrun, hsame, -, hpairs, hbalanced⟩ :=
    unsupported_run hscan hread List.mem_cons_self
  cases hown.symm.trans hsame
  refine ⟨_, run, behind, _, hscan, hrun, hown, fun h => ?_⟩
  cases hpairs
  obtain ⟨m, close, hopening, hclosing, hkind⟩ := hbalanced.mp h _ List.mem_cons_self
  cases hopening
  cases hclosing
  cases hkind

end Facade
