import Facade.Proofs.Declaration.Printed.Kept
import Facade.Proofs.Declaration.Progress

/-!
# Where a file goes on with its declarations

The reader of declarations is called at certain places of a file only (`GoesOn`): at its start,
behind a semicolon between declarations, behind a declaration, and behind the brace that opens a
namespace. What it reads there is a statement that is kept as it is written, a plain declaration, or
a namespace around declarations of its own (`Declared`). So what holds of lists of declarations is
proved by going along them: `declarations_induction`.
-/

set_option autoImplicit false

namespace Facade

open Reader

/-! ### Places -/

/-- Places of a file where its declarations go on. -/
inductive GoesOn (text : List Char) (file : Stream) : Stream → Prop where
  | start : GoesOn text file file
  | semicolon {stream : Stream} : GoesOn text file stream →
      stream.next? = some (.mark .semicolon) → GoesOn text file stream.tail
  | behind {stream : Stream} {reading : Reading Declaration} : GoesOn text file stream →
      declaration text stream = .ok reading → GoesOn text file reading.rest
  | inside {stream : Stream} {head : Token} {tokens : List Token}
      {reading : Reading (List String)} :
      GoesOn text file stream → splitModifierWords stream.tokens = (false, head :: tokens) →
      head.lexeme ∈ [.word .moduleWord, .word .namespaceWord] →
      namespacePath ⟨tokens, stream.stop⟩ = .ok reading → GoesOn text file reading.rest

section

variable {text : List Char} {file stream : Stream}

/-- A declaration takes a token. -/
theorem takes_declaration (text : List Char) : Takes (declaration text) :=
  takes_of_takes fun _ => Simulation.takes_declaration (Simulation.verbatim_same text)

/-- The path of a namespace is read alike in every simulation. -/
theorem alike_namespacePath {S : Simulation} {n : Nat} : S.Alike n namespacePath namespacePath :=
  Simulation.alike_bind (Simulation.alike_separated rfl Simulation.takes_bindingName.alike) fun _ =>
    Simulation.alike_bind (Simulation.takes_expect rfl).alike fun _ => Simulation.alike_pure _

/-- Behind modifiers are the last of the tokens. -/
theorem suffix_of_words {tokens rest : List Token} {found : Bool}
    (hwords : splitModifierWords tokens = (found, rest)) : rest <:+ tokens := by
  have hleft := Simulation.suffix_splitModifierWords tokens
  rwa [hwords] at hleft

/-- What is left at such a place are the last tokens of the file. -/
theorem GoesOn.within (h : GoesOn text file stream) :
    stream.Within file.tokens ∧ stream.stop = file.stop := by
  induction h with
  | start => exact ⟨.inl List.suffix_rfl, rfl⟩
  | semicolon _ _ ih => exact ⟨ih.1.tail, ih.2⟩
  | @behind stream reading _ hread ih =>
    have halike : ∀ n, (Facade.within ⟨file.tokens, stream.stop⟩).Alike n (declaration text)
        (declaration text) := fun _ => (Simulation.takes_declaration (verbatim_within _ text)).alike
    have hrest := ensures_within halike ih.1 reading hread
    exact ⟨hrest.1, hrest.2.trans ih.2⟩
  | @inside stream head tokens reading _ hwords _ hread ih =>
    have hsuffix : tokens <:+ stream.tokens :=
      (List.suffix_cons head tokens).trans (suffix_of_words hwords)
    have hensures : namespacePath.Ensures ⟨tokens, stream.stop⟩ _ :=
      ensures_within (fun _ => alike_namespacePath) (ih.1.of_suffix hsuffix stream.stop)
    have hrest := hensures reading hread
    exact ⟨hrest.1, hrest.2.trans ih.2⟩

/-! ### Declarations -/

/-- What a declaration is read as: a statement that is kept, a plain declaration, or a namespace
with a list of declarations that something holds of. -/
inductive Declared (text : List Char) (holds : Stream → Reading (List Declaration) → Prop)
    (stream : Stream) : Reading Declaration → Prop where
  | kept {reading : Reading Declaration} : (splitModifierWords stream.tokens).1 = true →
      statement text stream.position { stream with tokens := (splitModifierWords stream.tokens).2 }
        = .ok reading → Declared text holds stream reading
  | plain {head : Token} {tokens : List Token} {word : Word} {body : Reader Declaration}
      {reading : Reading Declaration} : splitModifierWords stream.tokens = (false, head :: tokens) →
      head.lexeme = .word word → body ∈ plainBodies →
      body ⟨tokens, stream.stop⟩ = .ok reading → Declared text holds stream reading
  | inside {head : Token} {tokens : List Token} {path : Reading (List String)}
      {inner : Reading (List Declaration)} :
      splitModifierWords stream.tokens = (false, head :: tokens) →
      head.lexeme ∈ [.word .moduleWord, .word .namespaceWord] →
      namespacePath ⟨tokens, stream.stop⟩ = .ok path → holds path.rest inner →
      inner.rest.next? = some (.mark .braceClose) →
      Declared text holds stream
        ⟨.namespace path.value inner.value, path.lost ++ inner.lost, inner.rest.tail⟩

/-- The head of a namespace and its first word are in front of what it holds. -/
theorem size_namespacePath_lt {head : Token} {tokens : List Token} {path : Reading (List String)}
    (hwords : splitModifierWords stream.tokens = (false, head :: tokens))
    (hpath : namespacePath ⟨tokens, stream.stop⟩ = .ok path) : path.rest.size < stream.size := by
  have hle := bounded_of_alike (fun _ => alike_namespacePath) ⟨tokens, stream.stop⟩ path hpath
  exact Nat.lt_of_le_of_lt hle (suffix_of_words hwords).length_le

/-- A list of declarations, with a first one in front of it. -/
def Reading.cons (first : Reading Declaration) (others : Reading (List Declaration)) :
    Reading (List Declaration) :=
  ⟨first.value :: others.value, first.lost ++ others.lost, others.rest⟩

variable {motive : Stream → Reading (List Declaration) → Prop}

/-- A declaration is one of those, as long as something holds of all shorter lists. -/
theorem declared_of_declaration (hstream : GoesOn text file stream)
    (hlists : ∀ other, GoesOn text file other → other.size < stream.size → ∀ reading,
      declarations closesNamespace (declaration text) other = .ok reading → motive other reading)
    {reading : Reading Declaration} (hread : declaration text stream = .ok reading) :
    Declared text motive stream reading := by
  rw [declaration_eq, declarationOrStatement, bind_of_ok rfl] at hread
  obtain ⟨found, second, htake, hsecond, hreading⟩ := bind_eq_ok.mp hread
  cases htake
  have hsame : second = reading := by rw [hreading]; rfl
  subst hsame
  -- Behind the modifiers stands a statement that is kept as it is written, or something declared.
  cases hwords : (splitModifierWords stream.tokens).1 with
  | true =>
    dsimp only at hsecond
    rw [hwords, if_pos rfl] at hsecond
    exact .kept hwords hsecond
  | false =>
    dsimp only at hsecond
    rw [hwords, if_neg Bool.false_ne_true] at hsecond
    obtain ⟨word, hnext, hbody⟩ := declarationBody_cases hsecond
    cases hleft : (splitModifierWords stream.tokens).2 with
    | nil =>
      rw [hleft] at hnext
      cases hnext
    | cons head tokens =>
      have hsplit : splitModifierWords stream.tokens = (false, head :: tokens) := by
        rw [← hwords, ← hleft]
      rw [hleft] at hnext hbody
      have hhead : head.lexeme = .word word := Option.some.inj hnext
      rcases hbody with ⟨body, hbody, hplain⟩ | ⟨hword, hnamespace⟩
      · exact .plain hsplit hhead hbody hplain
      -- A namespace: its path, its braces, and between them a list that is shorter than the stream.
      · have hin : head.lexeme ∈ [Lexeme.word .moduleWord, .word .namespaceWord] := by
          rw [hhead]
          exact List.mem_map_of_mem hword
        rw [namespaceBody_eq] at hnamespace
        obtain ⟨path, _, hpath, hrest, rfl⟩ := bind_eq_ok.mp hnamespace
        obtain ⟨inner, _, hinner, hclose, rfl⟩ := bind_eq_ok.mp hrest
        obtain ⟨last, _, hlast, hpure, rfl⟩ := bind_eq_ok.mp hclose
        obtain ⟨hbrace, rfl⟩ := expect_eq_ok.mp hlast
        cases hpure
        rw [List.nil_append, List.append_nil]
        exact .inside hsplit hin hpath (hlists path.rest (.inside hstream hsplit hin hpath)
          (size_namespacePath_lt hsplit hpath) inner hinner) hbrace

/-- What holds of an empty list, and of a list if it holds of what is behind a semicolon or behind a
first declaration, holds of every list of declarations in the file. It ends where the test says
so. -/
theorem declarations_induction (nil : ∀ stream, motive stream ⟨[], [], stream⟩)
    (semicolon : ∀ stream reading, stream.next? = some (.mark .semicolon) →
      motive stream.tail reading → motive stream reading)
    (cons : ∀ stream first others, GoesOn text file stream → declaration text stream = .ok first →
      Declared text motive stream first → motive first.rest others →
        motive stream (.cons first others))
    (hstream : GoesOn text file stream) {stops : Option Lexeme → Bool}
    (hangle : ∀ lexeme : Lexeme, lexeme.isAngle = true → ¬ stops (some lexeme) = true)
    {reading : Reading (List Declaration)}
    (hread : declarations stops (declaration text) stream = .ok reading) :
    motive stream reading ∧ stops reading.rest.next? = true := by
  -- By the size of the stream, since the declarations in a namespace are a list of their own.
  induction hsize : stream.size using Nat.strongRecOn generalizing stream stops reading with
  | ind size ih =>
    subst hsize
    by_cases hstops : stops stream.next? = true
    · rw [declarations_nil hangle text hstops] at hread
      cases hread
      exact ⟨nil stream, hstops⟩
    have hgo := Bool.eq_false_iff.mpr hstops
    by_cases hsemicolon : stream.next? = some (.mark .semicolon)
    · rw [declarations_semicolon hangle text hgo hsemicolon] at hread
      exact (ih _ (Stream.size_tail_lt hsemicolon) (.semicolon hstream hsemicolon) hangle hread
        rfl).imp_left (semicolon stream reading hsemicolon)
    · rw [declarations_bind hangle text hgo hsemicolon] at hread
      obtain ⟨first, others, hfirst, hothers, rfl⟩ := bind_eq_ok.mp hread
      obtain ⟨rest, last, hrest, hlast, rfl⟩ := bind_eq_ok.mp hothers
      cases hlast
      rw [List.append_nil]
      have hdeclared := declared_of_declaration hstream (fun other hother hlt reading hread =>
        (ih _ hlt hother (fun _ => closesNamespace_of_isAngle) hread rfl).1) hfirst
      exact (ih _ (takes_declaration text stream first hfirst) (.behind hstream hfirst) hangle hrest
        rfl).imp_left (cons stream first rest hstream hfirst hdeclared)

/-- So it holds of the declarations of the file, and they are all of it. -/
theorem Document.induction_ofText {source : String} {tokens : List Token} {document : Document}
    (hscan : Token.scan source = .ok tokens) (h : ofText source = .ok document)
    (nil : ∀ stream, motive stream ⟨[], [], stream⟩)
    (semicolon : ∀ stream reading, stream.next? = some (.mark .semicolon) →
      motive stream.tail reading → motive stream reading)
    (cons : ∀ stream first others, GoesOn source.toList ⟨tokens, source.utf8ByteSize⟩ stream →
      declaration source.toList stream = .ok first → Declared source.toList motive stream first →
        motive first.rest others → motive stream (.cons first others)) :
    ∃ stop, motive ⟨tokens, source.utf8ByteSize⟩
      ⟨document.declarations, document.lost, ⟨[], stop⟩⟩ := by
  obtain ⟨scanned, reading, hscanned, hread, rfl⟩ := ofText_eq_ok.mp h
  cases hscan.symm.trans hscanned
  obtain ⟨hall, hnone⟩ :=
    declarations_induction nil semicolon cons .start (fun _ _ => Bool.false_ne_true) hread
  -- Nothing is left of the file.
  obtain ⟨value, lost, left, stop⟩ := reading
  rw [Stream.next?, Option.isNone_map, Option.isNone_iff_eq_none, List.head?_eq_none_iff] at hnone
  cases hnone
  exact ⟨stop, hall⟩

end

end Facade
