import Facade.Proofs.Declaration.Tallies
import Facade.Proofs.Declaration.Unsupported
import Facade.Proofs.Token.Tiling
import Mathlib.Algebra.GroupWithZero.Nat

/-!
# What becomes of dots

Three dots stand in front of a rest parameter, or they are in a statement that is kept as it is
written. Those of a parameter are kept as a rest type, or they are dropped with a remark. So the
dots of a file are as many as its rest types, its remarks and the dots of the statements together,
and no two remarks are about the same dots (`Document.ellipses_ofText`).

The type of a receiver is read over, and with it go the dots inside of it, so this is only true of
files without receivers (`HasReceiver`).
-/

set_option autoImplicit false

namespace Facade

open Reader

/-! ### Files with receivers -/

/-- In some plain declaration of the file, a list of parameters is read that has a receiver. -/
def HasReceiver (text : List Char) (file : Stream) : Prop :=
  ∃ stream reading, GoesOn text file stream ∧ declaration text stream = .ok reading
    ∧ reading.value.IsPlain ∧ Receives stream.tokens reading.rest.size

/-- A word that comes next is one of the tokens. -/
theorem Stream.Inside.exists_mem {all : List Token} {stream : Stream} (h : stream.Inside all)
    {word : Word} (hnext : stream.next? = some (.word word)) :
    ∃ token ∈ all, token.lexeme = .word word := by
  rcases h with hsuffix | ⟨mark, hmark, -⟩
  · obtain ⟨token, hhead, hlexeme⟩ := Option.map_eq_some_iff.mp hnext
    exact ⟨token, hsuffix.subset (List.mem_of_mem_head? hhead), hlexeme⟩
  · cases hnext.symm.trans hmark

/-- A receiver is called `this`. -/
theorem exists_this_of_receives {all : List Token} {last : Nat} (h : Receives all last) :
    ∃ token ∈ all, token.lexeme = .word .thisWord := by
  obtain ⟨place, list, hsuffix, -, hread, hnone⟩ := h
  have hitem : (parameterOrReceiver TypeExpr.reader).Finds all fun found =>
      found = none → ∃ token ∈ all, token.lexeme = .word .thisWord := by
    intro stream hs reading hread
    refine ⟨fun hvalue => ?_,
      (finds_parameterOrReceiver findsTypes_typeReader stream hs reading hread).2⟩
    rw [parameterOrReceiver, accept_bind] at hread
    split at hread
    · rename_i hnext
      exact hs.exists_mem hnext
    · obtain ⟨_, _, -, hpure, rfl⟩ := bind_eq_ok.mp hread
      cases hpure
      cases hvalue
  have hlist : (parameterList TypeExpr.reader).Finds all fun found =>
      ∀ parameter ∈ found, parameter = none → ∃ token ∈ all, token.lexeme = .word .thisWord :=
    finds_bind (finds_expect _) fun _ _ => finds_bind
      (finds_separatedUntil hitem (finds_accept _)) fun _ hfound =>
        finds_bind (finds_expect _) fun _ _ => finds_pure hfound
  exact (hlist place (.inl hsuffix) list hread).1 none hnone rfl

/-- A file without the word `this` has no receiver. -/
theorem not_hasReceiver {text : List Char} {file : Stream}
    (h : ∀ token ∈ file.tokens, token.lexeme ≠ .word .thisWord) : ¬ HasReceiver text file := by
  rintro ⟨stream, reading, hstream, -, -, hreceives⟩
  obtain ⟨token, hin, hthis⟩ := exists_this_of_receives hreceives
  refine h token ?_ hthis
  rcases hstream.within.1 with hsuffix | ⟨mark, start, stop, rest, htokens, hsuffix⟩
  · exact hsuffix.subset hin
  -- A part of a mark is no word.
  · rw [htokens, List.mem_cons] at hin
    rcases hin with rfl | hrest
    · cases hthis
    · exact hsuffix.subset hrest

/-! ### Dots of statements that are kept -/

/-- How many times there are dots in a text. -/
def ellipsesIn (text : String) : Nat :=
  match Token.scan text with
  | .ok tokens => tokens.countP Token.isEllipsis
  | .error _ => 0

/-- How many times there are dots in a declaration if it is a statement that is kept. By itself, its
text makes the tokens that it was made of. -/
def Declaration.keptEllipses : Declaration → Nat
  | .unsupported text => ellipsesIn text
  | _ => 0

/-- How many times there are dots in the statements that are kept among some declarations. -/
def keptEllipses (declarations : List Declaration) : Nat :=
  (declarations.map Declaration.keptEllipses).sum

/-- The dots in the statements of two lists are those of each. -/
theorem keptEllipses_append (first second : List Declaration) :
    keptEllipses (first ++ second) = keptEllipses first + keptEllipses second := by
  rw [keptEllipses, List.map_append, List.sum_append]
  rfl

/-- A plain declaration has no dots in a statement that is kept. -/
theorem keptEllipses_of_isPlain {value : Declaration} (h : value.IsPlain) :
    keptEllipses value.atAnyDepth = 0 := by
  cases value with
  | «namespace» | unsupported => cases h
  | _ => rfl

/-! ### Declarations -/

/-- Between two places of a file, the parameters of what is read account for the remarks, and for
all dots but those of statements that are kept. -/
structure Accounted (tokens : List Token) (stream rest : Stream) (lost : List LostRest)
    (nodes : List Node) (kept : List Nat) (placed : List PlacedParameter) : Prop where
  tally : Tally tokens (dotsOf stream.tokens) (kept ++ dotsOf rest.tokens) lost placed
  holds : Holds nodes placed

section

variable {tokens : List Token} {stream rest behind : Stream} {lost lost' : List LostRest}
  {nodes nodes' : List Node} {kept kept' : List Nat} {placed placed' : List PlacedParameter}

/-- Where nothing but the dots of statements is taken, there need not be any parameters. -/
theorem accounted_nil (h : kept ++ dotsOf rest.tokens = dotsOf stream.tokens) :
    Accounted tokens stream rest [] [] kept [] :=
  ⟨tally_nil h, holds_nil⟩

/-- Two parts of a file that are accounted for are so together. -/
theorem Accounted.append (h : Accounted tokens stream rest lost nodes kept placed)
    (h' : Accounted tokens rest behind lost' nodes' kept' placed') :
    Accounted tokens stream behind (lost ++ lost') (nodes ++ nodes') (kept ++ kept')
      (placed ++ placed') where
  tally := by
    rw [List.append_assoc]
    exact h.tally.append (h'.tally.behind kept)
  holds := h.holds.append h'.holds

end

/-- There are no dots among modifiers. -/
theorem dotsOf_splitModifierWords (tokens : List Token) :
    dotsOf (splitModifierWords tokens).2 = dotsOf tokens := by
  fun_induction splitModifierWords tokens with
  | case3 token rest _ hmodifier ih =>
    rw [ih, dotsOf_cons]
    rintro heq
    rw [heq] at hmodifier
    cases hmodifier
  | _ => rfl

/-- Neither the words in front of a declaration nor its first word are dots. -/
theorem dotsOf_behind_words {tokens behind : List Token} {head : Token} {found : Bool}
    (hwords : splitModifierWords tokens = (found, head :: behind))
    (hhead : head.lexeme ≠ .mark .ellipsis) : dotsOf behind = dotsOf tokens := by
  rw [← dotsOf_splitModifierWords tokens, hwords, dotsOf_cons hhead]

/-- The path of a namespace is read without dots and without remarks. -/
theorem silent_namespacePath {all : List Token} : namespacePath.Silent all :=
  silent_bind (silent_separated silent_bindingName nofun) fun _ =>
    silent_bind (silent_expect nofun) fun _ => silent_pure _

/-- A plain declaration starts with a word, so what is left are tokens of the file as they are. -/
theorem suffix_of_word {all : List Token} {stream : Stream} (h : stream.Within all) {head : Token}
    {behind : List Token} (hwords : splitModifierWords stream.tokens = (false, head :: behind))
    {word : Word} (hhead : head.lexeme = .word word) : stream.tokens <:+ all := by
  rcases h with h | ⟨mark, start, stop, rest, htokens, -⟩
  · exact h
  · rw [htokens] at hwords
    cases hwords
    cases hhead

section

variable {source : String} {tokens : List Token} {stream : Stream} {first : Reading Declaration}

/-- A statement that is kept has dots of its own only. -/
theorem accounted_kept (hscan : Token.scan source = .ok tokens)
    (hstream : GoesOn source.toList ⟨tokens, source.utf8ByteSize⟩ stream)
    (hread : declaration source.toList stream = .ok first)
    (hwords : (splitModifierWords stream.tokens).1 = true)
    (hstatement : statement source.toList stream.position
      { stream with tokens := (splitModifierWords stream.tokens).2 } = .ok first) :
    ∃ placed kept, kept.length = keptEllipses first.value.atAnyDepth
      ∧ Accounted tokens stream first.rest first.lost first.value.nodes kept placed := by
  obtain ⟨run, behind, own, pairs, text, htokens, rfl, hrun, hown, hshift, -⟩ :=
    exists_isKeptRun hscan hstream hread hwords hstatement
  refine ⟨[], dotsOf run, ?_, accounted_nil ?_⟩
  -- The tokens of the text by itself are those of the run, moved to the front.
  · obtain ⟨start, _, hstart, -⟩ := hrun.text
    have hellipses : ellipsesIn text = own.countP Token.isEllipsis := by rw [ellipsesIn, hown]
    have hmoved : Token.isEllipsis ∘ Token.shift start.start = Token.isEllipsis := rfl
    rw [length_dotsOf, hshift start hstart, List.countP_map, hmoved]
    exact hellipses.symm
  · rw [htokens, dotsOf_append]

/-- A plain declaration has the dots of its parameters only. -/
theorem accounted_plain {head : Token} {behind : List Token} {word : Word}
    {body : Reader Declaration}
    (hreceiver : ¬ HasReceiver source.toList ⟨tokens, source.utf8ByteSize⟩)
    (hstream : GoesOn source.toList ⟨tokens, source.utf8ByteSize⟩ stream)
    (hread : declaration source.toList stream = .ok first)
    (hwords : splitModifierWords stream.tokens = (false, head :: behind))
    (hhead : head.lexeme = .word word) (hbody : body ∈ plainBodies)
    (hplain : body ⟨behind, stream.stop⟩ = .ok first) :
    ∃ placed kept, kept.length = keptEllipses first.value.atAnyDepth
      ∧ Accounted tokens stream first.rest first.lost first.value.nodes kept placed := by
  have hvalue : first.value.IsPlain := makesPlain_of_mem body hbody _ first hplain
  have hinside : Stream.Inside stream.tokens ⟨behind, stream.stop⟩ :=
    .inl ((List.suffix_cons head behind).trans (suffix_of_words hwords))
  obtain ⟨-, -, hplaced⟩ := tallies_of_mem_plainBodies body hbody _ hinside first hplain
  obtain ⟨placed, htally, hholds⟩ := hplaced fun hreceives =>
    hreceiver ⟨stream, first, hstream, hread, hvalue, hreceives⟩
  refine ⟨placed, [], (keptEllipses_of_isPlain hvalue).symm,
    ⟨fun parameter hin => ?_, htally.lost, ?_⟩, hholds⟩
  · obtain ⟨hplace, hwritten⟩ := htally.isIn parameter hin
    exact ⟨hplace.trans (suffix_of_word hstream.within.1 hwords hhead), hwritten⟩
  · rw [← dotsOf_behind_words hwords (by rw [hhead]; nofun)]
    exact htally.perm

/-- A namespace has the dots of the declarations inside of it only. -/
theorem accounted_inside {head : Token} {behind : List Token} {path : Reading (List String)}
    {inner : Reading (List Declaration)} {nodes : List Node} {kept : List Nat}
    {placed : List PlacedParameter}
    (hwords : splitModifierWords stream.tokens = (false, head :: behind))
    (hhead : head.lexeme ∈ [.word .moduleWord, .word .namespaceWord])
    (hpath : namespacePath ⟨behind, stream.stop⟩ = .ok path)
    (hinner : Accounted tokens path.rest inner.rest inner.lost nodes kept placed)
    (hbrace : inner.rest.next? = some (.mark .braceClose)) :
    Accounted tokens stream inner.rest.tail (path.lost ++ inner.lost) nodes kept placed := by
  have hin : Stream.Inside behind ⟨behind, stream.stop⟩ := .inl List.suffix_rfl
  obtain ⟨-, -, hlost, hdots⟩ := silent_namespacePath _ hin path hpath
  have hne : head.lexeme ≠ .mark .ellipsis := by
    intro heq
    rw [heq] at hhead
    revert hhead
    decide
  have hfront : dotsOf path.rest.tokens = dotsOf stream.tokens :=
    hdots.trans (dotsOf_behind_words hwords hne)
  have hbehind : dotsOf inner.rest.tail.tokens = dotsOf inner.rest.tokens :=
    dotsOf_tail hbrace (by decide)
  rw [hlost, List.nil_append]
  refine ⟨?_, hinner.holds⟩
  rw [hbehind, ← hfront]
  exact hinner.tally

/-- Some parameters account for a list of declarations and for the dots in front of it. -/
def IsAccounted (tokens : List Token) (stream : Stream) (reading : Reading (List Declaration)) :
    Prop :=
  ∃ placed kept, kept.length = keptEllipses (allAtAnyDepth reading.value)
    ∧ Accounted tokens stream reading.rest reading.lost (declarationNodes reading.value) kept placed

/-- A semicolon in front of declarations that are accounted for has no dots. -/
theorem IsAccounted.semicolon {reading : Reading (List Declaration)}
    (hnext : stream.next? = some (.mark .semicolon)) (h : IsAccounted tokens stream.tail reading) :
    IsAccounted tokens stream reading := by
  obtain ⟨placed, kept, hkept, haccounted⟩ := h
  have hfront : Accounted tokens stream stream.tail [] [] [] [] :=
    accounted_nil (dotsOf_tail hnext (by decide))
  exact ⟨placed, kept, hkept, hfront.append haccounted⟩

/-- A declaration that is accounted for may come in front of others that are. -/
theorem IsAccounted.cons {others : Reading (List Declaration)}
    (hscan : Token.scan source = .ok tokens)
    (hreceiver : ¬ HasReceiver source.toList ⟨tokens, source.utf8ByteSize⟩)
    (hstream : GoesOn source.toList ⟨tokens, source.utf8ByteSize⟩ stream)
    (hread : declaration source.toList stream = .ok first)
    (hdeclared : Declared source.toList (IsAccounted tokens) stream first)
    (h : IsAccounted tokens first.rest others) :
    IsAccounted tokens stream (.cons first others) := by
  have hfirst : ∃ placed kept, kept.length = keptEllipses first.value.atAnyDepth
      ∧ Accounted tokens stream first.rest first.lost first.value.nodes kept placed := by
    cases hdeclared with
    | kept hwords hstatement => exact accounted_kept hscan hstream hread hwords hstatement
    | plain hwords hhead hbody hplain =>
      exact accounted_plain hreceiver hstream hread hwords hhead hbody hplain
    | inside hwords hhead hpath hinner hbrace =>
      obtain ⟨placed, kept, hkept, haccounted⟩ := hinner
      exact ⟨placed, kept, hkept, accounted_inside hwords hhead hpath haccounted hbrace⟩
  obtain ⟨placed, kept, hkept, haccounted⟩ := hfirst
  obtain ⟨placed', kept', hkept', haccounted'⟩ := h
  refine ⟨placed ++ placed', kept ++ kept', ?_, haccounted.append haccounted'⟩
  rw [List.length_append, hkept, hkept', ← keptEllipses_append]
  rfl

/-- The parameters of a file without receivers account for all of its dots. -/
theorem Document.isAccounted_ofText {document : Document} (hscan : Token.scan source = .ok tokens)
    (h : ofText source = .ok document)
    (hreceiver : ¬ HasReceiver source.toList ⟨tokens, source.utf8ByteSize⟩) :
    ∃ stop, IsAccounted tokens ⟨tokens, source.utf8ByteSize⟩
      ⟨document.declarations, document.lost, ⟨[], stop⟩⟩ :=
  induction_ofText hscan h (fun _ => ⟨[], [], rfl, accounted_nil rfl⟩)
    (fun _ _ hnext hrest => hrest.semicolon hnext)
    fun _ _ _ hstream hread hdeclared hrest => .cons hscan hreceiver hstream hread hdeclared hrest

end

/-! ### Documents -/

/-- No two tokens of a text start at the same place. -/
theorem nodup_dotsOf {source : String} {tokens : List Token}
    (hscan : Token.scan source = .ok tokens) : (dotsOf tokens).Nodup := by
  have htiles : Cursor.Tiles (Text.byteLength []) source.toList tokens :=
    Cursor.tiles_of_tokens hscan
  have hlonger : ∀ token ∈ tokens, token.start < token.stop := by
    intro token hin
    obtain ⟨before, body, behind, -, htoken, hbody⟩ := htiles.parts token hin
    have hpos := Text.byteLength_pos hbody.lexes.nonempty
    rw [htoken]
    exact Nat.lt_add_of_pos_right hpos
  have hordered : tokens.Pairwise fun token later => token.start ≠ later.start :=
    htiles.ordered.2.imp_of_mem fun hin _ hle =>
      Nat.ne_of_lt (Nat.lt_of_lt_of_le (hlonger _ hin) hle)
  exact List.pairwise_map.mpr (hordered.filter _)

namespace PlacedParameter

/-- A parameter has no dots, or they are kept, or they are lost. -/
theorem dots?_cases (parameter : PlacedParameter) :
    (parameter.dots? = none ∧ parameter.lost? = none ∧ parameter.written.isRepeated = false)
      ∨ (parameter.dots? = some parameter.place.position ∧ parameter.lost? = none
          ∧ parameter.written.isRepeated = true)
      ∨ (parameter.dots? = some parameter.place.position ∧ parameter.lost? = some parameter.lost
          ∧ parameter.written.isRepeated = false) := by
  rw [dots?, lost?, WrittenParameter.isRepeated, WrittenParameter.isLost]
  cases parameter.written.hasDots with
  | false => exact .inl ⟨rfl, rfl, rfl⟩
  | true =>
    cases parameter.written.type.bind TypeExpr.arrayElement? with
    | some element => exact .inr (.inl ⟨rfl, rfl, rfl⟩)
    | none => exact .inr (.inr ⟨rfl, rfl, rfl⟩)

/-- Every remark is about some dots. -/
theorem map_position_sublist (placed : List PlacedParameter) :
    ((placed.filterMap lost?).map LostRest.position).Sublist (placed.filterMap dots?) := by
  induction placed with
  | nil => exact .slnil
  | cons parameter rest ih =>
    rw [List.filterMap_cons, List.filterMap_cons]
    obtain ⟨hdots, hlost, -⟩ | ⟨hdots, hlost, -⟩ | ⟨hdots, hlost, -⟩ := parameter.dots?_cases <;>
      rw [hdots, hlost]
    · exact ih
    · exact ih.cons _
    · exact ih.cons_cons _

/-- All dots are kept or lost. -/
theorem length_dots (placed : List PlacedParameter) : (placed.filterMap dots?).length
    = (placed.countP fun parameter => parameter.written.isRepeated)
      + (placed.filterMap lost?).length := by
  induction placed with
  | nil => rfl
  | cons parameter rest ih =>
    rw [List.filterMap_cons, List.filterMap_cons, List.countP_cons]
    obtain ⟨hdots, hlost, hkept⟩ | ⟨hdots, hlost, hkept⟩ | ⟨hdots, hlost, hkept⟩ :=
      parameter.dots?_cases <;> rw [hdots, hlost, hkept]
    · exact ih
    · simp only [List.length_cons, if_true]
      omega
    · simp only [List.length_cons, Bool.false_eq_true, if_false]
      omega

/-- The remarks are about the parameters that lose their dots, one about each. -/
theorem filterMap_lost? (placed : List PlacedParameter) : placed.filterMap lost?
    = (placed.filter fun parameter => parameter.written.isLost).map lost := by
  induction placed with
  | nil => rfl
  | cons parameter rest ih =>
    rw [List.filterMap_cons, List.filter_cons, lost?, ih]
    cases parameter.written.isLost <;> rfl

/-- The place of a parameter with dots is where they stand. -/
theorem IsIn.next? {all : List Token} {parameter : PlacedParameter} (h : parameter.IsIn all)
    (hdots : parameter.written.hasDots = true) :
    parameter.place.next? = some (.mark .ellipsis) := by
  obtain ⟨-, reading, hread, hwritten⟩ := h
  rw [writtenParameter_eq, accept_bind] at hread
  split at hread
  · assumption
  · obtain ⟨_, _, -, hname, rfl⟩ := bind_eq_ok.mp hread
    obtain ⟨_, _, -, hoptional, rfl⟩ := bind_eq_ok.mp hname
    obtain ⟨_, _, -, htype, rfl⟩ := bind_eq_ok.mp hoptional
    cases htype
    rw [← hwritten] at hdots
    cases hdots

end PlacedParameter

/-- Of a file without receivers, the dots outside of the statements that are kept are as many as the
rest types and the remarks together. No two remarks are about the same dots. Each remark is about a
parameter of its own, where dots stand, and of that the name, the question mark and the type are
kept as they are written. -/
theorem Document.ellipses_ofText {source : String} {tokens : List Token} {document : Document}
    (hscan : Token.scan source = .ok tokens) (h : ofText source = .ok document)
    (hreceiver : ¬ HasReceiver source.toList ⟨tokens, source.utf8ByteSize⟩) :
    tokens.countP Token.isEllipsis = document.nodes.countP Node.isRepeated + document.lost.length
        + keptEllipses (allAtAnyDepth document.declarations)
      ∧ (document.lost.map LostRest.position).Nodup
      ∧ ∃ placed : List PlacedParameter, document.lost = placed.map PlacedParameter.lost
        ∧ (∀ parameter ∈ placed, parameter.IsIn tokens
            ∧ parameter.place.next? = some (.mark .ellipsis)
            ∧ parameter.kept
              = ⟨parameter.written.name, parameter.written.optional, parameter.written.type⟩)
        ∧ (placed.map PlacedParameter.kept).Sublist (document.nodes.filterMap Node.parameter?) := by
  obtain ⟨stop, placed, kept, hkept, haccounted⟩ := isAccounted_ofText hscan h hreceiver
  have hlost : document.lost = placed.filterMap PlacedParameter.lost? := haccounted.tally.lost
  have hdots : (dotsOf tokens).Perm (placed.filterMap PlacedParameter.dots? ++ (kept ++ [])) :=
    haccounted.tally.perm
  rw [List.append_nil] at hdots
  refine ⟨?_, ?_, placed.filter fun parameter => parameter.written.isLost, ?_, ?_, ?_⟩
  -- Dots are in a statement that is kept, or of a parameter that keeps or loses them.
  · have hrepeated : document.nodes.countP Node.isRepeated = _ := haccounted.holds.repeated
    rw [← length_dotsOf, hdots.length_eq, List.length_append, hkept,
      PlacedParameter.length_dots, hrepeated, hlost]
  -- The remarks are at some of the dots of the parameters, and those are all different.
  · have hnodup := (hdots.nodup_iff.mp (nodup_dotsOf hscan)).sublist (List.sublist_append_left _ _)
    rw [hlost]
    exact hnodup.sublist (PlacedParameter.map_position_sublist placed)
  · rw [hlost, PlacedParameter.filterMap_lost?]
  · intro parameter hin
    obtain ⟨hplaced, hislost⟩ := List.mem_filter.mp hin
    have hin := haccounted.tally.isIn parameter hplaced
    exact ⟨hin, hin.next? (Bool.and_eq_true_iff.mp hislost).1,
      WrittenParameter.kept_of_isLost hislost⟩
  · have hparameters : document.nodes.filterMap Node.parameter? = _ := haccounted.holds.parameters
    rw [hparameters]
    exact List.filter_sublist.map _

/-- Dots that are kept, dots that are lost in the type of another parameter, and dots of a statement
that is kept as it is written. -/
theorem Document.ellipses_ofText_each : ∃ tokens document,
    Token.scan "type F = (...a: A[], g: (...b: B) => C) => D; import h(...d);" = .ok tokens
      ∧ ofText "type F = (...a: A[], g: (...b: B) => C) => D; import h(...d);" = .ok document
      ∧ document.lost.map LostRest.position = [25]
      ∧ tokens.countP Token.isEllipsis = document.nodes.countP Node.isRepeated
        + document.lost.length + keptEllipses (allAtAnyDepth document.declarations) := by
  have hscan : Token.scan "type F = (...a: A[], g: (...b: B) => C) => D; import h(...d);"
      = .ok [⟨.word .typeWord, 0, 4⟩, ⟨.name "F", 5, 6⟩, ⟨.mark .assign, 7, 8⟩,
        ⟨.mark .parenOpen, 9, 10⟩, ⟨.mark .ellipsis, 10, 13⟩, ⟨.name "a", 13, 14⟩,
        ⟨.mark .colon, 14, 15⟩, ⟨.name "A", 16, 17⟩, ⟨.mark .bracketOpen, 17, 18⟩,
        ⟨.mark .bracketClose, 18, 19⟩, ⟨.mark .comma, 19, 20⟩, ⟨.name "g", 21, 22⟩,
        ⟨.mark .colon, 22, 23⟩, ⟨.mark .parenOpen, 24, 25⟩, ⟨.mark .ellipsis, 25, 28⟩,
        ⟨.name "b", 28, 29⟩, ⟨.mark .colon, 29, 30⟩, ⟨.name "B", 31, 32⟩,
        ⟨.mark .parenClose, 32, 33⟩, ⟨.mark .arrow, 34, 36⟩, ⟨.name "C", 37, 38⟩,
        ⟨.mark .parenClose, 38, 39⟩, ⟨.mark .arrow, 40, 42⟩, ⟨.name "D", 43, 44⟩,
        ⟨.mark .semicolon, 44, 45⟩, ⟨.word .importWord, 46, 52⟩, ⟨.name "h", 53, 54⟩,
        ⟨.mark .parenOpen, 54, 55⟩, ⟨.mark .ellipsis, 55, 58⟩, ⟨.name "d", 58, 59⟩,
        ⟨.mark .parenClose, 59, 60⟩, ⟨.mark .semicolon, 60, 61⟩] := by decide +kernel
  have hread : ofText "type F = (...a: A[], g: (...b: B) => C) => D; import h(...d);"
      = .ok ⟨[.alias "F" [] (.function ⟨[], [⟨"a", false, some (.repeated (.named ["A"] []))⟩,
          ⟨"g", false, some (.function ⟨[], [⟨"b", false, some (.named ["B"] [])⟩],
            some (.named ["C"] [])⟩)⟩], some (.named ["D"] [])⟩), .unsupported "import h(...d);"],
        [⟨"b", some (.named ["B"] []), 25⟩]⟩ := by with_unfolding_all rfl
  exact ⟨_, _, hscan, hread, rfl, (ellipses_ofText hscan hread (not_hasReceiver (by decide))).1⟩

end Facade
