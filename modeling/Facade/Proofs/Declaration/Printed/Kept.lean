import Facade.Proofs.Declaration.Walks
import Facade.Proofs.Token.Writes

/-!
# Statements that are kept as they are written stand for themselves

The text of a statement that is kept as it is written is cut out of a file. By itself, or in
another place, it makes the same tokens, and they are taken as the same statement, as long as what
comes behind lets it end there (`KeptBefore`). That depends on how the statement ends. Behind its
own semicolon or closing brace it may stand anywhere but in front of a semicolon. A statement that
nothing ends but the end of its surroundings comes last in a file or a namespace
(`Declaration.Kept`).

To cut a text out of a file, the tokens that are left have to be the last tokens of the file
(`Stream.Within`); after a part of a longer mark has been taken, this holds behind the rest of the
mark.
-/

set_option autoImplicit false

namespace Facade

open Facade.Text (byteLength slice)
open Reader

/-! ### Texts that are kept -/

/-- The tokens of a text are the same wherever it stands, and they are read as one statement, in
front of anything that may follow. -/
structure IsKept (text : String) (lexemes : List Lexeme) (follow : Option Lexeme → Prop) :
    Prop where
  starts : ∃ word rest, lexemes = .word word :: rest
  spelled : ∀ behind n, Stops behind → ∃ first rest, (first :: rest).map Token.lexeme = lexemes
    ∧ first.start = n ∧ (∀ stop, lastStop stop (first :: rest) = n + byteLength text.toList)
    ∧ Tokenizes text.toList behind n (first :: rest)
  found : ∀ tokens rest, tokens.map Token.lexeme = lexemes → follow (front? rest) →
    ∃ statement, splitModifierWords (tokens ++ rest) = (true, statement)
      ∧ ∀ stop, splitStatement 0 stop statement = .done (lastStop stop tokens) rest

/-- A text that is kept as it is written in front of anything that may follow. -/
def KeptBefore (text : String) (follow : Option Lexeme → Prop) : Prop :=
  ∃ lexemes, IsKept text lexemes follow

/-- A text that is kept in front of some tokens is kept in front of some of these. -/
theorem KeptBefore.mono {text : String} {follow follow' : Option Lexeme → Prop}
    (h : KeptBefore text follow) (hfollow : ∀ next, follow' next → follow next) :
    KeptBefore text follow' := by
  obtain ⟨lexemes, hstarts, hspelled, hfound⟩ := h
  exact ⟨lexemes, hstarts, hspelled, fun tokens rest htokens hrest =>
    hfound tokens rest htokens (hfollow _ hrest)⟩

/-- What closes something is no semicolon. -/
theorem IsClose.noSemicolon {next : Option Lexeme} (h : IsClose next) : NoSemicolon next := by
  rcases h with rfl | rfl
  · exact fun heq => by cases heq
  · exact fun heq => by cases heq

/-! ### Places -/

/-- Tokens in two parts end where the second part does. -/
theorem lastStop_append (stop : Nat) (front : List Token) {tokens : List Token} (h : tokens ≠ []) :
    lastStop stop (front ++ tokens) = lastStop stop tokens := by
  rw [lastStop, List.getLast?_append_of_ne_nil front h, lastStop]

/-- The last of some tokens tells where they end. -/
theorem lastStop_eq {tokens : List Token} (hne : tokens ≠ []) {stop : Nat}
    (h : ∀ last ∈ tokens.getLast?, last.stop = stop) (start : Nat) :
    lastStop start tokens = stop := by
  have hlast := List.getLast?_eq_getLast_of_ne_nil hne
  rw [lastStop, hlast, Option.map_some, Option.getD_some, h _ hlast]

/-- To split marks moves no end. -/
theorem lastStop_singles (stop : Nat) (tokens : List Token) :
    lastStop stop (singles tokens) = lastStop stop tokens := by
  rcases tokens.eq_nil_or_concat with rfl | ⟨front, last, rfl⟩
  · rfl
  · have hlast : lastStop stop last.singles = last.stop := by
      obtain ⟨lexeme, start, behind⟩ := last
      cases lexeme with
      | mark mark => cases mark <;> rfl
      | _ => rfl
    have hne : last.singles ≠ [] := List.ne_nil_of_length_pos last.length_singles_pos
    rw [List.concat_eq_append, singles_append, lastStop_append stop _ (List.cons_ne_nil last [])]
    rw [singles_cons, singles_nil, List.append_nil, lastStop_append stop _ hne, hlast]
    rfl

/-- To move tokens changes none of their lexemes, split or not. -/
theorem lexeme_singles_shift (bytes : Nat) (tokens : List Token) :
    (singles (tokens.map (Token.shift bytes))).map Token.lexeme
      = (singles tokens).map Token.lexeme := by
  induction tokens with
  | nil => rfl
  | cons token rest ih =>
    have htoken : (Token.shift bytes token).singles.map Token.lexeme
        = token.singles.map Token.lexeme := by
      obtain ⟨lexeme, start, stop⟩ := token
      cases lexeme with
      | mark mark => cases mark <;> rfl
      | _ => rfl
    rw [List.map_cons, singles_cons, singles_cons, List.map_append, List.map_append, htoken, ih]

/-- What closes is no angle bracket, so it is the same one by one. -/
theorem isClose_of_singles {tokens : List Token} (h : IsClose (front? (singles tokens))) :
    IsClose (front? tokens) := by
  have hfirst : front? (singles tokens) = _ := Stream.head?_singles ⟨tokens, 0⟩
  cases hangle : Stream.startsAngle ⟨tokens, 0⟩ with
  | false =>
    rw [hangle, if_neg Bool.false_ne_true] at hfirst
    rw [hfirst] at h
    exact h
  | true =>
    rw [hangle, if_pos rfl] at hfirst
    rw [hfirst] at h
    rcases h with h | h <;> cases h

/-! ### Statements of a file -/

variable {text : List Char} {before tokens statement rest : List Token} {position stop : Nat}

/-- The characters of some tokens of a text, from the first to the last. -/
theorem exists_spells {first : Token}
    (hscan : Cursor.tokens ⟨text, 0⟩ = .ok (before ++ (first :: tokens ++ rest))) :
    ∃ front taken behind base, text = front ++ (taken ++ behind) ∧ first.start = byteLength front
      ∧ (∀ last ∈ (first :: tokens).getLast?, last.stop = byteLength front + byteLength taken)
      ∧ first :: tokens = base.map (Token.shift first.start) ∧ Cursor.Spells taken behind base := by
  obtain ⟨between, hbefore, hrest⟩ := Cursor.scans_of_tokens hscan
  obtain ⟨after, hscans, -⟩ := Cursor.scans_of_tokens hrest
  obtain ⟨skipped, -, hskipped, hoffset, -, -⟩ := hbefore.spells
  obtain ⟨blank, taken, base, htaken, hstart, hstop, hbase, hspells⟩ := hscans.spells_body
  have hfront : first.start = byteLength (skipped ++ blank) := by
    rw [hstart, hoffset, Text.byteLength_append, Nat.zero_add]
  refine ⟨skipped ++ blank, taken, after.rest, base, ?_, hfront, fun last hlast => ?_, hbase,
    hspells⟩
  · rw [List.append_assoc, ← htaken]
    exact hskipped
  · rw [hscans.stop_getLast last hlast, hstop, hfront]

/-- The last of some tokens end where all of them do. -/
theorem lastStop_suffix {left : List Token} (h : left <:+ tokens) (hne : left ≠ []) (stop : Nat) :
    lastStop stop left = lastStop stop tokens := by
  obtain ⟨front, rfl⟩ := h
  exact (lastStop_append stop front hne).symm

/-- The text of some tokens of a file is spelled like that wherever it stands. -/
theorem spelled_of_spells {first : Token} {taken behind : List Char} {base : List Token}
    (hbase : first :: tokens = base.map (Token.shift first.start))
    (hspells : Cursor.Spells taken behind base) (new : List Char) (n : Nat) (hnew : Stops new) :
    ∃ first' rest', (first' :: rest').map Token.lexeme
      = (singles (first :: tokens)).map Token.lexeme
      ∧ first'.start = n ∧ (∀ stop, lastStop stop (first' :: rest') = n + byteLength taken)
      ∧ Tokenizes taken new n (first' :: rest') := by
  obtain ⟨one, others, rfl, hone, hothers⟩ := List.map_eq_cons_iff.mp hbase.symm
  -- The tokens have been moved back by the place of the first, which therefore starts at zero.
  have hzero : one.start = 0 := by
    have hstart := congrArg Token.start hone
    simp only [Token.shift] at hstart
    omega
  obtain ⟨first', more, hsingles, hstart, -⟩ := (Token.shift n one).exists_singles_eq_cons
  have htokens : singles ((one :: others).map (Token.shift n))
      = first' :: (more ++ singles (others.map (Token.shift n))) := by
    rw [List.map_cons, singles_cons, hsingles, List.cons_append]
  have hscans := hspells new n (.intro [] behind hnew)
  refine ⟨first', more ++ singles (others.map (Token.shift n)), ?_, ?_, fun stop => ?_, ?_⟩
  · rw [← htokens, lexeme_singles_shift, hbase, lexeme_singles_shift]
  · rw [hstart, Token.shift, hzero, Nat.zero_add]
  · rw [← htokens, lastStop_singles]
    exact lastStop_eq (List.cons_ne_nil (Token.shift n one) _) hscans.stop_getLast stop
  · rw [← htokens, Tokenizes, Cursor.singly, Cursor.singly, hscans.tokens_eq]
    cases Cursor.tokens ⟨new, n + byteLength taken⟩ with
    | error error => rfl
    | ok all => exact congrArg Except.ok (singles_append _ _)

/-- A statement starts with a word. -/
theorem exists_word_of_splitModifierWords {token : Token} {words : List Token}
    (h : splitModifierWords (token :: tokens) = (true, words)) :
    ∃ word, token.lexeme = .word word := by
  obtain ⟨lexeme, start, stop⟩ := token
  cases lexeme with
  | word word => exact ⟨word, rfl⟩
  | _ => cases h

/-- The text of a statement that is cut out of a file stands for itself. Either it ends by itself,
or something ends it that closes what it stands in. -/
theorem keptBefore_of_splitStatement {first : Token}
    (hscan : Cursor.tokens ⟨text, 0⟩ = .ok (before ++ (first :: tokens ++ rest)))
    (hwords : splitModifierWords (first :: tokens ++ rest) = (true, statement ++ rest))
    (hsplit : splitStatement 0 first.start (statement ++ rest) = .done stop rest) :
    KeptBefore (String.ofList (slice text first.start stop)) NoSemicolon
      ∨ IsClose (front? rest)
        ∧ KeptBefore (String.ofList (slice text first.start stop)) IsClose := by
  obtain ⟨front, taken, behind, base, rfl, hstart, hlast, hbase, hspells⟩ := exists_spells hscan
  have hstarts : startsStatement statement = true := by
    have hall := Simulation.startsStatement_splitModifierWords (congrArg Prod.fst hwords)
    rw [hwords] at hall
    exact startsStatement_of_splitStatement hall hsplit
  have hne : statement ≠ [] := by
    rintro rfl
    cases hstarts
  -- The same statement, one by one.
  have hwords' : splitModifierWords (singles (first :: tokens) ++ singles rest)
      = (true, singles statement ++ singles rest) := by
    rw [← singles_append, splitModifierWords_singles, hwords, singles_append]
  have hsplit' : splitStatement 0 first.start (singles statement ++ singles rest)
      = .done stop (singles rest) := by
    rw [← singles_append, splitStatement_singles, hsplit]
    rfl
  have hstarts' : startsStatement (singles statement) = true := by
    have hstreams : singly.streams ⟨singles statement, 0⟩ ⟨statement, 0⟩ := ⟨singles_singles _, rfl⟩
    exact (Simulation.startsStatement_eq hstreams).trans hstarts
  -- The statement stops where its last token does, whatever words are taken off in front of it.
  have hstop : stop = byteLength front + byteLength taken := by
    obtain ⟨left, hsuffix, -, hleft⟩ := splitModifierWords_again hwords hstarts rfl rest
    cases List.append_cancel_right (Prod.mk.inj (hleft.symm.trans hwords)).2
    rw [(walks_of_splitStatement hsplit).1, lastStop_suffix hsuffix hne]
    exact lastStop_eq (List.cons_ne_nil first tokens) hlast first.start
  rw [hstop, hstart, Text.slice_middle]
  have hkept : ∀ {follow : Option Lexeme → Prop},
      Walks 0 ((singles statement).map Token.lexeme) follow →
      KeptBefore (String.ofList taken) follow := by
    intro follow hwalks
    refine ⟨(singles (first :: tokens)).map Token.lexeme, ?_, fun new n hnew => ?_,
      fun again more hagain hmore => ?_⟩
    · obtain ⟨word, hword⟩ := exists_word_of_splitModifierWords hwords
      refine ⟨word, (singles tokens).map Token.lexeme, ?_⟩
      rw [singles_cons, Token.singles_of_not_isAngle (hword ▸ rfl), ← hword]
      rfl
    · rw [String.toList_ofList]
      exact spelled_of_spells hbase hspells new n hnew
    -- Other tokens with the same lexemes lose the same words, and the walk through what is left of
    -- them ends at the same place.
    · obtain ⟨left, hsuffix, hlexemes, hleft⟩ :=
        splitModifierWords_again hwords' hstarts' hagain more
      have hleftne : left ≠ [] := by
        rintro rfl
        rw [startsStatement_of_map_eq hlexemes.symm] at hstarts'
        cases hstarts'
      refine ⟨left ++ more, hleft, fun stop => ?_⟩
      rw [hwalks stop left more hlexemes hmore, lastStop_suffix hsuffix hleftne]
  exact (walks_of_splitStatement hsplit').2.imp hkept
    fun hopen => ⟨isClose_of_singles hopen.1, hkept hopen.2⟩

/-! ### The last tokens of a file -/

/-- What is left of a stream are the last tokens of a file, with a part of a longer mark in front of
them at most. -/
def Stream.Within (all : List Token) (stream : Stream) : Prop :=
  stream.tokens <:+ all ∨ ∃ mark start stop rest,
    stream.tokens = ⟨.mark mark, start, stop⟩ :: rest ∧ rest <:+ all

/-- Behind a token, what is left are the last tokens of the file still. -/
theorem Stream.Within.tail {all : List Token} {stream : Stream} (h : stream.Within all) :
    stream.tail.Within all := by
  rcases h with h | ⟨mark, start, stop, rest, htokens, h⟩
  · exact .inl ((List.tail_suffix _).trans h)
  · refine .inl ?_
    rw [Stream.tail, htokens]
    exact h

/-- So are they behind a half of a mark. -/
theorem Stream.Within.behindAngle {all : List Token} {stream : Stream} (h : stream.Within all) :
    stream.behindAngle.Within all := by
  have htail := h.tail
  obtain ⟨tokens, stop⟩ := stream
  match tokens with
  | [] => exact h
  | ⟨lexeme, start, behind⟩ :: rest =>
    have hrest : rest <:+ all := by
      rcases h with h | ⟨_, _, _, _, htokens, h⟩
      · exact (List.suffix_cons _ rest).trans h
      · cases htokens
        exact h
    cases lexeme with
    | mark mark =>
      rw [Stream.behindAngle]
      dsimp only
      -- A part of a longer mark may stay in front. It is dropped again with the next token.
      split
      · exact .inr ⟨_, _, _, rest, rfl, hrest⟩
      · exact .inl hrest
    | _ => exact h

/-- So are the last of them. -/
theorem Stream.Within.of_suffix {all rest : List Token} {stream : Stream} (h : stream.Within all)
    (hrest : rest <:+ stream.tokens) (stop : Nat) : Stream.Within all ⟨rest, stop⟩ := by
  rcases h with h | ⟨mark, start, behind, others, htokens, h⟩
  · exact .inl (hrest.trans h)
  · rw [htokens] at hrest
    rcases List.suffix_cons_iff.mp hrest with rfl | hothers
    · exact .inr ⟨mark, start, behind, others, rfl, h⟩
    · exact .inl (hothers.trans h)

/-- The simulation of what is left of a file by itself. -/
def within (file : Stream) : Simulation where
  streams first second := first = second ∧ first.Within file.tokens ∧ first.stop = file.stop
  depths := .inr fun h => congrArg Stream.size h.1
  positions := Eq
  errors := Eq
  next h := .inl (congrArg Stream.next? h.1)
  tail h _ _ := ⟨congrArg Stream.tail h.1, h.2.1.tail, h.2.2⟩
  angle h _ := ⟨congrArg Stream.behindAngle h.1, h.2.1.behindAngle,
    (Stream.stop_behindAngle _).trans h.2.2⟩
  position h := congrArg Stream.position h.1
  error h _ := by rw [h.1]

/-- What is left of a file cuts the same statements out of the text. -/
theorem verbatim_within (file : Stream) (text : List Char) : (within file).Verbatim text text := by
  rintro first _ position _ ⟨rfl, hwithin, hstop⟩ rfl
  cases hsplit : splitStatement 0 position first.tokens with
  | done behind rest =>
    exact .done rfl ⟨rfl, hwithin.of_suffix (Simulation.suffix_splitStatement hsplit) _, hstop⟩
  | stray rest =>
    exact .stray ⟨rfl, hwithin.of_suffix (Simulation.suffix_of_stray hsplit) _, hstop⟩
  | unclosed => exact .unclosed ⟨rfl, .inl (List.nil_suffix), hstop⟩

/-- Readers of any stream leave the last tokens of a file. -/
theorem ensures_within {α : Type} {all : List Token} {reader : Reader α} {stream : Stream}
    (h : ∀ n, (within ⟨all, stream.stop⟩).Alike n reader reader) (hstream : stream.Within all) :
    reader.Ensures stream fun _ rest => rest.Within all ∧ rest.stop = stream.stop := by
  intro reading hread
  -- Stated for streams of up to a length; this one is shorter than its length and one.
  have houtcome := h (stream.size + 1) ⟨rfl, hstream, rfl⟩ (Nat.lt_succ_self _) (Nat.lt_succ_self _)
  rw [hread] at houtcome
  cases houtcome with
  | ok _ hrest => exact hrest.2

/-! ### Documents -/

/-- A declaration that ends in front of anything that may follow. Only a statement that is kept as
it is written may fail to. -/
def Declaration.EndsBefore (declaration : Declaration) (follow : Option Lexeme → Prop) : Prop :=
  ∀ text, declaration = .unsupported text → KeptBefore text follow

mutual

/-- The statements of a declaration that are kept as they are written stand for themselves, wherever
the declaration is printed. Those that do not end by themselves come last. -/
def Declaration.Kept : Declaration → Prop
  | .namespace _ declarations => keptAll declarations
  | .unsupported text => KeptBefore text IsClose
  | _ => True

/-- Declarations that are printed one behind the other. -/
def keptAll : List Declaration → Prop
  | [] => True
  | first :: rest => first.Kept ∧ (rest ≠ [] → first.EndsBefore NoSemicolon) ∧ keptAll rest

end

namespace Declaration

/-- A plain declaration stands for itself. -/
theorem IsPlain.kept {declaration : Declaration} (h : declaration.IsPlain) : declaration.Kept := by
  cases declaration with
  | «namespace» _ _ | unsupported _ => cases h
  | _ => trivial

/-- It ends in front of anything. -/
theorem IsPlain.endsBefore {declaration : Declaration} (h : declaration.IsPlain)
    (follow : Option Lexeme → Prop) : declaration.EndsBefore follow := by
  rintro text rfl
  cases h

end Declaration

/-- A reader of declarations that stand for themselves. -/
def Reader.Keeps (all : List Token) (reader : Reader Declaration) : Prop :=
  ∀ {stream : Stream}, stream.Within all → reader.Ensures stream fun value rest =>
    value.Kept ∧ (value.EndsBefore NoSemicolon ∨ IsClose rest.next?) ∧ rest.Within all

namespace Reader

variable {all : List Token}

/-- A reader of plain declarations reads declarations that stand for themselves. -/
theorem keeps_of_makesPlain {reader : Reader Declaration} (h : MakesPlain reader)
    (halike : ∀ stop n, (within ⟨all, stop⟩).Alike n reader reader) : reader.Keeps all := by
  intro stream hstream reading hread
  have hplain := h stream reading hread
  have hrest := ensures_within (halike stream.stop) hstream reading hread
  exact ⟨hplain.kept, .inl (hplain.endsBefore _), hrest.1⟩

/-- So it does behind a token that is passed over. -/
theorem keeps_skip {reader : Reader Declaration} (h : reader.Keeps all) :
    Keeps all (skip >>= fun _ => reader) :=
  fun hstream => ensures_bind (ensures_skip (h hstream.tail))

/-- The last of some declarations may need that something closes behind it. Where the reader stops
at anything that closes, no other does. -/
theorem keeps_declarations {stops : Option Lexeme → Bool} {declaration : Reader Declaration}
    (h : declaration.Keeps all) {stream : Stream} (hstream : stream.Within all) :
    (declarations stops declaration).Ensures stream fun values rest =>
      (∀ value ∈ values, value.Kept) ∧ ((∀ next, IsClose next → stops next = true) → keptAll values)
        ∧ rest.Within all := by
  let post (stream : Stream) (values : List Declaration) (rest : Stream) : Prop :=
    (stops stream.next? = true → values = []) ∧ (∀ value ∈ values, value.Kept)
      ∧ ((∀ next, IsClose next → stops next = true) → keptAll values) ∧ rest.Within all
  let guarded (stream : Stream) (values : List Declaration) (rest : Stream) : Prop :=
    stream.Within all → post stream values rest
  suffices (declarations stops declaration).Ensures stream (guarded stream) from
    this.imp fun values rest hpost => (hpost hstream).2
  have hnil : ∀ stream, stream.Within all → Ensures (pure []) stream (post stream) :=
    fun stream hstream => ensures_pure
      ⟨fun _ => rfl, fun _ hin => absurd hin List.not_mem_nil, fun _ => trivial, hstream⟩
  have hstuck : ∀ stream, Ensures (pure []) stream (guarded stream) :=
    fun stream reading hread hstream => hnil stream hstream reading hread
  refine ensures_recursive hstuck (fun more ih stream reading hread hstream => ?_) stream
  suffices Ensures (Simulation.declarationsBody stops declaration more) stream (post stream) from
    this reading hread
  refine ensures_bind (ensures_look (ensures_ite (fun _ => hnil stream hstream) fun hgo =>
    ensures_bind (ensures_accept (fun _ => ?_) fun _ => ?_)))
  · exact (ih stream.tail).imp fun values rest hpost =>
      ⟨fun hstop => absurd hstop hgo, (hpost hstream.tail).2⟩
  · refine ensures_bind ((h hstream).imp fun value behind hvalue => ensures_bind ?_)
    obtain ⟨hkept, hend, hbehind⟩ := hvalue
    refine (ih behind).imp fun values rest hpost => ensures_pure ?_
    obtain ⟨hstopped, hkepts, hall, hrest⟩ := hpost hbehind
    refine ⟨fun hstop => absurd hstop hgo, List.forall_mem_cons.mpr ⟨hkept, hkepts⟩,
      fun hclose => ?_, hrest⟩
    -- Where something closes behind a declaration, there is none behind it.
    exact ⟨hkept, fun hne => hend.resolve_right fun hnext => hne (hstopped (hclose _ hnext)),
      hall hclose⟩

/-- If the declarations inside stand for themselves, so does the namespace around them. -/
theorem keeps_namespaceBody {declaration : Reader Declaration} (h : declaration.Keeps all) :
    Keeps all (namespaceBody declaration) := by
  intro stream hstream
  have hpath : (separated bindingName .dot).Ensures stream fun _ rest => rest.Within all :=
    (ensures_within (fun _ => Simulation.alike_separated rfl Simulation.takes_bindingName.alike)
      hstream).imp fun _ _ => And.left
  have hbrace : ∀ {mark : Mark}, (Lexeme.mark mark).isAngle = false → ∀ {stream : Stream},
      stream.Within all → (expect mark).Ensures stream fun _ rest => rest.Within all :=
    fun hangle _ hstream => (ensures_within (fun _ => (Simulation.takes_expect hangle).alike)
      hstream).imp fun _ _ => And.left
  refine ensures_bind (hpath.imp fun path rest hrest => ensures_bind ?_)
  refine (hbrace rfl hrest).imp fun _ rest hrest => ensures_bind ?_
  refine (keeps_declarations h hrest).imp fun inner rest hinner => ensures_bind ?_
  refine (hbrace rfl hinner.2.2).imp fun _ rest hrest =>
    ensures_pure ⟨?_, .inl fun _ => Declaration.noConfusion, hrest⟩
  refine hinner.2.1 fun next hnext => ?_
  rcases hnext with rfl | rfl <;> rfl

/-- So does a declaration behind its modifiers. -/
theorem keeps_declarationBody {declaration : Reader Declaration} (h : declaration.Keeps all) :
    Keeps all (declarationBody declaration) := by
  intro stream hstream
  refine ensures_bind (ensures_look ?_)
  -- Three words start a variable, and each is skipped in the same way.
  have hplain : Keeps all variableBody :=
    keeps_of_makesPlain makesPlain_variableBody fun _ _ => Simulation.alike_variableBody
  have hvariable := keeps_skip hplain hstream
  split
  · exact hvariable
  · exact hvariable
  · exact hvariable
  · exact keeps_skip (keeps_of_makesPlain makesPlain_functionBody fun _ _ =>
      Simulation.alike_functionBody) hstream
  · exact keeps_skip (keeps_of_makesPlain makesPlain_interfaceBody fun _ _ =>
      Simulation.alike_interfaceBody) hstream
  · exact keeps_skip (keeps_of_makesPlain makesPlain_classBody fun _ _ =>
      Simulation.alike_classBody) hstream
  · refine ensures_bind (ensures_look (ensures_ite (fun _ => ?_) fun _ => ensures_fail _ _ _))
    exact keeps_skip (keeps_of_makesPlain makesPlain_aliasBody fun _ _ =>
      Simulation.alike_aliasBody) hstream
  · exact keeps_skip (keeps_namespaceBody h) hstream
  · exact keeps_skip (keeps_namespaceBody h) hstream
  · exact ensures_fail _ _ _

/-- A statement starts with a word, so what is left are tokens of the file as they are. -/
theorem suffix_of_splitModifierWords {stream : Stream} (h : stream.Within all)
    (hwords : (splitModifierWords stream.tokens).1 = true) : stream.tokens <:+ all := by
  rcases h with h | ⟨mark, start, stop, rest, htokens, -⟩
  · exact h
  · rw [htokens] at hwords
    cases hwords

/-- What is kept as it is written are some tokens of the stream, up to where the last of them stops:
words that change nothing, and a statement behind them. -/
theorem exists_run {text : List Char} {stream : Stream} {reading : Reading Declaration}
    (hwords : (splitModifierWords stream.tokens).1 = true)
    (h : Reader.statement text stream.position
      { stream with tokens := (splitModifierWords stream.tokens).2 } = .ok reading) :
    ∃ first more statement rest, stream.tokens = first :: more ++ rest
      ∧ splitModifierWords (first :: more ++ rest) = (true, statement ++ rest)
      ∧ statement <:+ first :: more ∧ startsStatement statement = true
      ∧ splitStatement 0 first.start (statement ++ rest)
        = .done (lastStop first.start (first :: more)) rest
      ∧ reading = ⟨.unsupported (String.ofList (slice text first.start
          (lastStop first.start (first :: more)))), [], ⟨rest, stream.stop⟩⟩ := by
  obtain ⟨words, hbehind⟩ := Simulation.suffix_splitModifierWords stream.tokens
  have hstarts := Simulation.startsStatement_splitModifierWords hwords
  obtain ⟨stop, rest, hsplit, rfl⟩ := Reader.statement_eq_ok.mp h
  dsimp only at hsplit
  obtain ⟨statement, hstatement⟩ := Simulation.suffix_splitStatement hsplit
  rw [← hstatement] at hsplit hstarts
  have hstarts' := startsStatement_of_splitStatement hstarts hsplit
  -- A statement is not empty, so the stream has a first token that belongs to the run.
  have hne : statement ≠ [] := by
    rintro rfl
    cases hstarts'
  obtain ⟨first, more, hfirst⟩ :=
    List.exists_cons_of_ne_nil (List.append_ne_nil_of_right_ne_nil words hne)
  have hsuffix : statement <:+ first :: more := ⟨words, hfirst⟩
  have htokens : stream.tokens = first :: more ++ rest := by
    rw [← hbehind, ← hstatement, ← hfirst, List.append_assoc]
  have hposition : stream.position = first.start := by
    rw [Stream.position, htokens]
    rfl
  rw [hposition] at hsplit
  have hstop := (walks_of_splitStatement hsplit).1.trans (lastStop_suffix hsuffix hne _)
  refine ⟨first, more, statement, rest, htokens, ?_, hsuffix, hstarts', ?_, ?_⟩
  · rw [← htokens, ← hwords, hstatement]
  · rw [hsplit, hstop]
  · rw [hposition, hstop]

/-- A statement that is kept as it is written stands for itself, and ends in front of what comes
next. -/
theorem keeps_statement {text : List Char} (hscan : Cursor.tokens ⟨text, 0⟩ = .ok all)
    {stream : Stream} (hstream : stream.Within all)
    (hwords : (splitModifierWords stream.tokens).1 = true) :
    (Reader.statement text stream.position).Ensures
      { stream with tokens := (splitModifierWords stream.tokens).2 } fun value rest =>
        value.Kept ∧ (value.EndsBefore NoSemicolon ∨ IsClose rest.next?) ∧ rest.Within all := by
  intro reading hread
  obtain ⟨front, hfront⟩ := suffix_of_splitModifierWords hstream hwords
  obtain ⟨first, more, statement, rest, htokens, hsplitWords, -, -, hsplit, rfl⟩ :=
    exists_run hwords hread
  rw [← hfront, htokens] at hscan
  have hkept := keptBefore_of_splitStatement hscan hsplitWords hsplit
  -- What is kept in front of anything but a semicolon is also kept in front of what closes.
  refine ⟨hkept.elim (·.mono fun _ => IsClose.noSemicolon) And.right, ?_, .inl ?_⟩
  · refine hkept.imp (fun hclosed text htext => ?_) And.left
    cases htext
    exact hclosed
  · exact ⟨front ++ (first :: more), by rw [← hfront, htokens, List.append_assoc]⟩

/-- The declarations of a file stand for themselves. -/
theorem keeps_declaration {text : List Char} (hscan : Cursor.tokens ⟨text, 0⟩ = .ok all) :
    Keeps all (declaration text) := by
  intro stream hstream
  let guarded (stream : Stream) (value : Declaration) (rest : Stream) : Prop :=
    stream.Within all →
      value.Kept ∧ (value.EndsBefore NoSemicolon ∨ IsClose rest.next?) ∧ rest.Within all
  suffices (declaration text).Ensures stream (guarded stream) from
    this.imp fun value rest hvalue => hvalue hstream
  have hstuck : ∀ stream, (fail .declaration).Ensures stream (guarded stream) := fun stream =>
    ensures_fail _ stream _
  refine ensures_recursive hstuck (fun reader ih stream reading hread hstream => ?_) stream
  have hreader : reader.Keeps all := fun hstream =>
    (ih _).imp fun value rest hvalue => hvalue hstream
  suffices (declarationOrStatement text reader).Ensures stream fun value rest =>
      value.Kept ∧ (value.EndsBefore NoSemicolon ∨ IsClose rest.next?) ∧ rest.Within all from
    this reading hread
  refine ensures_bind (ensures_look (ensures_bind (ensures_take ?_)))
  split
  · rename_i hwords
    exact keeps_statement hscan hstream hwords
  -- Behind the words in front of a declaration the last tokens of the file are left.
  · have hstreams : (within ⟨all, stream.stop⟩).streams stream stream := ⟨rfl, hstream, rfl⟩
    exact keeps_declarationBody hreader (Simulation.respected_splitModifierWords hstreams).2.2.1

end Reader

/-- The statements of a document that are kept as they are written stand for themselves. -/
theorem Document.kept_ofText {text : String} {document : Document}
    (h : Document.ofText text = .ok document) :
    ∀ declaration ∈ document.declarations, declaration.Kept := by
  obtain ⟨tokens, reading, htokens, hread, rfl⟩ := ofText_eq_ok.mp h
  have hwithin : Stream.Within tokens ⟨tokens, text.utf8ByteSize⟩ := .inl List.suffix_rfl
  exact (Reader.keeps_declarations (Reader.keeps_declaration htokens) hwithin reading hread).1

end Facade
