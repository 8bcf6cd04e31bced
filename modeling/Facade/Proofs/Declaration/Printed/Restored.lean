import Facade.Proofs.Declaration.Printed.Declarations
import Facade.Proofs.Declaration.FormedDocument

/-!
# Declarations of a file are restored from their texts

The text of a declaration stands for it wherever it is put (`Declaration.Restored`): the scanner
makes the same lexemes of it in front of anything that starts with blank space, and they are read
as the declaration. For a statement that is kept as it is written, that includes that its
characters are cut out of the new text again, so what stands in front counts. Inside a namespace,
spaces stand between the declarations, and a statement that nothing ends but a closing brace has
to come last. The induction over namespaces is `Declaration.restored`.

The declarations of a file that is read meet all that this takes, but for what `printable` asks of
their types and members. So each of them is the only declaration of the file that consists of its
text (`Document.ofText_display`).
-/

set_option autoImplicit false

namespace Facade

open Facade.Text (byteLength joined)
open Reader

/-- The text of a declaration is read as the declaration wherever it stands, in front of blank space
and as long as what comes first behind it keeps to a condition. -/
def Declaration.Restored (declaration : Declaration) (follow : Option Lexeme → Prop) : Prop :=
  ∀ behind n, Stops behind → ∃ first rest, (∃ word, first.lexeme = .word word)
    ∧ Tokenizes declaration.display.toList behind n (first :: rest)
    ∧ ∀ (front : List Char) (after : Stream), byteLength front = n → follow after.next? →
      Reader.declaration (front ++ (declaration.display.toList ++ behind))
        (after.prepend (first :: rest)) = .ok ⟨declaration, [], after⟩

/-- A declaration that is read back ends by itself, so its text stands for it in front of
anything. -/
theorem Declaration.Readable.restored {declaration : Declaration} (h : declaration.Readable)
    (follow : Option Lexeme → Prop) : declaration.Restored follow := by
  obtain ⟨word, lexemes, hwrites, hreads⟩ := h
  intro behind n _
  obtain ⟨tokens, hlexemes, htokens⟩ := hwrites behind n trivial
  obtain ⟨first, rest, rfl, hfirst, -⟩ := List.map_eq_cons_iff.mp hlexemes
  exact ⟨first, rest, ⟨word, hfirst⟩, htokens, fun front after _ _ =>
    hreads _ _ after hlexemes trivial⟩

/-- The text of a statement that is kept stands for it where the statement is kept. -/
theorem restored_unsupported {text : String} {follow : Option Lexeme → Prop}
    (h : KeptBefore text follow) : (Declaration.unsupported text).Restored follow := by
  obtain ⟨lexemes, ⟨word, more, rfl⟩, hspelled, hfound⟩ := h
  intro behind n hbehind
  obtain ⟨first, rest, hlexemes, hstart, hstop, htokens⟩ := hspelled behind n hbehind
  refine ⟨first, rest, ⟨word, (List.cons.inj hlexemes).1⟩, htokens,
    fun front after hfront hafter => ?_⟩
  obtain ⟨statement, hwords, hsplit⟩ := hfound (first :: rest) after.tokens hlexemes hafter
  have htake : take splitModifierWords (after.prepend (first :: rest))
      = .ok ⟨true, [], ⟨statement, after.stop⟩⟩ := by
    rw [take, Stream.prepend, hwords]
  -- Its characters are found again where the text starts in the new one.
  have hslice := Text.slice_middle front text.toList behind
  rw [hfront] at hslice
  have hposition : (after.prepend (first :: rest)).position = n := hstart
  rw [declaration_eq, declarationOrStatement, bind_of_ok rfl, bind_of_ok htake, if_pos rfl,
    Reader.statement]
  dsimp only
  rw [hsplit, hstop, hposition, Declaration.display]
  dsimp only
  rw [hslice, String.ofList_toList]

/-! ### Namespaces -/

/-- Declarations that are printed one behind the other, up to a closing brace, are read back. -/
def RestoredAll (declarations : List Declaration) : Prop :=
  ∀ behind n, ∃ tokens, (declarations = [] → tokens = [])
    ∧ (∀ token ∈ tokens.head?, ∃ word, token.lexeme = .word word)
    ∧ Tokenizes (displayDeclarations declarations).toList behind n tokens
    ∧ ∀ (front : List Char) (after : Stream), byteLength front = n →
      after.next? = some (.mark .braceClose) →
      Reader.declarations closesNamespace
        (Reader.declaration (front ++ ((displayDeclarations declarations).toList ++ behind)))
        (after.prepend tokens) = .ok ⟨declarations, [], after⟩

/-- Behind a declaration that starts with a word, the others are read. -/
theorem declarations_word {stops : Option Lexeme → Bool}
    (hangle : ∀ lexeme : Lexeme, lexeme.isAngle = true → ¬ stops (some lexeme) = true)
    (text : List Char) {stream rest after : Stream} {word : Word} {value : Declaration}
    {values : List Declaration} (hnext : stream.next? = some (.word word))
    (hstops : stops (some (.word word)) = false)
    (hvalue : Reader.declaration text stream = .ok ⟨value, [], rest⟩)
    (hvalues : Reader.declarations stops (Reader.declaration text) rest
      = .ok ⟨values, [], after⟩) :
    Reader.declarations stops (Reader.declaration text) stream
      = .ok ⟨value :: values, [], after⟩ := by
  have hsemicolon : stream.next? ≠ some (.mark .semicolon) := by
    rw [hnext]
    exact fun heq => Lexeme.noConfusion (Option.some.inj heq)
  rw [declarations_cons hangle text (hnext ▸ hstops) hsemicolon hvalue, bind_of_ok hvalues]
  rfl

/-- There is nothing to read back of no declarations. -/
theorem restoredAll_nil : RestoredAll [] := by
  intro behind n
  refine ⟨[], fun _ => rfl, fun _ htoken => absurd htoken (Option.not_mem_none _),
    (map_nil_append _).symm, fun front after _ hafter => ?_⟩
  refine declarations_nil (fun _ => closesNamespace_of_isAngle) _ ?_
  rw [Stream.prepend_nil, hafter]
  rfl

/-- What comes behind a declaration is another one, or the brace if it is the last one. -/
theorem restoredAll_cons {declaration : Declaration} {rest : List Declaration}
    (hlast : declaration.Restored IsClose) (hfront : rest ≠ [] → declaration.Restored NoSemicolon)
    (hrest : RestoredAll rest) : RestoredAll (declaration :: rest) := by
  intro behind n
  have hspace : Stops ([' '] ++ ((displayDeclarations rest).toList ++ behind)) := by
    intro c hc
    cases Option.mem_some_iff.mp hc
    exact .inl rfl
  obtain ⟨more, hnil, hmore, hmoreTokens, hread⟩ :=
    hrest behind (n + byteLength declaration.display.toList + byteLength [' '])
  -- A condition that the declaration keeps to and that holds of what comes behind it here. Only the
  -- last declaration stands right in front of the brace.
  have hdeclaration : ∃ follow, declaration.Restored follow ∧ ∀ after : Stream,
      after.next? = some (.mark .braceClose) → follow (after.prepend more).next? := by
    by_cases hempty : rest = []
    · refine ⟨IsClose, hlast, fun after hafter => ?_⟩
      rw [hnil hempty]
      exact .inr hafter
    · refine ⟨NoSemicolon, hfront hempty, fun after hafter => ?_⟩
      rw [Stream.next?_prepend]
      cases more with
      | nil => exact fun heq => by cases hafter.symm.trans heq
      | cons token others =>
        obtain ⟨word, hword⟩ := hmore token rfl
        rw [List.map_cons, hword]
        exact fun heq => by cases heq
  obtain ⟨follow, hrestored, hfollow⟩ := hdeclaration
  obtain ⟨first, others, ⟨word, hword⟩, htokens, hvalue⟩ := hrestored _ n hspace
  have hchars : (displayDeclarations (declaration :: rest)).toList
      = declaration.display.toList ++ ([' '] ++ (displayDeclarations rest).toList) := by
    rw [displayDeclarations, String.append_assoc, String.toList_append, String.toList_append]
    rfl
  refine ⟨(first :: others) ++ more, List.cons_ne_nil _ _ |>.elim, fun token htoken => ?_, ?_,
    fun front after hfront hafter => ?_⟩
  · cases Option.mem_some_iff.mp htoken
    exact ⟨word, hword⟩
  · have hspaces := tokenizes_space ((displayDeclarations rest).toList ++ behind)
      (n + byteLength declaration.display.toList)
    rw [← List.append_assoc] at htokens
    rw [hchars]
    exact htokens.append (hspaces.append hmoreTokens)
  -- One text cut in two ways: in front of the declaration, and in front of the others behind it.
  · have hvalue' := hvalue front (after.prepend more) hfront (hfollow after hafter)
    have hread' := hread (front ++ (declaration.display.toList ++ [' '])) after (by
      rw [Text.byteLength_append, Text.byteLength_append, hfront, Nat.add_assoc]) hafter
    have htext : front ++ ((displayDeclarations (declaration :: rest)).toList ++ behind)
        = front ++ (declaration.display.toList
          ++ ([' '] ++ ((displayDeclarations rest).toList ++ behind))) := by
      rw [hchars, List.append_assoc, List.append_assoc]
    have htext' : front ++ (declaration.display.toList ++ [' '])
          ++ ((displayDeclarations rest).toList ++ behind)
        = front ++ (declaration.display.toList
          ++ ([' '] ++ ((displayDeclarations rest).toList ++ behind))) := by
      simp only [List.append_assoc]
    rw [htext'] at hread'
    rw [htext, Stream.prepend_append]
    exact declarations_word (fun _ => closesNamespace_of_isAngle) _ (congrArg some hword) rfl
      hvalue'
      hread'

/-- A namespace up to what is in it. -/
def namespaceHead (path : List String) : String :=
  "namespace " ++ (joined "." path ++ " \x7b ")

/-- A namespace is printed as its head, its declarations and a closing brace. -/
theorem toList_display_namespace (path : List String) (declarations : List Declaration) :
    (Declaration.namespace path declarations).display.toList
      = (namespaceHead path).toList
        ++ ((displayDeclarations declarations).toList ++ "\x7d".toList) := by
  rw [Declaration.display, namespaceHead, ← String.toList_append, ← String.toList_append]
  simp only [String.append_assoc]

section

variable {path : List String} (hpath : ∀ segment ∈ path, IsBindingName segment)
include hpath

/-- The head of a namespace is written for a word, a path and a brace. -/
theorem writes_namespaceHead : Writes (namespaceHead path).toList
    ([.word .namespaceWord] ++ (pathLexemes path ++ [.mark .braceOpen])) fun _ => True := by
  have hword : Writes "namespace ".toList [.word .namespaceWord] fun _ => True :=
    writes_spellingSpace .namespaceWord _
  have hbrace : Writes "\x7b".toList [.mark .braceOpen] fun _ => True :=
    writes_markAlone .braceOpen _ (by decide)
  have hopen := (hbrace.space (fun _ => trivial) fun _ => True).behindSpace
  exact hword.join ((writes_path fun segment hin => (hpath segment hin).isWord).join hopen
    fun rest _ => free_space "\x7b " rest) fun _ _ => trivial

/-- The path of a namespace is read back. -/
theorem reads_path (hne : path ≠ []) :
    Reads (separated bindingName .dot) (pathLexemes path) path
      fun next => next ≠ some (.mark .dot) := by
  have hitems : List.Forall₂ (fun name lexemes => Reads bindingName lexemes name fun _ => True) path
      (path.map fun name => [Cursor.wordLexeme name]) :=
    List.forall₂_map_right_iff.mpr (List.forall₂_same.mpr fun name hin =>
      reads_bindingName (hpath name hin))
  exact reads_separated rfl (fun _ => Simulation.takes_bindingName.alike)
    (readsItems_of_forall₂ hne hitems trivial fun _ _ => trivial) fun _ hnext => hnext

/-- A namespace is read up to what is in it. -/
theorem declaration_namespace (hne : path ≠ []) (text : List Char) {tokens : List Token}
    (htokens : tokens.map Token.lexeme
      = [.word .namespaceWord] ++ (pathLexemes path ++ [.mark .braceOpen])) (rest : Stream) :
    Reader.declaration text (rest.prepend tokens)
      = (Reader.declarations closesNamespace (Reader.declaration text) >>= fun inner =>
          expect .braceClose >>= fun _ => pure (Declaration.namespace path inner)) rest := by
  rw [List.singleton_append] at htokens
  obtain ⟨first, more, rfl, hfirst, hmore⟩ := List.map_eq_cons_iff.mp htokens
  obtain ⟨names, opening, rfl, hnames, hopening⟩ := List.map_eq_append_iff.mp hmore
  have hnext : (rest.prepend (first :: (names ++ opening))).next? = some (.word .namespaceWord) :=
    congrArg some hfirst
  -- The path ends where the brace opens, since no dot follows.
  have hbrace : (rest.prepend opening).next? ≠ some (.mark .dot) := by
    rw [Stream.next?_prepend, hopening]
    exact fun heq => by cases heq
  have hbody : declarationBody (Reader.declaration text)
        (rest.prepend (first :: (names ++ opening)))
      = namespaceBody (Reader.declaration text) (rest.prepend (names ++ opening)) := by
    rw [declarationBody, bind_of_ok rfl, hnext]
    exact bind_of_ok rfl
  rw [declaration_of_word text (by decide) hnext, hbody, Stream.prepend_append, namespaceBody,
    bind_of_ok (reads_path hpath hne names _ hnames hbrace),
    bind_of_ok (reads_expect .braceOpen opening rest hopening trivial)]
  rfl

/-- A namespace is restored with what is in it. -/
theorem restored_namespace {declarations : List Declaration} (hne : path ≠ [])
    (h : RestoredAll declarations) (follow : Option Lexeme → Prop) :
    (Declaration.namespace path declarations).Restored follow := by
  have hclose : Writes "\x7d".toList [.mark .braceClose] fun _ => True :=
    writes_markAlone .braceClose _ (by decide)
  have hchars := toList_display_namespace path declarations
  intro behind n _
  -- The three parts of the text, each scanned where it starts in the file.
  obtain ⟨inner, -, -, hinner, hread⟩ := h ("\x7d".toList ++ behind)
    (n + byteLength (namespaceHead path).toList)
  obtain ⟨closing, hclosing, hclosed⟩ := hclose behind (n + byteLength (namespaceHead path).toList
    + byteLength (displayDeclarations declarations).toList) trivial
  obtain ⟨tokens, htokens, hopened⟩ := writes_namespaceHead hpath
    ((displayDeclarations declarations).toList ++ "\x7d".toList ++ behind) n trivial
  obtain ⟨first, more, rfl, hfirst, -⟩ := List.map_eq_cons_iff.mp htokens
  refine ⟨first, more ++ (inner ++ closing), ⟨.namespaceWord, hfirst⟩, ?_,
    fun front after hfront _ => ?_⟩
  · rw [hchars]
    exact hopened.append (hinner.append hclosed)
  · have hbrace : (after.prepend closing).next? = some (.mark .braceClose) := by
      rw [Stream.next?_prepend, hclosing]
      rfl
    have hread' := hread (front ++ (namespaceHead path).toList) (after.prepend closing) (by
      rw [Text.byteLength_append, hfront]) hbrace
    have htext : front ++ ((Declaration.namespace path declarations).display.toList ++ behind)
        = front ++ (namespaceHead path).toList
          ++ ((displayDeclarations declarations).toList ++ ("\x7d".toList ++ behind)) := by
      rw [hchars]
      simp only [List.append_assoc]
    rw [htext, ← List.cons_append, Stream.prepend_append, Stream.prepend_append,
      declaration_namespace hpath hne _ htokens, bind_of_ok hread',
      bind_of_ok (reads_expect .braceClose closing after hclosing trivial)]
    rfl

end

/-! ### All declarations -/

/-- A declaration that stands for itself does so in front of a closing brace. -/
theorem Declaration.Kept.endsBefore {declaration : Declaration} (h : declaration.Kept) :
    declaration.EndsBefore IsClose := by
  rintro text rfl
  exact h

mutual

/-- Declarations in shape that are printed in a form that is read back are restored. -/
theorem Declaration.restored : (declaration : Declaration) → declaration.Every formed →
    declaration.Every printable → declaration.Kept → ∀ follow, declaration.EndsBefore follow →
    declaration.Restored follow
  | .namespace _ declarations, hformed, hprintable, hkept, follow, _ =>
    restored_namespace hformed.1.2 hformed.1.1
      (restoredAll declarations hformed.2 hprintable.2 hkept) follow
  | .unsupported text, _, _, _, _, hends => restored_unsupported (hends text rfl)
  | .variable _ _, hformed, hprintable, _, follow, _ =>
    (readable_variable hformed hprintable).restored follow
  | .function _ _, hformed, hprintable, _, follow, _ =>
    (readable_function hformed hprintable).restored follow
  | .interface _ _ _ _, hformed, hprintable, _, follow, _ =>
    (readable_interface hformed hprintable).restored follow
  | .alias _ _ _, hformed, hprintable, _, follow, _ =>
    (readable_alias hformed hprintable).restored follow
  | .class _ _ _ _ _, hformed, hprintable, _, follow, _ =>
    (readable_class hformed hprintable).restored follow

/-- Declarations that stand for themselves are read back, one behind the other. -/
theorem restoredAll : (declarations : List Declaration) → everyDeclaration formed declarations →
    everyDeclaration printable declarations → keptAll declarations → RestoredAll declarations
  | [], _, _, _ => restoredAll_nil
  | declaration :: rest, hformed, hprintable, hkept => by
    have hrestored := declaration.restored hformed.1 hprintable.1 hkept.1
    exact restoredAll_cons (hrestored IsClose hkept.1.endsBefore)
      (fun hne => hrestored NoSemicolon (hkept.2.1 hne))
      (restoredAll rest hformed.2 hprintable.2 hkept.2.2)

end

/-! ### Documents -/

/-- A text with nothing behind it is scanned as its tokens. -/
theorem Tokenizes.scan {text : String} {tokens : List Token}
    (h : Tokenizes text.toList [] 0 tokens) :
    ∃ scanned, Token.scan text = .ok scanned ∧ singles scanned = tokens := by
  have hnone : Cursor.tokens ⟨[], 0 + byteLength text.toList⟩ = .ok [] :=
    Cursor.tokens_of_step_none rfl
  rw [Tokenizes, List.append_nil, Cursor.singly, Cursor.singly, hnone] at h
  rw [Token.scan, Cursor.ofText]
  -- The text is at its end behind itself, so what `h` compares is the outcome of the whole scan.
  cases hscanned : Cursor.tokens ⟨text.toList, 0⟩ with
  | error error =>
    rw [hscanned] at h
    cases h
  | ok scanned =>
    rw [hscanned] at h
    exact ⟨scanned, rfl, (Except.ok.inj h).trans (List.append_nil _)⟩

/-- A file whose tokens are read as one declaration, up to its end. -/
theorem Document.ofText_of_tokenizes {text : String} {first : Token} {rest : List Token}
    {declaration : Declaration} (htokens : Tokenizes text.toList [] 0 (first :: rest))
    (hword : ∃ word, first.lexeme = .word word)
    (hread : Reader.declaration text.toList (Stream.prepend (first :: rest) ⟨[], text.utf8ByteSize⟩)
      = .ok ⟨declaration, [], ⟨[], text.utf8ByteSize⟩⟩) :
    Document.ofText text = .ok ⟨[declaration], []⟩ := by
  obtain ⟨word, hword⟩ := hword
  obtain ⟨scanned, hscanned, hsingles⟩ := htokens.scan
  have hangle : ∀ lexeme : Lexeme, lexeme.isAngle = true → ¬ (some lexeme).isNone = true :=
    fun _ _ => Bool.false_ne_true
  have hnext : (Stream.prepend (first :: rest) ⟨[], text.utf8ByteSize⟩).next? = some (.word word) :=
    congrArg some hword
  have hall := declarations_word hangle _ hnext rfl hread (declarations_nil hangle _ rfl)
  rw [Stream.prepend, List.append_nil, ← hsingles] at hall
  rw [Document.ofText, hscanned]
  -- The file is read from tokens with their marks whole, but what is read is the same.
  refine Document.ofStream_singles.mp ?_
  rw [Document.ofStream, hall]

/-- A declaration that is restored is the only one of the file that consists of its text. -/
theorem Declaration.Restored.ofText {declaration : Declaration}
    (h : declaration.Restored IsClose) :
    Document.ofText declaration.display = .ok ⟨[declaration], []⟩ := by
  obtain ⟨first, rest, hword, htokens, hread⟩ := h [] 0 Cursor.Stops.nil
  have hvalue := hread [] ⟨[], declaration.display.utf8ByteSize⟩ rfl (.inl rfl)
  rw [List.nil_append, List.append_nil] at hvalue
  exact Document.ofText_of_tokenizes htokens hword hvalue

/-- Printing a declaration and reading it again gives it back: for every file that is read and
every declaration of it whose types and members keep to `printable`, the text of the declaration
is read as a file with no other declaration and without remarks. A member keeps to it whose name
the file writes without quotes, since that name is spelled by a lexeme that is no string. -/
theorem Document.ofText_display {text : String} {document : Document}
    (h : Document.ofText text = .ok document) {declaration : Declaration}
    (hin : declaration ∈ document.declarations) (hprintable : declaration.Every printable) :
    Document.ofText declaration.display = .ok ⟨[declaration], []⟩ := by
  have hformed := everyDeclaration_iff.mp (Document.formed_ofText h) declaration hin
  have hkept := Document.kept_ofText h declaration hin
  exact (declaration.restored hformed hprintable hkept IsClose hkept.endsBefore).ofText

/-- A namespace with an interface, and a statement that ends where the namespace does. -/
def nestedNamespace : Declaration :=
  .namespace ["a", "b"]
    [.interface "I" [⟨"T", none, none⟩] []
      [.method "f" true ⟨[], [⟨"xs", false, some (.repeated (.named ["T"] []))⟩],
        some (.union [.named ["Set"] [.named ["T"] []], .literal "\"q\""])⟩],
     .unsupported "import c = d.e"]

/-- The namespace with an interface is printable. -/
theorem printable_nestedNamespace : nestedNamespace.Every printable := by
  have hname : (Lexeme.name "f").Scanned := ⟨by decide +kernel, by decide +kernel⟩
  have hquoted : IsPlainLiteral "\"q\"" :=
    .inr ⟨"q", by decide +kernel, List.forall_mem_singleton.mpr (by decide +kernel)⟩
  have hnamed : ∀ {path arguments}, path ≠ ["Array"] →
      (∀ first ∈ arguments.head?, first.startsWithAngle = false) →
      printable.type (.named path arguments) :=
    fun hpath hfirst => ⟨fun _ heq => absurd heq hpath, hfirst⟩
  have helement : (TypeExpr.named ["T"] []).Every printable :=
    ⟨hnamed (by decide) fun _ hin => absurd hin (Option.not_mem_none _), trivial⟩
  have hset : (TypeExpr.named ["Set"] [.named ["T"] []]).Every printable :=
    ⟨hnamed (by decide) (by rintro _ ⟨⟩; rfl), helement, trivial⟩
  have hsignature : Signature.Every printable ⟨[],
      [⟨"xs", false, some (.repeated (.named ["T"] []))⟩],
      some (.union [.named ["Set"] [.named ["T"] []], .literal "\"q\""])⟩ :=
    ⟨trivial, trivial, ⟨⟨trivial, rfl, helement⟩, trivial⟩, trivial, hset, hquoted, trivial⟩
  refine ⟨trivial, ⟨trivial, ⟨⟨trivial, trivial, trivial⟩, trivial⟩, trivial, ?_⟩, trivial, trivial⟩
  exact ⟨⟨⟨_, ⟨hname, rfl⟩, rfl, nofun⟩, hsignature⟩, trivial⟩

/-- It is read from a file that writes it in another way. -/
theorem ofText_display_nested : nestedNamespace.display =
  "namespace a.b \x7b interface I<T> \x7b f?(...xs: T[]): Set<T> | \"q\"; \x7d import c = d.e \x7d"
      ∧ Document.ofText nestedNamespace.display = .ok ⟨[nestedNamespace], []⟩ := by
  have hread : Document.ofText ("module a.b \x7b interface I<T> \x7b "
      ++ "f?(...xs: Array<T>): Set<T> | 'q' \x7d; import c = d.e \x7d")
      = .ok ⟨[nestedNamespace], []⟩ := by with_unfolding_all rfl
  exact ⟨by decide +kernel,
    Document.ofText_display hread List.mem_cons_self printable_nestedNamespace⟩

end Facade
