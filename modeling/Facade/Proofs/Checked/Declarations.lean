import Facade.Proofs.Checked.Statements
import Facade.Proofs.Checked.Types
import Facade.Proofs.Declaration.Progress

/-!
# Reading a text finishes

The checked parser of declarations runs like the reader of declarations (`takes_declaration`), and
the parser of files like the reader of files. So the checked scanner and the checked parser answer
on every text, with the answers of `Token.scan` and of `Document.ofText` (`finishes`): no cut, no
lookup, no count and no loop on the way fails. On the way, every position in a remark or an error
has been seen to be a boundary of the text.
-/

set_option autoImplicit false

namespace Facade.Checked

open Facade.Text Machine

variable {text : List Char} {state : State} {stream : Stream} {n : Nat}
  {declaration : Machine Declaration}

/-! ### Declarations -/

/-- A semicolon that may be left out is taken like the reader takes it. -/
theorem runs_optionalSemicolon : Runs text 1 n optionalSemicolon Reader.optionalSemicolon :=
  runs_bind (runs_acceptOnly _) fun _ => runs_pure _

/-- The types behind a word are read like the reader reads them. -/
theorem runs_typesAfter (w : Word) : Runs text 1 n (typesAfter w) (Reader.typesAfter w) := by
  refine runs_accept ?_ (runs_pure _) (Nat.le_succ n)
  exact runs_separated rfl (fun _ => Simulation.alike_typeReader) runs_typeExpr

/-- So is the type behind a mark, with the parser of types in place. -/
theorem runs_typeAfterReader (lexeme : Lexeme) :
    Runs text 1 n (typeAfter typeExpr lexeme) (Reader.typeAfter TypeExpr.reader lexeme) :=
  (runs_typeAfter runs_typeExpr).anti (Nat.le_succ n)

/-- So are type parameters. -/
theorem runs_typeParametersReader :
    Runs text 1 n (typeParameters typeExpr) (Reader.typeParameters TypeExpr.reader) :=
  (runs_typeParameters runs_typeExpr).anti (Nat.le_succ n)

/-- So are the members of an interface or a class. -/
theorem runs_membersReader : Runs text 1 n (members typeExpr) (Reader.members TypeExpr.reader) :=
  (runs_members runs_typeExpr).anti (Nat.le_succ n)

/-- The name of a variable is read like the reader reads it. -/
theorem runs_bindingName : Runs text 1 n bindingName Reader.bindingName :=
  (takes_expectSome _ _).weaken

/-- So is what stands behind `var`, `let` or `const`. -/
theorem runs_variableBody : Runs text 1 n variableBody Reader.variableBody :=
  runs_bind runs_bindingName fun _ => runs_bind (runs_typeAfterReader _) fun _ =>
    runs_bind runs_optionalSemicolon fun _ => runs_pure _

/-- So is what stands behind `function`. -/
theorem runs_functionBody : Runs text 1 n functionBody Reader.functionBody :=
  runs_bind runs_bindingName fun _ =>
    runs_bind ((runs_signature runs_typeExpr).anti (Nat.le_succ n)) fun _ =>
      runs_bind runs_optionalSemicolon fun _ => runs_pure _

/-- So is what stands behind `interface`. -/
theorem runs_interfaceBody : Runs text 1 n interfaceBody Reader.interfaceBody :=
  runs_bind runs_bindingName fun _ => runs_bind runs_typeParametersReader fun _ =>
    runs_bind (runs_typesAfter _) fun _ => runs_bind runs_membersReader fun _ => runs_pure _

/-- So is what stands behind `class`. -/
theorem runs_classBody : Runs text 1 n classBody Reader.classBody :=
  runs_bind runs_bindingName fun _ => runs_bind runs_typeParametersReader fun _ =>
    runs_bind (runs_typeAfterReader _) fun _ => runs_bind (runs_typesAfter _) fun _ =>
      runs_bind runs_membersReader fun _ => runs_pure _

/-- So is what stands behind `type`. -/
theorem runs_aliasBody : Runs text 1 n aliasBody Reader.aliasBody :=
  runs_bind runs_bindingName fun _ => runs_bind runs_typeParametersReader fun _ =>
    runs_bind (takes_expect _).weaken fun _ => runs_bind runs_typeExpr fun _ =>
      runs_bind runs_optionalSemicolon fun _ => runs_pure _

/-- If one declaration is read like the reader reads it, so are all of them up to a stop that is no
angle bracket. -/
theorem runs_declarations {stops : Option Lexeme → Bool}
    (hstops : ∀ lexeme : Lexeme, lexeme.isAngle = true → ¬ stops (some lexeme) = true)
    (h : Runs text 0 n declaration (Reader.declaration text)) :
    Runs text 1 n (declarations stops declaration)
      (Reader.declarations stops (Reader.declaration text)) := by
  refine runs_recursive fun hlt hmore => ?_
  rw [funext (Simulation.declarations_eq hstops fun _ =>
    Simulation.takes_declaration (Simulation.verbatim_same text))]
  refine runs_peek fun next => runs_ite (runs_pure _) (runs_accept hmore ?_ (Nat.le_refl _))
  exact (takes_bind (h.anti hlt) fun _ => runs_bind hmore fun _ => runs_pure _).weaken

/-- So is the body of a namespace. -/
theorem runs_namespaceBody (h : Runs text 0 n declaration (Reader.declaration text)) :
    Runs text 1 n (namespaceBody declaration)
      (Reader.namespaceBody (Reader.declaration text)) := by
  refine runs_bind (runs_separated rfl (fun _ => Simulation.takes_bindingName.alike)
    runs_bindingName) fun _ => ?_
  refine runs_bind (takes_expect _).weaken fun _ => runs_bind (runs_declarations ?_ h) fun _ => ?_
  · intro lexeme hangle
    cases lexeme with
    | mark m => cases m <;> first | decide | cases hangle
    | _ => cases hangle
  · exact runs_bind (takes_expect _).weaken fun _ => runs_pure _

/-- A declaration behind its modifiers is read like the reader reads it, and takes a token. The
declarations inside it have one token less. -/
theorem takes_declarationBody (h : Runs text 0 n declaration (Reader.declaration text)) :
    Runs text 0 (n + 1) (declarationBody declaration)
      (Reader.declarationBody (Reader.declaration text)) := by
  intro state stream hstands hsize
  refine agrees_peek hstands ?_
  cases hnext : stream.next? with
  | none => exact agrees_fail _ hstands
  | some lexeme =>
    have hskip : ∀ {next : Cell → Machine Declaration} {next' : Unit → Reader Declaration},
        (∀ cell, Runs text 1 n (next cell) (next' ())) →
        Agrees text state stream.size ((advance >>= next) text state)
          ((Reader.skip >>= next') stream) := fun hruns =>
      agrees_advance hstands hnext hruns (Nat.le_of_lt_succ hsize)
    cases lexeme with
    | word w =>
      cases w <;> first
        | exact hskip fun _ => runs_variableBody
        | exact hskip fun _ => runs_functionBody
        | exact hskip fun _ => runs_interfaceBody
        | exact hskip fun _ => runs_classBody
        | exact hskip fun _ => runs_namespaceBody h
        | exact agrees_fail _ hstands
        | skip
      -- Only an alias has to look at what comes second.
      refine agrees_peekSecond hstands ?_
      split
      · exact hskip fun _ => runs_aliasBody
      · exact agrees_fail _ hstands
    | _ => exact agrees_fail _ hstands

/-- So is a declaration or a statement that is kept as it is written. -/
theorem takes_declarationOrStatement (h : Runs text 0 n declaration (Reader.declaration text)) :
    Runs text 0 (n + 1) (declarationOrStatement declaration)
      (Reader.declarationOrStatement text (Reader.declaration text)) := by
  intro state stream hstands hsize
  obtain ⟨hplaces, hstart⟩ := hstands.position
  refine agrees_of_ok (position_eq hstands) rfl rfl ?_
  refine agrees_bind (runs_modifierWords hstands hsize) fun found {_ _ _} htake hrest hle => ?_
  cases htake
  have hle' := Simulation.length_splitModifierWords_le stream.tokens
  split
  · rename_i hfound
    have hbehind := hplaces.suffix (Simulation.suffix_splitModifierWords stream.tokens)
    exact (agrees_statement hrest hbehind hstart
      (Simulation.startsStatement_splitModifierWords hfound)).mono hle'
  · exact (takes_declarationBody h hrest (Nat.lt_of_le_of_lt hle' hsize)).mono hle'

/-- The checked parser of declarations runs like the reader of declarations. -/
theorem takes_declaration :
    Runs text 0 n Machine.declaration (Reader.declaration text) := by
  refine runs_recursive fun _ hdeclaration => ?_
  have hreader := takes_declarationOrStatement hdeclaration
  rwa [← funext (Reader.declaration_eq text)] at hreader

/-! ### Whole files -/

/-- The parser of a whole file and its reader start at the same place. -/
theorem stands_start {text : String} {tokens : List Token} (h : Token.scan text = .ok tokens) :
    Stands text.toList ⟨cellsOf tokens (byteLength text.toList), 0, []⟩
      ⟨tokens, text.utf8ByteSize⟩ where
  cells := by rw [← byteLength_toList]; rfl
  stop := (byteLength_toList text).symm
  places := places_of_tokens h (At.start _)

/-- What a file that is read by a checked parser comes to. -/
inductive Finished (text : List Char) :
    Except SyntaxError Document → Option (Except Failure Document) → Prop where
  | ok {document : Document} : (∀ lost ∈ document.lost, IsBoundary text lost.position) →
      Finished text (.ok document) (some (.ok document))
  | error {error : SyntaxError} : IsBoundary text error.position →
      Finished text (.error error)
        (some (.error ⟨error, Place.ofByte text error.position⟩))

/-- From where they stand alike, the checked parser of files finishes with what the reader of files
says. -/
theorem finished_document (h : Stands text state stream) (hlost : state.lost = []) :
    Finished text (Document.ofStream text stream)
      ((document text state).map (Except.map Prod.fst)) := by
  have hnone : ∀ lexeme : Lexeme, lexeme.isAngle = true → ¬ (some lexeme).isNone = true :=
    fun _ _ => Bool.false_ne_true
  have hruns : Runs text 1 (stream.size + 1) (declarations Option.isNone Machine.declaration)
      (Reader.declarations Option.isNone (Reader.declaration text)) :=
    runs_declarations hnone takes_declaration
  have hagrees := hruns h (Nat.lt_succ_self _)
  rw [Document.ofStream, document, bind_eq]
  generalize declarations Option.isNone Machine.declaration text state = answer at hagrees ⊢
  generalize Reader.declarations Option.isNone (Reader.declaration text) stream = answer'
    at hagrees ⊢
  cases hagrees with
  | ok _ hmore hremarks _ =>
    rw [hlost, List.nil_append] at hmore
    cases hmore
    exact .ok hremarks
  | error hboundary => exact .error hboundary

/-- The checked parser finishes on every text, with the document of the text or with its error. -/
theorem finished_parse (text : String) :
    Finished text.toList (Document.ofText text) (parse text.toList) := by
  obtain ⟨answer, htokenize, htokenized⟩ := tokenized_tokenize text
  rw [parse, htokenize, Document.ofText]
  cases hscan : Token.scan text with
  | error error =>
    rw [hscan] at htokenized
    cases htokenized with
    | error hboundary =>
      have hposition : IsBoundary text.toList (SyntaxError.ofScan error).position := hboundary
      dsimp only [Option.bind_eq_bind, Option.bind_some]
      rw [report_eq hposition]
      exact .error hposition
  | ok tokens =>
    rw [hscan] at htokenized
    cases htokenized
    have hfinished := finished_document (stands_start hscan) rfl
    dsimp only [Option.bind_eq_bind, Option.bind_some]
    generalize document text.toList _ = answer at hfinished
    cases answer <;> exact hfinished

/-- Reading a text finishes: nothing that is checked on the way ever fails. -/
structure Finishes (text : String) : Prop where
  /-- The checked scanner finishes, with the tokens of the text or with its error. -/
  scan : tokenize text.toList
    = some ((Token.scan text).map (cellsOf · (byteLength text.toList)))
  /-- The checked parser finishes, with the document of the text or with its error. -/
  parse : parse text.toList = some (match Document.ofText text with
    | .ok document => .ok document
    | .error error => .error ⟨error, error.place text⟩)
  /-- Errors stand between two characters, or at an end of the text. -/
  error : ∀ error, Document.ofText text = .error error → IsBoundary text.toList error.position
  /-- So do remarks. -/
  lost : ∀ document, Document.ofText text = .ok document →
    ∀ lost ∈ document.lost, IsBoundary text.toList lost.position
  /-- Every declaration takes a token. -/
  declaration : Reader.Takes (Reader.declaration text.toList)
  /-- Every member takes a token. -/
  member : Reader.Takes (Reader.member TypeExpr.reader)

/-- Every text is read without a cut between the bytes of a character or outside of the text,
without a lookup outside of the tokens, without a count below zero, and without a loop that does
not end. -/
theorem finishes (text : String) : Finishes text where
  scan := by
    obtain ⟨answer, htokenize, htokenized⟩ := tokenized_tokenize text
    rw [htokenize]
    generalize (Token.scan text).map _ = tokens at htokenized ⊢
    cases htokenized <;> rfl
  parse := by
    have hfinished := finished_parse text
    generalize Document.ofText text = answer at hfinished ⊢
    generalize Checked.parse text.toList = checked at hfinished
    cases hfinished <;> rfl
  error := by
    intro error herror
    have hfinished := finished_parse text
    rw [herror] at hfinished
    generalize Checked.parse text.toList = checked at hfinished
    cases hfinished with
    | error hboundary => exact hboundary
  lost := by
    intro document hdocument
    have hfinished := finished_parse text
    rw [hdocument] at hfinished
    generalize Checked.parse text.toList = checked at hfinished
    cases hfinished with
    | ok hremarks => exact hremarks
  declaration := Reader.takes_of_takes fun _ =>
    Simulation.takes_declaration (Simulation.verbatim_same text.toList)
  member := Reader.takes_member

end Facade.Checked
