import Facade.Proofs.Declaration.Ensures
import Mathlib.Logic.Basic

/-!
# The text of a file is used for nothing but to be kept

The readers of declarations take the characters of a file as a parameter, and cut the statements out
of them that are kept as they are written. Nothing else depends on them: without any characters the
same is read, with the same remarks and errors, only that those statements are empty
(`ofStream_withoutTexts`).
-/

set_option autoImplicit false

namespace Facade

mutual

/-- A declaration with nothing in place of the statements that are kept as they are written. -/
def Declaration.withoutTexts : Declaration → Declaration
  | .unsupported _ => .unsupported ""
  | .namespace path inner => .namespace path (withoutTextsAll inner)
  | declaration => declaration

/-- The same for each of several declarations. -/
def withoutTextsAll : List Declaration → List Declaration
  | [] => []
  | first :: rest => first.withoutTexts :: withoutTextsAll rest

end

mutual

/-- Where there are no texts, there are none to take out. -/
theorem Declaration.withoutTexts_withoutTexts : (declaration : Declaration) →
    declaration.withoutTexts.withoutTexts = declaration.withoutTexts
  | .unsupported _ => rfl
  | .namespace path inner => congrArg (Declaration.namespace path) (withoutTextsAll_twice inner)
  | .variable .. | .function .. | .interface .. | .alias .. | .class .. => rfl

/-- A second time, there is nothing left to leave out. -/
theorem withoutTextsAll_twice : (declarations : List Declaration) →
    withoutTextsAll (withoutTextsAll declarations) = withoutTextsAll declarations
  | [] => rfl
  | first :: rest =>
    congrArg₂ List.cons first.withoutTexts_withoutTexts (withoutTextsAll_twice rest)

end

/-- The texts are left out of each declaration by itself. -/
theorem withoutTextsAll_eq_map (declarations : List Declaration) :
    withoutTextsAll declarations = declarations.map Declaration.withoutTexts := by
  induction declarations with
  | nil => rfl
  | cons first rest ih => rw [withoutTextsAll, ih, List.map_cons]

/-- A plain declaration has no texts to leave out. -/
theorem Declaration.IsPlain.withoutTexts {declaration : Declaration} (h : declaration.IsPlain) :
    declaration.withoutTexts = declaration := by
  cases declaration <;> first | rfl | cases h

namespace Reader

variable {α β γ : Type}

/-! ### Readers with changed answers -/

/-- To change the answer of a reader is to read and then answer. -/
theorem map_eq (f : α → β) (reader : Reader α) :
    f <$> reader = reader >>= fun value => pure (f value) :=
  rfl

/-- To change the answer of two readers in a row is to change that of the second. -/
theorem map_bind (f : β → γ) (reader : Reader α) (next : α → Reader β) :
    f <$> (reader >>= next) = reader >>= fun value => f <$> next value :=
  bind_assoc reader next fun value => pure (f value)

/-- A reader behind a changed answer gets the changed answer. -/
theorem bind_map (f : α → β) (reader : Reader α) (next : β → Reader γ) :
    f <$> reader >>= next = reader >>= fun value => next (f value) := by
  rw [map_eq, bind_assoc]
  simp only [pure_bind]

/-- A changed value is a value. -/
theorem map_pure (f : α → β) (value : α) : f <$> (pure value : Reader α) = pure (f value) :=
  pure_bind value fun value => pure (f value)

/-- A failure has no answer to change. -/
theorem map_fail (f : α → β) (wanted : Wanted) :
    f <$> (fail wanted : Reader α) = fail wanted :=
  rfl

/-- The answer of a choice is changed in both branches. -/
theorem map_ite (f : α → β) (condition : Prop) [Decidable condition] (first second : Reader α) :
    f <$> (if condition then first else second)
      = if condition then f <$> first else f <$> second := by
  split <;> rfl

/-- What the body makes of calls with changed answers decides what a recursive reader answers. -/
theorem recursive_map {f : α → β} {stuck : Reader α} {stuck' : Reader β}
    {body : Reader α → Reader α} {body' : Reader β → Reader β} (hstuck : stuck' = f <$> stuck)
    (hbody : ∀ reader : Reader α, body' (f <$> reader) = f <$> body reader) :
    recursive stuck' body' = f <$> recursive stuck body := by
  have hnested : ∀ depth : List Token, @Eq (Reader β) (nested stuck' body' depth)
      (Functor.map (f := Reader) f (nested stuck body depth)) := by
    intro depth
    induction depth with
    | nil => exact (congrArg body' hstuck).trans (hbody stuck)
    | cons _ depth ih => exact (congrArg body' ih).trans (hbody _)
  funext stream
  exact congrFun (hnested stream.tokens) stream

/-! ### Readers of declarations -/

/-- Plain declarations stay as they are. -/
theorem MakesPlain.map {reader : Reader Declaration} (h : MakesPlain reader) :
    Declaration.withoutTexts <$> reader = reader := by
  funext stream
  have hplain := h stream
  rw [map_eq, bind_eq]
  cases hread : reader stream with
  | error error => rfl
  | ok reading =>
    show Except.ok (Reading.mk reading.value.withoutTexts (reading.lost ++ []) reading.rest) = _
    rw [(hplain reading hread).withoutTexts, List.append_nil]

/-- Without characters, a statement is read with an empty text. -/
theorem statement_withoutTexts (text : List Char) (position : Nat) :
    statement [] position = Declaration.withoutTexts <$> statement text position := by
  funext stream
  rw [map_eq, bind_eq, statement, statement]
  have hslice : ∀ stop, String.ofList (Text.slice [] position stop) = "" := by
    intro stop
    rfl
  cases splitStatement 0 position stream.tokens with
  | done stop rest =>
    dsimp only
    rw [hslice]
    rfl
  | stray rest => rfl
  | unclosed => rfl

/-- If the texts are left out of one declaration, they are left out of all. -/
theorem declarations_map (stops : Option Lexeme → Bool) (declaration : Reader Declaration) :
    declarations stops (Declaration.withoutTexts <$> declaration)
      = withoutTextsAll <$> declarations stops declaration := by
  refine recursive_map rfl fun more => ?_
  simp only [map_bind, map_ite, map_pure, bind_map, withoutTextsAll]

/-- So they are in a namespace. -/
theorem namespaceBody_map (declaration : Reader Declaration) :
    namespaceBody (Declaration.withoutTexts <$> declaration)
      = Declaration.withoutTexts <$> namespaceBody declaration := by
  rw [namespaceBody, namespaceBody]
  simp only [declarations_map, map_bind, map_pure, bind_map, Declaration.withoutTexts]

/-- So they are behind modifiers. -/
theorem declarationBody_map (declaration : Reader Declaration) :
    declarationBody (Declaration.withoutTexts <$> declaration)
      = Declaration.withoutTexts <$> declarationBody declaration := by
  rw [declarationBody, declarationBody, map_bind]
  refine congrArg (look Stream.next? >>= ·) (funext fun next => ?_)
  -- Only a namespace has declarations inside of it.
  split <;> simp only [map_bind, map_ite, map_fail, makesPlain_variableBody.map,
    makesPlain_functionBody.map, makesPlain_interfaceBody.map, makesPlain_classBody.map,
    makesPlain_aliasBody.map, namespaceBody_map]

/-- Without its characters, the declarations of a file are the same, up to the texts that are
kept. -/
theorem declaration_withoutTexts (text : List Char) :
    declaration [] = Declaration.withoutTexts <$> declaration text := by
  refine recursive_map rfl fun reader => ?_
  rw [declarationOrStatement, declarationOrStatement]
  simp only [map_bind, map_ite, statement_withoutTexts text, declarationBody_map]

end Reader

/-- Without its characters, a file is read as the same declarations, up to the texts that are
kept. -/
theorem Document.ofStream_withoutTexts (text : List Char) (stream : Stream) :
    ofStream [] stream = match ofStream text stream with
      | .ok document => .ok ⟨withoutTextsAll document.declarations, document.lost⟩
      | .error error => .error error := by
  rw [ofStream, ofStream, Reader.declaration_withoutTexts text, Reader.declarations_map,
    Reader.map_eq, Reader.bind_eq]
  cases Reader.declarations Option.isNone (Reader.declaration text) stream with
  | error error => rfl
  | ok reading =>
    show Except.ok (Document.mk (withoutTextsAll reading.value) (reading.lost ++ [])) = _
    rw [List.append_nil]

end Facade
