import Facade.Proofs.Definition.Identifier
import Facade.Proofs.Definition.Packages

/-!
# The names in a source

Every name in the source of a facade is a piece of a line, apart from the words around it
(`Piece.name`), or the name of a package. `blockNames` lists them all.

Where they come from is one question for each sort of definition. Types, type parameters and
parameters have words for names; packages and members have what they are given. `Definition.Spelled`
is that condition on a definition, with two conditions left open for the names of packages and of
members. The lemmas about `pieces` say that a line of a definition that is spelled so has such names
only.
-/

set_option autoImplicit false

namespace Facade

/-! ### Names of lines and blocks -/

/-- The name that a piece is, if it is one. -/
def Piece.name? : Piece → Option Identifier
  | .words _ => none
  | .name identifier => some identifier

/-- The names in a line. -/
def namesIn (pieces : List Piece) : List Identifier :=
  pieces.filterMap Piece.name?

/-- There are no names in no pieces. -/
@[simp] theorem namesIn_nil : namesIn [] = [] := rfl

/-- Words are no name. -/
@[simp] theorem namesIn_words (text : String) (rest : List Piece) :
    namesIn (.words text :: rest) = namesIn rest := rfl

/-- A name in front is the first of the names. -/
@[simp] theorem namesIn_name (name : Identifier) (rest : List Piece) :
    namesIn (.name name :: rest) = name :: namesIn rest := rfl

/-- The names in pieces in two parts are those of each. -/
@[simp] theorem namesIn_append (front back : List Piece) :
    namesIn (front ++ back) = namesIn front ++ namesIn back :=
  List.filterMap_append

/-- Separators have no names. -/
@[simp] theorem namesIn_joinedPieces (separator : String) (runs : List (List Piece)) :
    namesIn (joinedPieces separator runs) = runs.flatMap namesIn := by
  induction runs with
  | nil => rfl
  | cons run rest ih =>
    cases rest with
    | nil => simp [joinedPieces]
    | cons next rest => simp [joinedPieces, ih]

mutual

/-- The names in a block, however deep. -/
def Block.names : Block → List Identifier
  | .blank => []
  | .line pieces => namesIn pieces
  | .comment _ => []
  | .template head body => namesIn head.pieces ++ blockNames body
  | .package name body => name :: blockNames body

/-- The names in blocks, however deep. -/
def blockNames : List Block → List Identifier
  | [] => []
  | block :: rest => block.names ++ blockNames rest

end

/-- What holds of the names in blocks holds of those in each of them. -/
theorem forall_mem_blockNames {post : Identifier → Prop} {blocks : List Block} :
    (∀ name ∈ blockNames blocks, post name)
      ↔ ∀ block ∈ blocks, ∀ name ∈ block.names, post name := by
  induction blocks with
  | nil => exact iff_of_true (fun _ h => by cases h) fun _ h => absurd h List.not_mem_nil
  | cons block rest ih => rw [blockNames, List.forall_mem_append, List.forall_mem_cons, ih]

/-! ### Types -/

/-- All names in a type are words. -/
def ScalaType.Spelled (type : ScalaType) : Prop :=
  ∀ name ∈ namesIn type.pieces, name.IsWord

/-- The names in a list of names are those names. -/
theorem namesIn_names (separator : String) (names : List Identifier) :
    namesIn (joinedPieces separator (names.map fun name => [.name name])) = names := by
  rw [namesIn_joinedPieces, List.flatMap_map]
  exact List.flatMap_singleton' names

namespace ScalaType

/-- Types are written in pieces one by one. -/
theorem piecesAll_eq_map (types : List ScalaType) : piecesAll types = types.map pieces := by
  induction types with
  | nil => rw [piecesAll, List.map_nil]
  | cons type rest ih => rw [piecesAll, List.map_cons, ih]

/-- A path of words applied to types is spelled in words. -/
theorem spelled_applied {path : DottedName} {arguments : List ScalaType}
    (hpath : ∀ name ∈ path.segments, name.IsWord) (harguments : ∀ type ∈ arguments, type.Spelled) :
    Spelled ⟨path, arguments⟩ := by
  have hname : ∀ name ∈ namesIn path.pieces, name.IsWord := by
    rwa [DottedName.pieces, namesIn_names]
  rw [Spelled, pieces, piecesAll_eq_map]
  obtain _ | ⟨first, _ | ⟨second, rest⟩⟩ := arguments
  · exact hname
  · have hfirst : ∀ name ∈ namesIn first.pieces, name.IsWord :=
      harguments first (List.mem_singleton.mpr rfl)
    rw [List.map_singleton, piecesApplied]
    split
    · simpa using hfirst
    · simpa [List.forall_mem_append, or_imp, forall_and] using ⟨hname, hfirst⟩
  · rw [List.map_cons, List.map_cons, piecesApplied]
    · simp only [namesIn_append, namesIn_words, namesIn_joinedPieces, namesIn_nil, List.append_nil]
      rw [List.forall_mem_append, ← List.map_cons, ← List.map_cons, List.flatMap_map]
      refine ⟨hname, fun name hin => ?_⟩
      obtain ⟨type, htype, hin⟩ := List.mem_flatMap.mp hin
      exact harguments type htype name hin
    · intro hnone
      cases hnone
    · intro _ hone
      cases hone

/-- The mark of any number of arguments is no name. -/
theorem spelled_repeated {element : ScalaType} (h : element.Spelled) :
    (repeated element).Spelled := by
  rw [Spelled, repeated, pieces, piecesAll_eq_map, List.map_singleton, piecesApplied, if_pos rfl]
  simpa [Spelled] using h

end ScalaType

/-! ### Definitions -/

/-- The name of a parameter is a word, and its type has words only. -/
structure MethodParameter.Spelled (parameter : MethodParameter) : Prop where
  name : parameter.name.IsWord
  type : parameter.type.Spelled

/-- The names in front of a definition: those of packages and of members keep to conditions, and all
others are words. -/
def Definition.Spelled (package member : Identifier → Prop) : Definition → Prop
  | .comment _ => True
  | .package definition => package definition.name
  | .class definition => definition.name.IsWord ∧ (∀ name ∈ definition.typeParameters, name.IsWord)
      ∧ ∀ type ∈ definition.parents, type.Spelled
  | .object definition => definition.name.IsWord
  | .field definition => member definition.name ∧ definition.type.Spelled
  | .method definition => (definition.name = .constructor ∨ member definition.name)
      ∧ (∀ name ∈ definition.typeParameters, name.IsWord)
      ∧ (∀ parameter ∈ definition.parameters, parameter.Spelled) ∧ definition.result.Spelled

variable {package member : Identifier → Prop}

/-- The names in type parameters are those of the type parameters. -/
theorem namesIn_typeParameterPieces (names : List Identifier) :
    namesIn (typeParameterPieces names) = names := by
  cases names with
  | nil => rfl
  | cons name rest =>
    rw [typeParameterPieces, namesIn_append, namesIn_words, namesIn_names]
    exact List.append_nil _

/-- The names in a parameter that is spelled out are words. -/
theorem MethodParameter.Spelled.isWord_of_mem {parameter : MethodParameter}
    (h : parameter.Spelled) : ∀ name ∈ namesIn parameter.pieces, name.IsWord := by
  rw [MethodParameter.pieces]
  intro name hin
  have hin : name = parameter.name ∨ name ∈ namesIn parameter.type.pieces := by
    cases hdefault : parameter.hasDefault <;> simpa [hdefault] using hin
  rcases hin with rfl | hin
  · exact h.name
  · exact h.type name hin

/-- So are those in a list of such parameters. -/
theorem isWord_of_mem_parameterPieces {parameters : List MethodParameter}
    (h : ∀ parameter ∈ parameters, parameter.Spelled) :
    ∀ name ∈ namesIn (parameterPieces parameters), name.IsWord := by
  intro name hin
  have hin : name ∈ (parameters.map MethodParameter.pieces).flatMap namesIn := by
    simpa [parameterPieces] using hin
  rw [List.flatMap_map] at hin
  obtain ⟨parameter, hparameter, hin⟩ := List.mem_flatMap.mp hin
  exact (h parameter hparameter).isWord_of_mem name hin

/-- The names in the line of a field. -/
theorem Field.forall_names {definition : Field}
    (h : (Definition.field definition).Spelled package member) :
    ∀ name ∈ namesIn definition.pieces, name.IsWord ∨ member name := by
  intro name hin
  have hin : name = definition.name ∨ name ∈ namesIn definition.type.pieces := by
    simpa [Field.pieces] using hin
  rcases hin with rfl | hin
  · exact .inr h.1
  · exact .inl (h.2 name hin)

/-- The names in the line of a method. A constructor is written without its name. -/
theorem Method.forall_names {definition : Method} {pieces : List Piece}
    (h : (Definition.method definition).Spelled package member)
    (hpieces : pieces ∈ definition.pieces?) :
    ∀ name ∈ namesIn pieces, name.IsWord ∨ member name := by
  obtain ⟨hname, htypeParameters, hparameters, hresult⟩ := h
  have hparameterNames := isWord_of_mem_parameterPieces hparameters
  rw [Method.pieces?] at hpieces
  split at hpieces
  · split at hpieces
    · cases hpieces
    · cases hpieces
      intro name hin
      exact .inl (hparameterNames name (by simpa using hin))
  · rename_i hconstructor
    cases hpieces
    -- A constructor would be written without its name, so this is a member's.
    have hown : member definition.name := by
      refine hname.resolve_left fun heq => hconstructor ?_
      rw [heq]
      rfl
    intro name hin
    simp only [namesIn_append, namesIn_words, namesIn_name, namesIn_typeParameterPieces,
      namesIn_nil, List.append_nil, List.cons_append, List.append_assoc, List.mem_cons,
      List.mem_append] at hin
    rcases hin with rfl | hin | hin | hin
    · exact .inr hown
    · exact .inl (htypeParameters name hin)
    · exact .inl (hparameterNames name hin)
    · exact .inl (hresult name hin)

/-- The names in the lines of fields and methods. -/
theorem Definition.forall_names_leafBlocks {definition : Definition}
    (h : definition.Spelled package member) :
    ∀ name ∈ blockNames definition.leafBlocks, name.IsWord ∨ member name := by
  rw [forall_mem_blockNames]
  cases definition with
  | field definition => exact List.forall_mem_singleton.mpr (Field.forall_names h)
  | method definition =>
    intro block hblock
    obtain ⟨pieces, hpieces, rfl⟩ := Option.map_eq_some_iff.mp (Option.mem_toList.mp hblock)
    exact Method.forall_names h hpieces
  | _ => exact fun _ hin => absurd hin List.not_mem_nil

/-- The names in the line that opens a template are its own, those of its type parameters, and those
of its parents. -/
theorem Head.forall_names {head : Head} (hname : head.name.IsWord)
    (htypeParameters : ∀ name ∈ head.typeParameters, name.IsWord)
    (hparents : ∀ type ∈ head.parents, type.Spelled) :
    ∀ name ∈ namesIn head.pieces, name.IsWord := by
  intro name hin
  rw [Head.pieces] at hin
  have hcases : name = head.name ∨ name ∈ head.typeParameters
      ∨ name ∈ head.parents.flatMap fun type => namesIn type.pieces := by
    by_cases hempty : head.parents = []
    · simpa [hempty, namesIn_typeParameterPieces] using hin
    · simpa [hempty, namesIn_typeParameterPieces, List.flatMap_map, or_assoc] using hin
  rcases hcases with rfl | hin | hin
  · exact hname
  · exact htypeParameters name hin
  · obtain ⟨type, htype, hin⟩ := List.mem_flatMap.mp hin
    exact hparents type htype name hin

end Facade
