import Facade.Proofs.Declaration.Nodes
import Facade.Proofs.Declaration.WrittenParameters

/-!
# Parameters in their places

The parameters of a declaration, at any depth of its types, are what is kept of those that are
written in it, each at a place of its own (`PlacedParameter`). The declaration `Holds` them in their
order, and a rest type for each whose dots are kept. And they account for dots and remarks: the dots
that are taken are those of the parameters, and the remarks are about those among them that lose
their dots (`Tally`).
-/

set_option autoImplicit false

namespace Facade

/-! ### Dots -/

/-- Whether the token is the three dots of a rest parameter. -/
def Token.isEllipsis (token : Token) : Bool :=
  token.lexeme = .mark .ellipsis

/-- Where the dots among some tokens start. -/
def dotsOf (tokens : List Token) : List Nat :=
  (tokens.filter Token.isEllipsis).map Token.start

/-- There are as many places as tokens that are dots. -/
theorem length_dotsOf (tokens : List Token) :
    (dotsOf tokens).length = tokens.countP Token.isEllipsis := by
  rw [dotsOf, List.length_map, List.countP_eq_length_filter]

/-- The dots among tokens in two parts are those of each. -/
theorem dotsOf_append (first second : List Token) :
    dotsOf (first ++ second) = dotsOf first ++ dotsOf second := by
  rw [dotsOf, List.filter_append, List.map_append]
  rfl

/-- A token that is not the dots adds none. -/
theorem dotsOf_cons {token : Token} (h : token.lexeme ≠ .mark .ellipsis) (rest : List Token) :
    dotsOf (token :: rest) = dotsOf rest := by
  rw [dotsOf, List.filter_cons_of_neg]
  · rfl
  · rw [Token.isEllipsis, decide_eq_true_eq]
    exact h

/-- The dots in front are the first. -/
theorem dotsOf_ellipsis {token : Token} (h : token.lexeme = .mark .ellipsis) (rest : List Token) :
    dotsOf (token :: rest) = token.start :: dotsOf rest := by
  rw [dotsOf, List.filter_cons_of_pos]
  · rfl
  · rw [Token.isEllipsis, decide_eq_true_eq]
    exact h

section

variable {stream : Stream}

/-- To go on by a token that is not the dots passes none. -/
theorem dotsOf_tail {lexeme : Lexeme} (hnext : stream.next? = some lexeme)
    (h : lexeme ≠ .mark .ellipsis) : dotsOf stream.tail.tokens = dotsOf stream.tokens := by
  obtain ⟨tokens, stop⟩ := stream
  cases tokens with
  | nil => cases hnext
  | cons token rest =>
    cases hnext
    exact (dotsOf_cons h rest).symm

/-- To go on by the dots passes those that start where the stream stands. -/
theorem dotsOf_eq_position (hnext : stream.next? = some (.mark .ellipsis)) :
    dotsOf stream.tokens = stream.position :: dotsOf stream.tail.tokens := by
  obtain ⟨tokens, stop⟩ := stream
  cases tokens with
  | nil => cases hnext
  | cons token rest => exact dotsOf_ellipsis (Option.some.inj hnext) rest

/-- A half of a mark of angle brackets is no dots. -/
theorem dotsOf_behindAngle (h : stream.startsAngle = true) :
    dotsOf stream.behindAngle.tokens = dotsOf stream.tokens := by
  obtain ⟨tokens, stop⟩ := stream
  match tokens with
  | [] => cases h
  | ⟨lexeme, start, behind⟩ :: rest =>
    cases lexeme with
    | mark mark =>
      cases mark <;> first
        | rfl
        | cases h
    | _ => cases h

end

/-- There are no dots in a dotted name. -/
theorem dotsOf_splitDotted (tokens : List Token) :
    dotsOf (Reader.splitDotted tokens).2 = dotsOf tokens := by
  fun_induction Reader.splitDotted tokens with
  | case1 dot name rest hdot text hname more behind hbehind ih =>
    have hne : name.lexeme ≠ .mark .ellipsis := by
      rintro heq
      rw [heq] at hname
      cases hname
    rw [hbehind] at ih
    rw [dotsOf_cons (by rw [hdot]; decide), dotsOf_cons hne, ih]
  | _ => rfl

/-- There are none in the brackets of array types. -/
theorem dotsOf_splitBrackets (tokens : List Token) :
    dotsOf (Reader.splitBrackets tokens).2 = dotsOf tokens := by
  fun_induction Reader.splitBrackets tokens with
  | case1 opening closing rest hbrackets more behind hbehind ih =>
    rw [Bool.and_eq_true, decide_eq_true_eq, decide_eq_true_eq] at hbrackets
    rw [hbehind] at ih
    rw [dotsOf_cons (by rw [hbrackets.1]; decide), dotsOf_cons (by rw [hbrackets.2]; decide), ih]
  | _ => rfl

/-- There are none in modifiers. -/
theorem dotsOf_splitModifiers (tokens : List Token) :
    dotsOf (Reader.splitModifiers tokens).2 = dotsOf tokens := by
  fun_induction Reader.splitModifiers tokens with
  | case2 token rest hmodifier isStatic behind hbehind ih =>
    have hne : token.lexeme ≠ .mark .ellipsis := by
      intro heq
      rw [heq] at hmodifier
      cases hmodifier
    rw [hbehind] at ih
    rw [dotsOf_cons hne, ih]
  | _ => rfl

/-- There are none in semicolons. -/
theorem dotsOf_splitSemicolons (tokens : List Token) :
    dotsOf (Reader.splitSemicolons tokens).2 = dotsOf tokens := by
  rw [Reader.splitSemicolons]
  induction tokens with
  | nil => rfl
  | cons token rest ih =>
    rw [List.dropWhile_cons]
    split
    · rename_i hsemicolon
      rw [ih, dotsOf_cons]
      rw [eq_of_beq hsemicolon]
      decide
    · rfl

/-! ### Parameters and what becomes of their dots -/

namespace WrittenParameter

/-- Dots are written, and they are kept as a rest type. -/
def isRepeated (written : WrittenParameter) : Bool :=
  written.hasDots && (written.type.bind TypeExpr.arrayElement?).isSome

/-- Dots are written, and they are dropped. -/
def isLost (written : WrittenParameter) : Bool :=
  written.hasDots && (written.type.bind TypeExpr.arrayElement?).isNone

/-- Without its dots, a parameter is kept as it is written. -/
theorem kept_of_isLost {written : WrittenParameter} (h : written.isLost = true) :
    written.kept = ⟨written.name, written.optional, written.type⟩ := by
  rw [isLost, Bool.and_eq_true, Option.isNone_iff_eq_none] at h
  rw [kept, keptType, if_pos h.1, h.2]

/-- The type is kept as it is, or it is a type of arrays that becomes a rest type. -/
theorem keptType_cases (written : WrittenParameter) :
    (written.isRepeated = false ∧ written.keptType = written.type)
      ∨ (written.isRepeated = true ∧ ∃ element, written.type = some (.array element)
          ∧ written.keptType = some (.repeated element)) := by
  rw [isRepeated, keptType]
  cases written.hasDots with
  | false => exact .inl ⟨rfl, rfl⟩
  | true =>
    cases helement : written.type.bind TypeExpr.arrayElement? with
    | none => exact .inl ⟨rfl, rfl⟩
    | some element =>
      obtain ⟨array, hsome, harray⟩ := Option.bind_eq_some_iff.mp helement
      rw [TypeExpr.eq_array_of_arrayElement? harray] at hsome
      exact .inr ⟨rfl, element, hsome, rfl⟩

end WrittenParameter

/-- A parameter that is read, with all that is written of it, and the place where it starts. -/
structure PlacedParameter where
  place : Stream
  written : WrittenParameter

namespace PlacedParameter

/-- The parameter is written at a place of the tokens. -/
def IsIn (all : List Token) (parameter : PlacedParameter) : Prop :=
  parameter.place.tokens <:+ all ∧ ∃ reading,
    Reader.writtenParameter TypeExpr.reader parameter.place = .ok reading
      ∧ reading.value = parameter.written

/-- What is kept of the parameter. -/
def kept (parameter : PlacedParameter) : Parameter :=
  parameter.written.kept

/-- Where the dots of the parameter start. -/
def dots? (parameter : PlacedParameter) : Option Nat :=
  if parameter.written.hasDots then some parameter.place.position else none

/-- What is said about the parameter if it loses its dots. -/
def lost (parameter : PlacedParameter) : LostRest :=
  ⟨parameter.written.name, parameter.written.type, parameter.place.position⟩

/-- What is said about the parameter. -/
def lost? (parameter : PlacedParameter) : Option LostRest :=
  if parameter.written.isLost then some parameter.lost else none

/-- A parameter has the place of its dots if they are written. -/
theorem toList_dots? (parameter : PlacedParameter) : parameter.dots?.toList
    = if parameter.written.hasDots then [parameter.place.position] else [] := by
  rw [dots?]
  split <;> rfl

/-- What is picked from one parameter is what it has. -/
theorem filterMap_one {α : Type} (f : PlacedParameter → Option α) (parameter : PlacedParameter) :
    [parameter].filterMap f = (f parameter).toList := by
  rw [List.filterMap_cons]
  cases f parameter <;> rfl

end PlacedParameter

/-- The types and parameters hold these parameters in their order, and as many rest types as they
have dots that are kept. -/
structure Holds (nodes : List Node) (placed : List PlacedParameter) : Prop where
  parameters : nodes.filterMap Node.parameter? = placed.map PlacedParameter.kept
  repeated : nodes.countP Node.isRepeated = placed.countP fun parameter =>
    parameter.written.isRepeated

section

variable {nodes nodes' : List Node} {placed placed' : List PlacedParameter}

/-- No types hold no parameters. -/
theorem holds_nil : Holds [] [] :=
  ⟨rfl, rfl⟩

/-- Types in two parts hold the parameters of each. -/
theorem Holds.append (h : Holds nodes placed) (h' : Holds nodes' placed') :
    Holds (nodes ++ nodes') (placed ++ placed') where
  parameters := by rw [List.filterMap_append, List.map_append, h.parameters, h'.parameters]
  repeated := by rw [List.countP_append, List.countP_append, h.repeated, h'.repeated]

/-- A type that is no rest type adds nothing to what is inside of it. -/
theorem Holds.type (h : Holds nodes placed) {type : TypeExpr}
    (htype : (Node.type type).isRepeated = false) : Holds (.type type :: nodes) placed where
  parameters := h.parameters
  repeated := by
    rw [List.countP_cons_of_neg (by rw [htype]; exact Bool.false_ne_true)]
    exact h.repeated

/-- A parameter comes behind those in its type. -/
theorem Holds.parameter {written : WrittenParameter} (h : Holds (optionNodes written.type) placed)
    (place : Stream) : Holds written.kept.nodes (placed ++ [⟨place, written⟩]) := by
  have hnodes : written.kept.nodes
      = optionNodes written.keptType ++ [.parameter written.kept] := rfl
  have hcount : [(⟨place, written⟩ : PlacedParameter)].countP
      (fun parameter => parameter.written.isRepeated) = if written.isRepeated then 1 else 0 :=
    List.countP_singleton
  rcases written.keptType_cases with ⟨hrepeated, hkept⟩ | ⟨hrepeated, element, htype, hkept⟩
  · rw [hkept] at hnodes
    constructor
    · rw [hnodes, List.filterMap_append, List.map_append, h.parameters]
      rfl
    · rw [hnodes, List.countP_append, List.countP_append, h.repeated, hcount, hrepeated]
      rfl
  -- The rest type takes the place of the type of arrays.
  · rw [hkept, optionNodes, TypeExpr.nodes] at hnodes
    rw [htype, optionNodes, TypeExpr.nodes_array] at h
    constructor
    · rw [hnodes, List.filterMap_append, List.map_append, ← h.parameters]
      rfl
    · rw [hnodes, List.countP_append, List.countP_append, ← h.repeated, hcount, hrepeated]
      simp [List.countP_cons, Node.isRepeated, TypeExpr.array]

end

variable {all : List Token}

/-- Some parameters that are read in their places account for the remarks that are left, and for all
dots but those that are left. -/
structure Tally (all : List Token) (dots left : List Nat) (lost : List LostRest)
    (placed : List PlacedParameter) : Prop where
  isIn : ∀ parameter ∈ placed, parameter.IsIn all
  lost : lost = placed.filterMap PlacedParameter.lost?
  perm : dots.Perm (placed.filterMap PlacedParameter.dots? ++ left)

section

variable {dots left left' : List Nat} {lost lost' : List LostRest}
  {placed placed' : List PlacedParameter}

/-- Where all dots are left, there need not be any parameters. -/
theorem tally_nil (h : left = dots) : Tally all dots left [] [] where
  isIn _ hin := absurd hin List.not_mem_nil
  lost := rfl
  perm := .of_eq h.symm

/-- What two parts account for is accounted for together. -/
theorem Tally.append (h : Tally all dots left lost placed)
    (h' : Tally all left left' lost' placed') :
    Tally all dots left' (lost ++ lost') (placed ++ placed') where
  isIn parameter hin := (List.mem_append.mp hin).elim (h.isIn parameter) (h'.isIn parameter)
  lost := by rw [List.filterMap_append, h.lost, h'.lost]
  perm := by
    rw [List.filterMap_append, List.append_assoc]
    exact h.perm.trans (h'.perm.append_left _)

/-- Other dots in front are left as well. -/
theorem Tally.behind (h : Tally all dots left lost placed) (others : List Nat) :
    Tally all (others ++ dots) (others ++ left) lost placed where
  isIn := h.isIn
  lost := h.lost
  perm := (h.perm.append_left others).trans (List.perm_append_comm_assoc _ _ _)

end

end Facade
