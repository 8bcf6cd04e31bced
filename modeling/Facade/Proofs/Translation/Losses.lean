import Facade.Proofs.Declaration.FormedDocument
import Facade.Proofs.Translation.Recording
import Facade.Proofs.Translation.Varargs

/-!
# What the mapping of a type loses

The mapping of types goes into some of the types that a type is made of, and leaves others alone:
nothing below a type without a counterpart is looked at, and the result of a function is not, if the
function becomes one of which nothing is known. `TypeExpr.visited` lists what it comes to, in order,
and `TypeExpr.isLossy` says of one type alone whether something of it is lost.

`TypeExpr.warnings_toScala` ties the two to the mapping: there is one warning for each lossy type
that is visited, and no other. A type of which nothing at all is lost is `Faithful`, which is said
without the mapping and without what it visits.

A function is lossy if it takes any number of arguments. The mapping sees that in what the types of
its parameters become, so a name that is spelled like the repeated type would deceive it; no
document that is read has such a name.
-/

set_option autoImplicit false

namespace Facade

/-! ### Lossy types -/

/-- The parameter takes any number of arguments, parentheses around its type aside. -/
def Parameter.takesMany (parameter : Parameter) : Bool :=
  parameter.type.any fun type => type.unwrap.isRepeated

namespace TypeExpr

/-- Whether something of the type itself is lost, whatever becomes of the types inside of it. -/
def isLossy : TypeExpr → Bool
  | .primitive _ => false
  | .named _ _ => false
  | .repeated _ => false
  | .parenthesized _ => false
  | .function signature =>
    !signature.typeParameters.isEmpty || signature.parameters.any Parameter.takesMany
  | .object _ => true
  | .constructor _ => true
  | .union _ => true
  | .intersection _ => true
  | .tuple _ => true
  | .literal _ => true
  | .query _ => true

/-- The warning of a lossy type. -/
def loss : TypeExpr → Warning
  | .function signature => .untypedFunction (.function signature)
  | type => .widened type

/-- A loss of a type is a simplification. -/
theorem kind_loss (type : TypeExpr) : type.loss.kind = .simplified := by
  cases type <;> rfl

end TypeExpr

mutual

/-- The types that the mapping of a type comes to, in the order in which it is done with them. -/
def TypeExpr.visited : TypeExpr → List TypeExpr
  | .primitive type => [.primitive type]
  | .named path arguments => .named path arguments :: visitedAll arguments
  | .repeated element => .repeated element :: element.visited
  | .parenthesized inner => .parenthesized inner :: inner.visited
  | .function ⟨typeParameters, parameters, result⟩ =>
    visitedParameters parameters ++ .function ⟨typeParameters, parameters, result⟩ ::
      if (TypeExpr.function ⟨typeParameters, parameters, result⟩).isLossy then []
      else visitedOption result
  | .object members => [.object members]
  | .constructor signature => [.constructor signature]
  | .union types => [.union types]
  | .intersection types => [.intersection types]
  | .tuple types => [.tuple types]
  | .literal text => [.literal text]
  | .query path => [.query path]

/-- The same for types, in order. -/
def visitedAll : List TypeExpr → List TypeExpr
  | [] => []
  | type :: rest => type.visited ++ visitedAll rest

/-- The same for a type that may be left out. -/
def visitedOption : Option TypeExpr → List TypeExpr
  | none => []
  | some type => type.visited

/-- The same for the types of parameters. -/
def visitedParameters : List Parameter → List TypeExpr
  | [] => []
  | ⟨_, _, type⟩ :: rest => visitedOption type ++ visitedParameters rest

end

/-- The warnings of the lossy types among some. -/
def lossesOf (types : List TypeExpr) : List Warning :=
  (types.filter TypeExpr.isLossy).map TypeExpr.loss

/-- The losses among types in two parts are those of each. -/
theorem lossesOf_append (first second : List TypeExpr) :
    lossesOf (first ++ second) = lossesOf first ++ lossesOf second := by
  simp [lossesOf]

/-- The first of some types is lossy, or adds no loss. -/
theorem lossesOf_cons (type : TypeExpr) (rest : List TypeExpr) :
    lossesOf (type :: rest) = (if type.isLossy then [type.loss] else []) ++ lossesOf rest := by
  rw [lossesOf, List.filter_cons]
  split <;> rfl

/-- There are as many losses as lossy types. -/
theorem length_lossesOf (types : List TypeExpr) :
    (lossesOf types).length = types.countP TypeExpr.isLossy := by
  rw [lossesOf, List.length_map, List.countP_eq_length_filter]

/-- Nothing is lost if no type is lossy. -/
theorem lossesOf_eq_nil_iff {types : List TypeExpr} :
    lossesOf types = [] ↔ ∀ type ∈ types, type.isLossy = false := by
  simp [lossesOf, List.filter_eq_nil_iff]

/-! ### Parameters that are repeated -/

/-- No type that is written is called like the repeated type. -/
def noRepeatedName : Check where
  type
    | .named path _ => path ≠ ["<repeated>"]
    | _ => True
  signature _ := True
  typeParameter _ := True
  parameter _ := True
  member _ := True
  declaration _ := True

/-- Where no name is spelled like it, only the type of a rest parameter becomes the repeated
type. -/
theorem isRepeated_toScala_unwrap (anyIsDynamic : Bool) {type : TypeExpr}
    (h : type.Every noRepeatedName) :
    (type.toScala anyIsDynamic).value.isRepeated = type.unwrap.isRepeated := by
  match type, h with
  | .primitive type, _ => cases type <;> cases anyIsDynamic <;> rfl
  | .named path arguments, h => exact isRepeated_namedToScala h.1 _
  | .function signature, _ => exact isRepeated_toScala_function anyIsDynamic signature
  | .repeated element, _ => exact congrArg Option.isSome (ScalaType.element?_repeated _)
  | .parenthesized inner, h =>
    rw [TypeExpr.toScala]
    exact isRepeated_toScala_unwrap anyIsDynamic h.2
  | .object _, _ | .constructor _, _ | .union _, _ | .intersection _, _ | .tuple _, _
  | .literal _, _ | .query _, _ => rfl

/-- If no type is called like the repeated one, some parameter is mapped to a repeated one exactly
if some parameter takes any number of arguments. -/
theorem any_isRepeated_parametersToScala {parameters : List Parameter}
    (h : everyParameter noRepeatedName parameters) :
    (parametersToScala parameters).value.any ScalaType.isRepeated
      = parameters.any Parameter.takesMany := by
  induction parameters with
  | nil => rfl
  | cons parameter rest ih =>
    obtain ⟨name, optional, type⟩ := parameter
    rw [parametersToScala, List.any_cons, ← ih h.2]
    show ((toScalaOrAny type).value.isRepeated || _) = _
    congr 1
    cases type with
    | none => rfl
    | some type => exact isRepeated_toScala_unwrap false h.1.2

/-- The mapping says less of a function exactly if the function is lossy. -/
theorem TypeExpr.isLossy_function (typeParameters : List TypeParameter)
    {parameters : List Parameter} (result : Option TypeExpr)
    (h : everyParameter noRepeatedName parameters) :
    (typeParameters.isEmpty && !(parametersToScala parameters).value.any ScalaType.isRepeated)
      = !(TypeExpr.function ⟨typeParameters, parameters, result⟩).isLossy := by
  rw [any_isRepeated_parametersToScala h, isLossy]
  simp

/-! ### One warning for each lossy type -/

mutual

/-- The mapping of a type warns of each lossy type that it visits, and of nothing else. -/
theorem TypeExpr.warnings_toScala (anyIsDynamic : Bool) (type : TypeExpr)
    (h : type.Every noRepeatedName) :
    (type.toScala anyIsDynamic).warnings = lossesOf type.visited := by
  match type, h with
  | .primitive type, _ => rfl
  | .named path arguments, h =>
    rw [TypeExpr.toScala, TypeExpr.visited, lossesOf_cons, ← warnings_toScalaAll arguments h.2]
    exact List.append_nil _
  | .repeated element, h =>
    rw [TypeExpr.toScala, TypeExpr.visited, lossesOf_cons, ← element.warnings_toScala false h.2]
    exact List.append_nil _
  | .parenthesized inner, h =>
    rw [TypeExpr.toScala, TypeExpr.visited, lossesOf_cons]
    exact inner.warnings_toScala anyIsDynamic h.2
  | .function ⟨typeParameters, parameters, result⟩, h =>
    have hparameters := h.2.2.2.1
    rw [TypeExpr.toScala, TypeExpr.visited, lossesOf_append, lossesOf_cons, Noted.warnings_bind,
      ← warnings_parametersToScala parameters hparameters]
    simp only [TypeExpr.isLossy_function typeParameters result hparameters]
    congr 1
    -- The result is mapped if the function is not lossy, and only then.
    cases (TypeExpr.function ⟨typeParameters, parameters, result⟩).isLossy with
    | true => rfl
    | false =>
      refine Eq.trans ?_ (warnings_toScalaOrAny result h.2.2.2.2)
      exact List.append_nil _
  | .object _, _ | .constructor _, _ | .union _, _ | .intersection _, _ | .tuple _, _
  | .literal _, _ | .query _, _ => rfl

/-- The same for several types. -/
theorem warnings_toScalaAll (types : List TypeExpr) (h : everyType noRepeatedName types) :
    (toScalaAll types).warnings = lossesOf (visitedAll types) := by
  match types, h with
  | [], _ => rfl
  | type :: rest, h =>
    rw [visitedAll, lossesOf_append, ← type.warnings_toScala false h.1,
      ← warnings_toScalaAll rest h.2, toScalaAll]
    simp

/-- The same for a type that may be left out. -/
theorem warnings_toScalaOrAny (type : Option TypeExpr) (h : everyOption noRepeatedName type) :
    (toScalaOrAny type).warnings = lossesOf (visitedOption type) := by
  match type, h with
  | none, _ => rfl
  | some type, h =>
    rw [toScalaOrAny, visitedOption]
    exact type.warnings_toScala false h

/-- The same for the types of parameters. -/
theorem warnings_parametersToScala (parameters : List Parameter)
    (h : everyParameter noRepeatedName parameters) :
    (parametersToScala parameters).warnings = lossesOf (visitedParameters parameters) := by
  match parameters, h with
  | [], _ => rfl
  | ⟨_, _, type⟩ :: rest, h =>
    rw [visitedParameters, lossesOf_append, ← warnings_toScalaOrAny type h.1.2,
      ← warnings_parametersToScala rest h.2, parametersToScala]
    simp

end

/-! ### Faithful types -/

/-- A type that is built of primitive types and names, parentheses and rest types, and functions
that are not generic and take a fixed number of arguments. -/
inductive TypeExpr.Faithful : TypeExpr → Prop where
  | primitive (type : Primitive) : Faithful (.primitive type)
  | named (path : List String) {arguments : List TypeExpr} :
      (∀ type ∈ arguments, Faithful type) → Faithful (.named path arguments)
  | repeated {element : TypeExpr} : Faithful element → Faithful (.repeated element)
  | parenthesized {inner : TypeExpr} : Faithful inner → Faithful (.parenthesized inner)
  | function {parameters : List Parameter} {result : Option TypeExpr} :
      (∀ parameter ∈ parameters, parameter.takesMany = false) →
      (∀ parameter ∈ parameters, ∀ type ∈ parameter.type, Faithful type) →
      (∀ type ∈ result, Faithful type) → Faithful (.function ⟨[], parameters, result⟩)

/-- A function is not lossy if it is not generic and takes a fixed number of arguments. -/
theorem TypeExpr.isLossy_function_eq_false {typeParameters : List TypeParameter}
    {parameters : List Parameter} (result : Option TypeExpr) :
    (TypeExpr.function ⟨typeParameters, parameters, result⟩).isLossy = false
      ↔ typeParameters = [] ∧ ∀ parameter ∈ parameters, parameter.takesMany = false := by
  simp [isLossy]

mutual

/-- A type is faithful exactly if none of the types that are visited is lossy. -/
theorem TypeExpr.forall_visited_iff (type : TypeExpr) :
    (∀ node ∈ type.visited, node.isLossy = false) ↔ type.Faithful := by
  match type with
  | .primitive type =>
    exact iff_of_true (List.forall_mem_singleton.mpr rfl) (.primitive type)
  | .named path arguments =>
    rw [TypeExpr.visited, List.forall_mem_cons, forall_visitedAll_iff arguments]
    exact ⟨fun h => .named path h.2, fun h => by cases h with | named _ hall => exact ⟨rfl, hall⟩⟩
  | .repeated element =>
    rw [TypeExpr.visited, List.forall_mem_cons, element.forall_visited_iff]
    exact ⟨fun h => .repeated h.2, fun h => by cases h with | repeated h => exact ⟨rfl, h⟩⟩
  | .parenthesized inner =>
    rw [TypeExpr.visited, List.forall_mem_cons, inner.forall_visited_iff]
    exact ⟨fun h => .parenthesized h.2,
      fun h => by cases h with | parenthesized h => exact ⟨rfl, h⟩⟩
  | .function ⟨typeParameters, parameters, result⟩ =>
    rw [TypeExpr.visited, List.forall_mem_append, List.forall_mem_cons,
      forall_visitedParameters_iff parameters]
    constructor
    · rintro ⟨hparameters, hself, hresult⟩
      -- A lossy function type is not entered, so only now is the result known to be visited.
      rw [hself, if_neg Bool.false_ne_true, forall_visitedOption_iff result] at hresult
      obtain ⟨rfl, htakes⟩ := (TypeExpr.isLossy_function_eq_false result).mp hself
      exact .function htakes hparameters hresult
    · intro h
      cases h with
      | function htakes hparameters hresult =>
        have hself := (TypeExpr.isLossy_function_eq_false result).mpr ⟨rfl, htakes⟩
        rw [hself, if_neg Bool.false_ne_true, forall_visitedOption_iff result]
        exact ⟨hparameters, rfl, hresult⟩
  | .object _ | .constructor _ | .union _ | .intersection _ | .tuple _ | .literal _ | .query _ =>
    exact iff_of_false (fun h => absurd (h _ (List.mem_singleton.mpr rfl)) nofun) nofun

/-- The same for several types. -/
theorem forall_visitedAll_iff (types : List TypeExpr) :
    (∀ node ∈ visitedAll types, node.isLossy = false) ↔ ∀ type ∈ types, type.Faithful := by
  match types with
  | [] => exact iff_of_true nofun nofun
  | type :: rest =>
    rw [visitedAll, List.forall_mem_append, List.forall_mem_cons, type.forall_visited_iff,
      forall_visitedAll_iff rest]

/-- The same for a type that may be left out. -/
theorem forall_visitedOption_iff (type : Option TypeExpr) :
    (∀ node ∈ visitedOption type, node.isLossy = false) ↔ ∀ found ∈ type, found.Faithful := by
  match type with
  | none => exact iff_of_true nofun nofun
  | some type =>
    rw [visitedOption, type.forall_visited_iff]
    simp

/-- The same for the types of parameters. -/
theorem forall_visitedParameters_iff (parameters : List Parameter) :
    (∀ node ∈ visitedParameters parameters, node.isLossy = false)
      ↔ ∀ parameter ∈ parameters, ∀ type ∈ parameter.type, type.Faithful := by
  match parameters with
  | [] => exact iff_of_true nofun nofun
  | ⟨_, _, type⟩ :: rest =>
    rw [visitedParameters, List.forall_mem_append, List.forall_mem_cons,
      forall_visitedOption_iff type, forall_visitedParameters_iff rest]

end

/-! ### Losses of types -/

/-- The names of documents that are read are spelled like names. -/
theorem weaker_noRepeatedName : formed.Weaker noRepeatedName where
  type node h := by
    cases node with
    | named path arguments =>
      obtain ⟨⟨first, rest, rfl, hname, -⟩, -⟩ := h
      intro heq
      cases heq
      exact absurd hname (by decide)
    | _ => exact trivial
  signature _ _ := trivial
  typeParameter _ _ := trivial
  parameter _ _ := trivial
  member _ _ := trivial
  declaration _ _ := trivial

/-- No document that is read has a name like the repeated type. Where there is none, the mapping of
a type appends to any log one warning for each lossy type that it visits, all of them that something
is said less exactly, and it appends nothing exactly if the type is faithful. -/
theorem losses_of_types :
    (∀ (text : String) (document : Document), Document.ofText text = .ok document →
      everyDeclaration noRepeatedName document.declarations)
    ∧ ∀ type : TypeExpr, type.Every noRepeatedName → ∀ (anyIsDynamic : Bool) (session : Session),
      ∃ losses : List Warning,
        (Recording.toScala anyIsDynamic type).run session
            = ((type.toScala anyIsDynamic).value, ⟨session.warnings ++ losses⟩)
          ∧ (∀ warning ∈ losses, warning.kind = .simplified)
          ∧ losses.length = type.visited.countP TypeExpr.isLossy
          ∧ (losses = [] ↔ type.Faithful) := by
  refine ⟨fun text document htext =>
    everyDeclaration_weaken weaker_noRepeatedName (Document.formed_ofText htext),
    fun type hnames anyIsDynamic session => ⟨lossesOf type.visited, ?_, ?_, ?_, ?_⟩⟩
  · rw [records_toScala anyIsDynamic type session, Session.carryOut,
      type.warnings_toScala anyIsDynamic hnames]
  · exact List.forall_mem_map.mpr fun node _ => node.kind_loss
  · exact length_lossesOf _
  · rw [lossesOf_eq_nil_iff, type.forall_visited_iff]

/-- A promise of a function that takes a union and any number of arguments. -/
def promisedFunction : TypeExpr :=
  .named ["Promise"] [.function ⟨[], [
    ⟨"a", false, some (.union [.primitive .string, .object []])⟩,
    ⟨"xs", false, some (.repeated (.named ["T"] []))⟩], some (.literal "null")⟩]

/-- The text of that alias. -/
theorem ofText_promisedFunction : Document.ofText
    "type X = Promise<(a: string | \x7b\x7d, ...xs: T[]) => null>;"
      = .ok ⟨[.alias "X" [] promisedFunction], []⟩ := by
  with_unfolding_all rfl

/-- The union and the function are lost, one after the other. The parts of the union are not looked
at, and neither is the result of the function, which would be lost too. -/
theorem losses_of_types_promise :
    promisedFunction.Every noRepeatedName
      ∧ promisedFunction.visited.countP TypeExpr.isLossy = 2
      ∧ ∃ losses : List Warning,
        (Recording.toScala false promisedFunction).run ⟨[.genericConstructor ⟨"C"⟩]⟩
            = (⟨⟨[⟨"Promise"⟩]⟩, [.anyFunction]⟩, ⟨.genericConstructor ⟨"C"⟩ :: losses⟩)
          ∧ losses.length = 2 := by
  have hnames : promisedFunction.Every noRepeatedName :=
    (losses_of_types.1 _ _ ofText_promisedFunction).1.2.2
  obtain ⟨losses, hrun, -, hlength, -⟩ :=
    losses_of_types.2 promisedFunction hnames false ⟨[.genericConstructor ⟨"C"⟩]⟩
  exact ⟨hnames, rfl, losses, hrun, hlength⟩

end Facade
