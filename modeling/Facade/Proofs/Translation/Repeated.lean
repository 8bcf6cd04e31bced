import Facade.Proofs.Declaration.WrittenParameters
import Facade.Proofs.Translation.Inside

/-!
# Where repeated types stand

The repeated type of Scala is no type of its own: it may only stand as a whole, and only at a
parameter. `repeated_types` says that facades keep to this, and that a parameter of a method is
repeated exactly if dots and a type of arrays are written at the parameter that it stands for. So
the dots of every other parameter are dropped, and nothing else makes a parameter repeated.
-/

set_option autoImplicit false

namespace Facade

/-- What is written in the document is no repeated type, since no name is called like that. -/
theorem suits_formed : Suits formed fun type => type.isRepeated = false where
  js name arguments _ := ScalaType.isRepeated_js name arguments
  primitive type _ := by cases type <;> rfl
  named path arguments types h := by
    obtain ⟨⟨first, rest, rfl, hname, -⟩, -⟩ := h
    refine isRepeated_namedToScala (fun heq => ?_) types
    cases heq
    exact absurd hname (by decide)

/-! ### Parameters of methods -/

/-- The parameter stands for one that is written: it has its name and the counterpart of its type,
and it is repeated exactly if that is a rest parameter. -/
structure MethodParameter.StandsFor (parameter : MethodParameter) (written : WrittenParameter) :
    Prop where
  name : parameter.name = ⟨written.name⟩
  type : parameter.type = (toScalaOrAny written.keptType).value
  isRepeated : parameter.type.isRepeated = true ↔ written.IsRest

/-- A parameter that has to be given stands for what it stood for before. -/
theorem MethodParameter.StandsFor.mandatory {parameter : MethodParameter}
    {written : WrittenParameter} (h : parameter.StandsFor written) :
    parameter.mandatory.StandsFor written :=
  ⟨h.name, h.type, h.isRepeated⟩

/-- A parameter of a method stands for the one that it comes from. -/
theorem WrittenParameter.standsFor_toMethod {written : WrittenParameter}
    (hformed : written.kept.Every formed) (hrepeated : NotRepeated written.type) :
    written.kept.toMethod.StandsFor written where
  name := rfl
  type := rfl
  isRepeated := by
    rw [Parameter.isRepeated_toMethod hformed]
    exact isRepeated_keptType hrepeated

/-- Each list of parameters of a signature stands for the first of those that are written, in their
order. -/
theorem Signature.standsFor_parameterLists {signature : Signature} {written : List WrittenParameter}
    (hwritten : signature.parameters = written.map WrittenParameter.kept)
    (h : ∀ source ∈ written, source.kept.toMethod.StandsFor source) :
    ∀ parameters ∈ signature.parameterLists,
      List.Forall₂ MethodParameter.StandsFor parameters (written.take parameters.length) := by
  have hmap : ∀ (become : WrittenParameter → MethodParameter) {sources : List WrittenParameter},
      (∀ source ∈ sources, (become source).StandsFor source) →
        List.Forall₂ MethodParameter.StandsFor (sources.map become) sources :=
    fun become sources hall => List.forall₂_map_left_iff.mpr (List.forall₂_same.mpr hall)
  intro parameters hparameters
  rw [parameterLists, Parameter.value_toMethods, hwritten, List.map_map] at hparameters
  rcases List.mem_append.mp hparameters with hshort | hfull
  -- With fewer arguments there are the first parameters only, none of which may be left out.
  · obtain ⟨more, -, rfl⟩ := List.mem_map.mp hshort
    generalize List.length _ - _ + more = count
    rw [← List.map_take, List.map_map, List.length_map, List.length_take, ← List.take_eq_take_min]
    exact hmap _ fun source hin => (h source (List.mem_of_mem_take hin)).mandatory
  · rw [List.mem_singleton.mp hfull, List.length_map, List.take_length]
    exact hmap _ h

/-! ### What is written -/

/-- What is asked of the signatures that are written is asked of each of them. -/
theorem Signature.written_of_every {tokens : List Token} {signature : Signature}
    (h : signature.Every (signaturesWritten tokens)) : signature.Written tokens := by
  obtain ⟨typeParameters, parameters, result⟩ := signature
  exact h.1

/-- A check of a signature is one of its parameters. -/
theorem Signature.every_parameters {check : Check} {signature : Signature}
    (h : signature.Every check) : ∀ parameter ∈ signature.parameters, parameter.Every check := by
  obtain ⟨typeParameters, parameters, result⟩ := signature
  exact everyParameter_iff.mp h.2.2.1

/-! ### Repeated types -/

/-- The parameters of the method stand for the first of those that are written in parentheses at a
place of the tokens, in their order, and these are the parameters of a signature. -/
def Method.IsWritten (tokens : List Token) (declarations : List Declaration) (method : Method) :
    Prop :=
  ∃ signature : Signature, signature.In declarations ∧ method.parameters ∈ signature.parameterLists
    ∧ ∃ place : Stream, place.tokens <:+ tokens ∧ ∃ reading,
      Reader.writtenParameters TypeExpr.reader place = .ok reading
        ∧ signature.parameters = reading.value.map WrittenParameter.kept
        ∧ List.Forall₂ MethodParameter.StandsFor method.parameters
          (reading.value.take method.parameters.length)

/-- Every method of a facade has the parameters of a signature that is written. -/
theorem Document.isWritten_of_mem {text : String} {document : Document}
    (htext : Document.ofText text = .ok document) {tokens : List Token}
    (hscan : Token.scan text = .ok tokens)
    (hwritten : everyDeclaration (signaturesWritten tokens) document.declarations)
    {path : DottedName} {container : Body}
    (hcontainer : (document.toPackage path).value.body.Contains container) {method : Method}
    (hmethod : method ∈ container.methods) : method.IsWritten tokens document.declarations := by
  obtain ⟨signature, hin, hparameters⟩ := exists_signature hcontainer hmethod
  obtain ⟨place, hplace, reading, hread, hkept⟩ :=
    Signature.written_of_every (hin.every hwritten)
  refine ⟨signature, hin, hparameters, place, hplace, reading, hread, hkept, ?_⟩
  have hscanned : place.Scanned :=
    fun token hin => Token.scanned_scan hscan token (hplace.subset hin)
  refine signature.standsFor_parameterLists hkept (fun source hsource => ?_) _ hparameters
  refine WrittenParameter.standsFor_toMethod ?_
    ((Reader.makes_writtenParameters place hscanned reading hread).1 source hsource)
  refine Signature.every_parameters (hin.every (formed_ofText htext)) _ ?_
  rw [hkept]
  exact List.mem_map_of_mem hsource

/-- In a facade, a repeated type stands nowhere but as the whole type of a parameter, and a
parameter of a method is repeated exactly if the parameter that it stands for is written with dots
and a type of arrays. -/
theorem repeated_types {text : String} {document : Document}
    (htext : Document.ofText text = .ok document) (path : DottedName) :
    ∃ tokens, Token.scan text = .ok tokens ∧
      ∀ container, (document.toPackage path).value.body.Contains container →
        (∀ definition ∈ container.items, ∀ found ∈ definition.types,
          (∀ part ∈ found.2.inner, part.isRepeated = false)
            ∧ (found.2.isRepeated = true → found.1 = .parameter))
        ∧ ∀ method ∈ container.methods, method.IsWritten tokens document.declarations := by
  have hformed := Document.formed_ofText htext
  obtain ⟨tokens, hscan, hwritten⟩ := Document.written_ofText htext
  refine ⟨tokens, hscan, fun container hcontainer =>
    ⟨fun definition hdefinition found hfound => ?_, fun method hmethod =>
      Document.isWritten_of_mem htext hscan hwritten hcontainer hmethod⟩⟩
  obtain ⟨hinner, hself⟩ := (Document.types_toPackage hcontainer hdefinition found hfound).goodAt
    suits_formed hformed hformed
  refine ⟨hinner, fun hrepeated => ?_⟩
  -- A repeated type is not good, and the dynamic type of a result is not repeated.
  rcases hself with hgood | ⟨hplace, -⟩ | ⟨-, hdynamic⟩
  · cases hgood.symm.trans hrepeated
  · exact hplace
  · rw [hdynamic] at hrepeated
    cases hrepeated

/-- A class with a rest parameter in its constructor, and with another method that has one inside of
the type of a parameter, and dots in front of a type that is none of arrays. -/
def restParameters : Document where
  declarations := [.class "C" [] none [] [
    .method "constructor" false ⟨[], [⟨"xs", false, some (.repeated (.primitive .string))⟩], none⟩,
    .method "f" false ⟨[], [
      ⟨"call", false, some (.function ⟨[],
        [⟨"ys", false, some (.repeated (.primitive .number))⟩], some (.primitive .void)⟩)⟩,
      ⟨"zs", false, some (.primitive .any)⟩], none⟩]]
  lost := [⟨"zs", some (.primitive .any), 75⟩]

/-- How that class is written. -/
def restParametersText : String :=
  "class C \x7b constructor(...xs: string[]); f(call: (...ys: number[]) => void, ...zs: any); \x7d"

/-- The text is read as that class. -/
theorem ofText_restParameters : Document.ofText restParametersText = .ok restParameters := by
  with_unfolding_all rfl

/-- The constructor of that class and its other method. -/
def restMethods : List Method :=
  [⟨.constructor, [], [⟨⟨"xs"⟩, .repeated .string, false⟩], .unit⟩,
    ⟨⟨"f"⟩, [], [⟨⟨"call"⟩, .anyFunction, false⟩, ⟨⟨"zs"⟩, .any, false⟩], .dynamic⟩]

/-- Both stand for what is written there, the one with a repeated parameter and the other without
one. -/
theorem repeated_types_class :
    (restParameters.toPackage .root).value.body.Contains ⟨restMethods.map .method, 0⟩
      ∧ ∃ tokens, Token.scan restParametersText = .ok tokens
        ∧ ∀ method ∈ restMethods, method.IsWritten tokens restParameters.declarations := by
  have hcontains : (restParameters.toPackage .root).value.body.Contains
      ⟨restMethods.map .method, 0⟩ :=
    .inside (List.mem_singleton.mpr rfl) rfl (.self _)
  obtain ⟨tokens, hscan, hrepeated⟩ := repeated_types ofText_restParameters .root
  exact ⟨hcontains, tokens, hscan, (hrepeated _ hcontains).2⟩

end Facade
