import Facade.Proofs.Translation.Inside
import Facade.Translation.Session

/-!
# Where the dynamic type stands

`any` is dynamic where a program gets a value out, which is the result of a method and nothing else:
`dynamic_results` says that the dynamic type is always the whole result of a method, and that such a
result is what a signature without one has, or one whose result is `any`. The mapping of types is
told which of the two positions it is in, and apart from `any` itself that makes no difference
(`TypeExpr.toScala_congr`).

A document may also write the dynamic type by its name. `noDynamic` excludes that.
-/

set_option autoImplicit false

namespace Facade

/-- No type that is written is called `js.Dynamic`. -/
def noDynamic : Check where
  type
    | .named path _ => path ≠ ["js", "Dynamic"]
    | _ => True
  signature _ := True
  typeParameter _ := True
  parameter _ := True
  member _ := True
  declaration _ := True

/-- The type is the dynamic type, whatever it is applied to. -/
def ScalaType.IsDynamic (type : ScalaType) : Prop :=
  type.name = dynamic.name

/-- The only type of the JavaScript side that is dynamic is the one of that name. -/
theorem isDynamic_js {name : String} {arguments : List ScalaType}
    (h : (ScalaType.js name arguments).IsDynamic) : name = "Dynamic" := by
  simpa [ScalaType.IsDynamic, ScalaType.js, ScalaType.dynamic] using h

/-- If no path of a document is called like it, no other type is dynamic. -/
theorem suits_noDynamic : Suits noDynamic fun type => ¬ type.IsDynamic where
  js name arguments hname h := hname (isDynamic_js h)
  primitive type htype := by
    cases type with
    | any => exact absurd rfl htype
    | void | number | bool | boolean | string =>
      simp [Primitive.toScala, ScalaType.IsDynamic, ScalaType.unit, ScalaType.number,
        ScalaType.boolean, ScalaType.string, ScalaType.plain, ScalaType.dynamic, ScalaType.js,
        DottedName.single]
  named path arguments types hpath := by
    unfold namedToScala
    split
    · exact fun h => absurd (isDynamic_js h) (by decide)
    · exact fun h => absurd (isDynamic_js h) (by decide)
    · intro h
      refine hpath ?_
      have hsegments : path.map Identifier.mk = ["js", "Dynamic"].map Identifier.mk :=
        congrArg DottedName.segments h
      exact List.map_injective_iff.mpr (fun _ _ heq => congrArg Identifier.raw heq) hsegments

/-! ### Two ways to map a type -/

/-- In a result and elsewhere, a type other than `any` has the same counterpart, at the same
cost. -/
theorem TypeExpr.toScala_of_ne_any (type : TypeExpr) (h : type.unwrap ≠ .primitive .any) :
    type.toScala true = type.toScala false := by
  match type, h with
  | .primitive type, h =>
    rw [toScala, toScala]
    cases type <;> first | rfl | exact absurd rfl h
  | .named path arguments, _ => rw [toScala, toScala]
  | .function ⟨typeParameters, parameters, result⟩, _ => rw [toScala, toScala]
  | .repeated element, _ => rw [toScala, toScala]
  | .parenthesized inner, h =>
    rw [toScala, toScala]
    exact inner.toScala_of_ne_any h
  | .object _, _ | .constructor _, _ | .union _, _ | .intersection _, _ | .tuple _, _
  | .literal _, _ | .query _, _ => rw [toScala, toScala]

/-- The type `any` costs nothing, and its counterpart is any value outside of results. -/
theorem TypeExpr.toScala_any {type : TypeExpr} (h : type.unwrap = .primitive .any)
    (anyIsDynamic : Bool) :
    type.toScala anyIsDynamic = pure (if anyIsDynamic then .dynamic else .any) := by
  match type, h with
  | .primitive .any, _ =>
    rw [toScala]
    rfl
  | .parenthesized inner, h =>
    rw [toScala]
    exact inner.toScala_any h anyIsDynamic

/-- A session notes the same for a type in a result and elsewhere, and the counterparts are the same
unless the type is `any`. -/
theorem Session.carryOut_toScala (session : Session) (type : TypeExpr) :
    (session.carryOut (type.toScala true)).2 = (session.carryOut (type.toScala false)).2
      ∧ ((session.carryOut (type.toScala true)).1 = (session.carryOut (type.toScala false)).1
        ↔ type.unwrap ≠ .primitive .any) := by
  by_cases hany : type.unwrap = .primitive .any
  · rw [type.toScala_any hany, type.toScala_any hany]
    refine ⟨rfl, iff_of_false (fun heq => ?_) fun hne => hne hany⟩
    exact absurd (isDynamic_js (congrArg ScalaType.name heq.symm)) (by decide)
  · rw [type.toScala_of_ne_any hany]
    exact ⟨rfl, iff_of_true rfl hany⟩

/-! ### Dynamic results -/

/-- A signature has no result, or one that is `any`. -/
def Signature.ResultIsOpen (signature : Signature) : Prop :=
  ∀ type ∈ signature.result, type.unwrap = .primitive .any

/-- A method that is called has a dynamic result if its signature leaves the result open. -/
theorem Signature.result_overloads {signature : Signature} (hformed : signature.Every formed)
    (hdynamic : signature.Every noDynamic) (name : Identifier) :
    (signature.overloads name).result = .dynamic ↔ signature.ResultIsOpen := by
  obtain ⟨typeParameters, parameters, result⟩ := signature
  show (toScalaOrDynamic result).value = .dynamic ↔ _
  cases result with
  | none => exact iff_of_true rfl fun _ hin => by cases hin
  | some type =>
    show (type.toScala true).value = .dynamic ↔ _
    constructor
    · intro heq found hfound
      cases hfound
      by_contra hany
      have hgood := type.good_toScala suits_noDynamic true hformed.2.2.2 hdynamic.2.2.2
        (hformed.1 type rfl) (.inr hany)
      exact hgood (congrArg ScalaType.name heq)
    · intro hopen
      exact type.toScala_of_any (hopen type rfl)

/-- The overloads are the constructors of a signature, or the methods of one that is called, with a
dynamic result if the signature leaves it open. -/
inductive Overloads.DynamicIfOpen (declarations : List Declaration) : Overloads → Prop where
  | constructors {declaration : Declaration} {signature : Signature} :
      declaration ∈ allAtAnyDepth declarations → declaration.Constructs signature →
      DynamicIfOpen declarations signature.constructors
  | methods {declaration : Declaration} {given : Option Identifier} {signature : Signature}
      {made : Identifier} :
      declaration ∈ allAtAnyDepth declarations → declaration.Calls given signature →
      made.IsMadeUp →
      ((signature.overloads (given.getD made)).result = .dynamic ↔ signature.ResultIsOpen) →
      DynamicIfOpen declarations (signature.overloads (given.getD made))

/-- In the facade of a document that does not write it, the dynamic type stands nowhere but as the
whole result of a method, and the methods of a signature that is called have it exactly if the
signature has no result or `any` for one. For a session, it makes no difference to any type but
`any` whether it is mapped for a result or not. -/
theorem dynamic_results {text : String} {document : Document}
    (htext : Document.ofText text = .ok document)
    (hdynamic : everyDeclaration noDynamic document.declarations) (path : DottedName) :
    (∀ container, (document.toPackage path).value.body.Contains container →
      (∀ definition ∈ container.items, ∀ found ∈ definition.types,
        (∀ part ∈ found.2.inner, ¬ part.IsDynamic)
          ∧ (found.2.IsDynamic → found.1 = .result ∧ found.2 = .dynamic))
      ∧ ∃ all : List Overloads, container.methods = all.flatMap Overloads.methods
        ∧ ∀ overloads ∈ all, overloads.DynamicIfOpen document.declarations)
      ∧ ∀ (session : Session) (type : TypeExpr),
        (session.carryOut (type.toScala true)).2 = (session.carryOut (type.toScala false)).2
          ∧ ((session.carryOut (type.toScala true)).1 = (session.carryOut (type.toScala false)).1
            ↔ type.unwrap ≠ .primitive .any) := by
  have hformed := Document.formed_ofText htext
  refine ⟨fun container hcontainer => ⟨fun definition hdefinition found hfound => ?_, ?_⟩,
    Session.carryOut_toScala⟩
  · obtain ⟨hinner, hself⟩ := (Document.types_toPackage hcontainer hdefinition found hfound).goodAt
      suits_noDynamic hformed hdynamic
    refine ⟨hinner, fun hfound => ?_⟩
    -- The type of a rest parameter has a name of its own.
    rcases hself with hgood | ⟨-, hrepeated⟩ | hresult
    · exact absurd hfound hgood
    · have hname : found.2.name ≠ ScalaType.repeatedName := by
        rw [hfound]
        decide
      exact absurd hrepeated (Bool.eq_false_iff.mp (ScalaType.isRepeated_eq_false hname))
    · exact hresult
  · obtain ⟨site, hcomposed⟩ := hcontainer.composed (document.composed_toPackage path)
    obtain ⟨all, hmethods, hall⟩ := hcomposed.here
    refine ⟨all, hmethods, fun overloads hoverloads => ?_⟩
    cases hall overloads hoverloads with
    | constructors hdeclaration hconstructs => exact .constructors hdeclaration hconstructs
    | methods hdeclaration hcalls hmade =>
      have hin : Signature.In document.declarations _ := ⟨_, hdeclaration, .inl ⟨_, hcalls⟩⟩
      exact .methods hdeclaration hcalls hmade
        (Signature.result_overloads (hin.every hformed) (hin.every hdynamic) _)

/-- A class with a constructor, a method whose result is `any` in parentheses, and another without a
result that takes any value. -/
def openResults : Document where
  declarations := [.class "C" [] none [] [
    .method "constructor" false ⟨[], [⟨"x", false, some (.primitive .any)⟩], none⟩,
    .method "f" false ⟨[], [], some (.parenthesized (.primitive .any))⟩,
    .method "g" false ⟨[], [⟨"xs", false, some (.named ["Array"] [.primitive .any])⟩], none⟩]]
  lost := []

/-- The text of that class. -/
theorem ofText_openResults : Document.ofText
    "class C \x7b constructor(x: any); f(): (any); g(xs: Array<any>); \x7d" = .ok openResults := by
  with_unfolding_all rfl

/-- Both methods of that class have a dynamic result, and the constructor has not. Everything else
that is `any` is any value. -/
theorem dynamic_results_class :
    everyDeclaration noDynamic openResults.declarations
      ∧ (openResults.toPackage .root).value.body.Contains ⟨[
          .method ⟨.constructor, [], [⟨⟨"x"⟩, .any, false⟩], .unit⟩,
          .method ⟨⟨"f"⟩, [], [], .dynamic⟩,
          .method ⟨⟨"g"⟩, [], [⟨⟨"xs"⟩, .array .any, false⟩], .dynamic⟩], 0⟩
      ∧ ∀ part ∈ (ScalaType.array .any).inner, ¬ part.IsDynamic := by
  have hdynamic : everyDeclaration noDynamic openResults.declarations := by
    simp [openResults, everyDeclaration, Declaration.Every, everyMember, Member.Every,
      Signature.Every, everyTypeParameter, everyParameter, Parameter.Every, everyOption, everyType,
      TypeExpr.Every, noDynamic]
  have hcontains : (openResults.toPackage .root).value.body.Contains ⟨[
      .method ⟨.constructor, [], [⟨⟨"x"⟩, .any, false⟩], .unit⟩,
      .method ⟨⟨"f"⟩, [], [], .dynamic⟩,
      .method ⟨⟨"g"⟩, [], [⟨⟨"xs"⟩, .array .any, false⟩], .dynamic⟩], 0⟩ :=
    .inside (List.mem_singleton.mpr rfl) rfl (.self _)
  have hresults := (dynamic_results ofText_openResults hdynamic .root).1 _ hcontains
  refine ⟨hdynamic, hcontains, ?_⟩
  exact (hresults.1 (.method ⟨⟨"g"⟩, [], [⟨⟨"xs"⟩, .array .any, false⟩], .dynamic⟩)
    (by simp) (.parameter, .array .any) (by simp [Definition.types])).1

end Facade
