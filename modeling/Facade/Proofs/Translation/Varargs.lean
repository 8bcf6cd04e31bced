import Facade.Proofs.Declaration.FormedDocument
import Facade.Proofs.Translation.Defaults

/-!
# Repeated parameters and defaults

A rest parameter becomes a repeated parameter of Scala, and nothing else does
(`isRepeated_toScala`): that is where the shape of documents that are read comes in, because the
repeated type is known by a name that no program can spell. A repeated parameter has no default.
`repeated_and_default_iff` says when another parameter of its method has one.
-/

set_option autoImplicit false

namespace Facade

/-! ### Repeated types -/

/-- A type with another name is not the repeated type. -/
theorem ScalaType.isRepeated_eq_false {type : ScalaType} (h : type.name ≠ repeatedName) :
    type.isRepeated = false := by
  refine Option.isSome_eq_false_iff.mpr (Option.isNone_iff_eq_none.mpr ?_)
  cases helement : type.element? with
  | none => rfl
  | some element => exact absurd (congrArg ScalaType.name (eq_repeated_of_element? helement)) h

/-- No type of the JavaScript side is the repeated type. -/
theorem ScalaType.isRepeated_js (name : String) (arguments : List ScalaType) :
    (js name arguments).isRepeated = false :=
  isRepeated_eq_false fun h => by simp [js, repeatedName, DottedName.single] at h

/-- No name but that of the repeated type is mapped to it. -/
theorem isRepeated_namedToScala {path : List String} (hpath : path ≠ ["<repeated>"])
    (arguments : List ScalaType) : (namedToScala path arguments).isRepeated = false := by
  unfold namedToScala
  split
  · rfl
  · rfl
  · refine ScalaType.isRepeated_eq_false fun h => hpath ?_
    obtain ⟨name, rfl, hname⟩ := List.map_eq_singleton_iff.mp (congrArg DottedName.segments h)
    cases hname
    rfl

/-- A function type is not mapped to it either. -/
theorem isRepeated_toScala_function (anyIsDynamic : Bool) (signature : Signature) :
    ((TypeExpr.function signature).toScala anyIsDynamic).value.isRepeated = false := by
  obtain ⟨typeParameters, parameters, result⟩ := signature
  rw [TypeExpr.toScala, Noted.value_bind]
  split <;> exact ScalaType.isRepeated_js _ _

/-- Only the type of a rest parameter becomes the repeated type. -/
theorem isRepeated_toScala (anyIsDynamic : Bool) {type : TypeExpr} (h : type.Every formed) :
    (type.toScala anyIsDynamic).value.isRepeated = type.isRepeated := by
  match type, h with
  | .primitive type, _ => cases type <;> cases anyIsDynamic <;> rfl
  | .named path arguments, h =>
    obtain ⟨⟨⟨first, rest, rfl, hname, -⟩, -⟩, -⟩ := h
    refine isRepeated_namedToScala (fun heq => ?_) _
    cases heq
    exact absurd hname (by decide)
  | .function signature, _ => exact isRepeated_toScala_function anyIsDynamic signature
  | .repeated element, _ => exact congrArg Option.isSome (ScalaType.element?_repeated _)
  | .parenthesized inner, h =>
    have hinner : inner.isRepeated = false := h.1
    rw [TypeExpr.toScala, isRepeated_toScala anyIsDynamic h.2, hinner]
    rfl
  | .object _, _ | .constructor _, _ | .union _, _ | .intersection _, _ | .tuple _, _
  | .literal _, _ | .query _, _ => rfl

/-! ### Parameters -/

/-- Whether the parameter stands for any number of arguments. -/
def Parameter.isRest (parameter : Parameter) : Bool :=
  parameter.type.any TypeExpr.isRepeated

/-- The parameter of a method that a parameter becomes. -/
def Parameter.toMethod (parameter : Parameter) : MethodParameter :=
  ⟨⟨parameter.name⟩, (toScalaOrAny parameter.type).value, parameter.optional⟩

/-- The parameters of a signature become those of its methods one by one. -/
theorem Parameter.value_toMethods (parameters : List Parameter) :
    (toMethods parameters).value = parameters.map toMethod := by
  induction parameters with
  | nil => rfl
  | cons parameter rest ih =>
    rw [List.map_cons, ← ih]
    rfl

/-- A parameter becomes a repeated one exactly if it is a rest parameter. -/
theorem Parameter.isRepeated_toMethod {parameter : Parameter} (h : parameter.Every formed) :
    parameter.toMethod.type.isRepeated = parameter.isRest := by
  obtain ⟨name, optional, type⟩ := parameter
  cases type with
  | none => rfl
  | some type => exact isRepeated_toScala false h.2

/-- Whether a parameter of the method is repeated. -/
def Method.hasRepeated (method : Method) : Bool :=
  method.parameters.any (·.type.isRepeated)

/-- Every rest parameter is the last of its list. -/
def restLast : Check where
  type _ := True
  signature signature := ∀ parameter ∈ signature.parameters.dropLast, parameter.isRest = false
  typeParameter _ := True
  parameter _ := True
  member _ := True
  declaration _ := True

/-! ### Signatures -/

/-- The signature is one of those that declarations call or construct with. -/
def Signature.In (declarations : List Declaration) (signature : Signature) : Prop :=
  ∃ declaration ∈ allAtAnyDepth declarations,
    (∃ given, declaration.Calls given signature) ∨ declaration.Constructs signature

/-- What is asked of every node of declarations is asked of those in their signatures. -/
theorem Signature.In.every {check : Check} {declarations : List Declaration}
    (h : everyDeclaration check declarations) {signature : Signature}
    (hin : signature.In declarations) : signature.Every check := by
  obtain ⟨declaration, hdeclaration, hsignature⟩ := hin
  have hevery := every_allAtAnyDepth h declaration hdeclaration
  rcases hsignature with ⟨given, hcalls⟩ | hconstructs
  · cases hcalls with
    | function name => exact hevery.2
    | member hmember hcall =>
      have hmember' := Declaration.every_members hevery _ hmember
      cases hcall with
      | call => exact hmember'.2
      | method => exact hmember'.2
  · cases hconstructs with
    | construct hmember => exact (Declaration.every_members hevery _ hmember).2
    | constructor hmember => exact (everyMember_iff.mp hevery.2.2.2.2 _ hmember).2

/-- The methods of a facade have the parameters of a signature, or fewer. -/
theorem Document.exists_signature {document : Document} {path : DottedName} {container : Body}
    (hcontainer : (document.toPackage path).value.body.Contains container) {method : Method}
    (hmethod : method ∈ container.methods) :
    ∃ signature : Signature, signature.In document.declarations
      ∧ method.parameters ∈ signature.parameterLists := by
  obtain ⟨site, hcomposed⟩ := hcontainer.composed (document.composed_toPackage path)
  obtain ⟨all, hmethods, hall⟩ := hcomposed.here
  rw [hmethods] at hmethod
  obtain ⟨overloads, hoverloads, hin⟩ := List.mem_flatMap.mp hmethod
  obtain ⟨parameters, hparameters, rfl⟩ := List.mem_map.mp hin
  cases hall overloads hoverloads with
  | methods hdeclaration hcalls _ =>
    exact ⟨_, ⟨_, hdeclaration, .inl ⟨_, hcalls⟩⟩, hparameters⟩
  | constructors hdeclaration hconstructs =>
    exact ⟨_, ⟨_, hdeclaration, .inr hconstructs⟩, hparameters⟩

/-- Whether an optional parameter comes before a rest parameter that is the last. -/
def Signature.OptionalBeforeRest (signature : Signature) : Prop :=
  ∃ front rest, signature.parameters = front ++ [rest] ∧ rest.isRest = true
    ∧ front.any (·.optional) = true

/-- Where rest parameters come last, a full list of parameters has a repeated one and one with a
default if an optional parameter comes before the rest parameter. -/
theorem any_toMethod_iff {signature : Signature} (hformed : signature.Every formed)
    (hlast : signature.Every restLast) :
    ((signature.parameters.map Parameter.toMethod).any (·.type.isRepeated) = true
        ∧ (signature.parameters.map Parameter.toMethod).any MethodParameter.hasDefault = true)
      ↔ signature.OptionalBeforeRest := by
  obtain ⟨typeParameters, parameters, result⟩ := signature
  have hparameters := everyParameter_iff.mp hformed.2.2.1
  have hlast' : ∀ parameter ∈ parameters.dropLast, parameter.isRest = false := hlast.1
  simp only [List.any_map, List.any_eq_true, Function.comp_apply, Signature.OptionalBeforeRest]
  constructor
  · rintro ⟨⟨rest, hrest, hrepeated⟩, given, hgiven, hdefault⟩
    rw [Parameter.isRepeated_toMethod (hparameters rest hrest)] at hrepeated
    rw [MethodParameter.hasDefault, Parameter.isRepeated_toMethod (hparameters given hgiven),
      Bool.and_eq_true, Bool.not_eq_true'] at hdefault
    obtain ⟨front, last, rfl⟩ := List.eq_nil_or_concat' parameters |>.resolve_left
      (List.ne_nil_of_mem hrest)
    rw [List.dropLast_concat] at hlast'
    -- The repeated one is the last, so the other one comes before it.
    have heq : rest = last := by
      rcases List.mem_append.mp hrest with hin | hin
      · cases (hlast' rest hin).symm.trans hrepeated
      · exact List.mem_singleton.mp hin
    subst heq
    refine ⟨front, rest, rfl, hrepeated, given, ?_, hdefault.1⟩
    rcases List.mem_append.mp hgiven with hin | hin
    · exact hin
    · cases List.mem_singleton.mp hin
      cases hdefault.2.symm.trans hrepeated
  · rintro ⟨front, rest, rfl, hrest, given, hgiven, hoptional⟩
    rw [List.dropLast_concat] at hlast'
    have hin : given ∈ front ++ [rest] := List.mem_append_left _ hgiven
    refine ⟨⟨rest, by simp, ?_⟩, given, hin, ?_⟩
    · rw [Parameter.isRepeated_toMethod (hparameters rest (by simp)), hrest]
    · rw [MethodParameter.hasDefault, Parameter.isRepeated_toMethod (hparameters given hin),
        hlast' given hgiven]
      exact Bool.and_eq_true_iff.mpr ⟨hoptional, rfl⟩

/-! ### Methods -/

/-- Where rest parameters come last, a method of a facade has both a repeated parameter and one with
a default exactly if it has all the parameters of a signature in which an optional parameter comes
before the rest parameter. -/
theorem repeated_and_default_iff {text : String} {document : Document}
    (htext : Document.ofText text = .ok document)
    (hlast : everyDeclaration restLast document.declarations) (path : DottedName)
    (container : Body) (hcontainer : (document.toPackage path).value.body.Contains container)
    (method : Method) (hmethod : method ∈ container.methods) :
    (method.hasRepeated = true ∧ method.hasDefault = true)
      ↔ ∃ signature : Signature, signature.In document.declarations
        ∧ method.parameters = signature.parameters.map Parameter.toMethod
        ∧ signature.OptionalBeforeRest := by
  have hiff : ∀ signature : Signature, signature.In document.declarations →
      method.parameters = signature.parameters.map Parameter.toMethod →
      ((method.hasRepeated = true ∧ method.hasDefault = true) ↔ signature.OptionalBeforeRest) := by
    intro signature hin hparameters
    rw [Method.hasRepeated, Method.hasDefault, hparameters]
    exact any_toMethod_iff (hin.every (Document.formed_ofText htext)) (hin.every hlast)
  constructor
  · intro hboth
    obtain ⟨signature, hin, hparameters⟩ := Document.exists_signature hcontainer hmethod
    have hfull := MethodParameter.eq_of_mem_alternatives hparameters hboth.2
    rw [Parameter.value_toMethods] at hfull
    exact ⟨signature, hin, hfull, (hiff signature hin hfull).mp hboth⟩
  · rintro ⟨signature, hin, hfull, hoptional⟩
    exact (hiff signature hin hfull).mpr hoptional

/-- A function with an optional parameter before its rest parameter. -/
def optionalBeforeRest : Document where
  declarations := [.function "f" ⟨[], [⟨"a", true, some (.primitive .number)⟩,
    ⟨"xs", false, some (.repeated (.primitive .string))⟩], none⟩]
  lost := []

/-- The text of that function. -/
theorem ofText_optionalBeforeRest :
    Document.ofText "function f(a?: number, ...xs: string[]);" = .ok optionalBeforeRest := by
  with_unfolding_all rfl

/-- Its rest parameter is the last. -/
theorem restLast_optionalBeforeRest : everyDeclaration restLast optionalBeforeRest.declarations :=
  ⟨⟨trivial, List.forall_mem_singleton.mpr rfl, trivial,
    ⟨⟨trivial, trivial⟩, ⟨trivial, trivial, trivial⟩, trivial⟩, trivial⟩, trivial⟩

/-- The method that stands for that function. -/
def optionalBeforeRestMethod : Method :=
  ⟨⟨"f"⟩, [], [⟨⟨"a"⟩, .number, true⟩, ⟨⟨"xs"⟩, .repeated .string, false⟩], .dynamic⟩

/-- The method stands in the facade of that function. -/
theorem mem_optionalBeforeRest :
    optionalBeforeRestMethod ∈ (optionalBeforeRest.toPackage .root).value.body.methods :=
  List.mem_singleton.mpr rfl

/-- The rest parameter is the last one, and the method has a repeated parameter and a default. -/
theorem repeated_and_default_both :
    ∃ text document, Document.ofText text = .ok document
      ∧ everyDeclaration restLast document.declarations ∧ ∃ container,
        (document.toPackage .root).value.body.Contains container
          ∧ ∃ method ∈ container.methods, method.hasRepeated = true ∧ method.hasDefault = true :=
  ⟨_, optionalBeforeRest, ofText_optionalBeforeRest, restLast_optionalBeforeRest, _, .self _,
    optionalBeforeRestMethod, mem_optionalBeforeRest, by decide⟩

/-- It has them because of that function. -/
theorem repeated_and_default_function :
    (optionalBeforeRestMethod.hasRepeated = true ∧ optionalBeforeRestMethod.hasDefault = true)
      ↔ ∃ signature : Signature, signature.In optionalBeforeRest.declarations
        ∧ optionalBeforeRestMethod.parameters = signature.parameters.map Parameter.toMethod
        ∧ signature.OptionalBeforeRest :=
  repeated_and_default_iff ofText_optionalBeforeRest restLast_optionalBeforeRest .root _ (.self _)
    optionalBeforeRestMethod mem_optionalBeforeRest

end Facade
