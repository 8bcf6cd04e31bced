import Facade.Proofs.Definition.Inner
import Facade.Proofs.Translation.Types

/-!
# What stands inside of types

The mapping of types puts two sorts of types only where nothing is around them, the type of a rest
parameter and the one that stands for `any` in the result of a method. Every other type, wherever it
stands, is one of the JavaScript side, one of Scala itself or one that is written in the document.
So a condition that these have holds everywhere inside of a type (`TypeExpr.inside_toScala`), and of
the type itself if it is none of those two (`TypeExpr.good_toScala`).
-/

set_option autoImplicit false

namespace Facade

/-- Types of the JavaScript side and of Scala itself are good, and so is every path that keeps to a
check, whatever it is applied to. -/
structure Suits (check : Check) (good : ScalaType → Prop) : Prop where
  js : ∀ name arguments, name ≠ "Dynamic" → good (.js name arguments)
  primitive : ∀ type : Primitive, type ≠ .any → good (type.toScala false)
  named : ∀ path arguments types, check.type (.named path arguments) →
    good (namedToScala path types)

variable {check : Check} {good : ScalaType → Prop}

namespace Suits

/-- The type of anything is good throughout. -/
theorem any (h : Suits check good) : ScalaType.any.Throughout good :=
  ⟨h.js "Any" [] (by decide), ScalaType.forall_mem_inner fun _ hin => absurd hin List.not_mem_nil⟩

/-- A function type is good, whatever it is made of. -/
theorem function (h : Suits check good) (types : List ScalaType) :
    good (ScalaType.function types) := by
  refine h.js _ types fun heq => ?_
  have hlist := congrArg String.toList heq
  simp [String.toList_append] at hlist

/-- The type of functions of which nothing is known is good throughout. -/
theorem anyFunction (h : Suits check good) : ScalaType.anyFunction.Throughout good :=
  ⟨h.js "Function" [] (by decide),
    ScalaType.forall_mem_inner fun _ hin => absurd hin List.not_mem_nil⟩

end Suits

/-- What stands inside of an applied path stood inside of its arguments. -/
theorem forall_mem_inner_namedToScala {path : List String} {types : List ScalaType}
    (h : ∀ type ∈ types, type.Throughout good) :
    ∀ part ∈ (namedToScala path types).inner, good part := by
  unfold namedToScala
  split
  · exact ScalaType.forall_mem_inner h
  · exact ScalaType.forall_mem_inner h
  · exact ScalaType.forall_mem_inner h

/-- Nothing stands inside of a primitive type. -/
theorem Primitive.inner_toScala (flag : Bool) (type : Primitive) :
    (type.toScala flag).inner = [] := by
  cases type <;> cases flag <;> simp [toScala, ScalaType.any] <;> rfl

/-- What a type becomes is good, if the type is no rest type and not `any` where it would be
dynamic. -/
theorem TypeExpr.good_toScala (hsuits : Suits check good) (anyIsDynamic : Bool) (type : TypeExpr)
    (hformed : type.Every formed) (hcheck : type.Every check) (hrepeated : type.isRepeated = false)
    (hany : anyIsDynamic = false ∨ type.unwrap ≠ .primitive .any) :
    good (type.toScala anyIsDynamic).value := by
  match type, hformed, hcheck, hrepeated, hany with
  | .primitive type, _, _, _, hany =>
    by_cases htype : type = .any
    · subst htype
      obtain rfl : anyIsDynamic = false := hany.resolve_right fun hne => hne rfl
      exact hsuits.any.1
    · have hsame : type.toScala anyIsDynamic = type.toScala false := by
        cases type <;> first | rfl | exact absurd rfl htype
      show good (type.toScala anyIsDynamic)
      rw [hsame]
      exact hsuits.primitive type htype
  | .named path arguments, _, hcheck, _, _ => exact hsuits.named path arguments _ hcheck.1
  | .function ⟨typeParameters, parameters, result⟩, _, _, _, _ =>
    rw [TypeExpr.toScala, Noted.value_bind]
    split
    · exact hsuits.function _
    · exact hsuits.anyFunction.1
  | .parenthesized inner, hformed, hcheck, _, hany =>
    rw [TypeExpr.toScala]
    exact inner.good_toScala hsuits anyIsDynamic hformed.2 hcheck.2 hformed.1 hany
  | .object _, _, _, _, _ | .constructor _, _, _, _, _ | .union _, _, _, _, _
  | .intersection _, _, _, _, _ | .tuple _, _, _, _, _ | .literal _, _, _, _, _
  | .query _, _, _, _, _ => exact hsuits.any.1

mutual

/-- Everything inside of what a type becomes is good. -/
theorem TypeExpr.inside_toScala (hsuits : Suits check good) (anyIsDynamic : Bool) (type : TypeExpr)
    (hformed : type.Every formed) (hcheck : type.Every check) :
    ∀ part ∈ (type.toScala anyIsDynamic).value.inner, good part := by
  match type, hformed, hcheck with
  | .primitive type, _, _ =>
    rw [show ((TypeExpr.primitive type).toScala anyIsDynamic).value = type.toScala anyIsDynamic from
      rfl, Primitive.inner_toScala]
    exact fun _ hin => absurd hin List.not_mem_nil
  | .named path arguments, hformed, hcheck =>
    exact forall_mem_inner_namedToScala
      (throughout_toScalaAll hsuits arguments hformed.2 hcheck.2 hformed.1.2)
  | .function ⟨typeParameters, parameters, result⟩, hformed, hcheck =>
    have hparameters := throughout_parametersToScala hsuits parameters hformed.2.2.2.1
      hcheck.2.2.2.1
    rw [TypeExpr.toScala, Noted.value_bind]
    split
    -- With a repeated parameter it would be the type of any function.
    · rename_i htyped
      have hnone : ∀ type ∈ (parametersToScala parameters).value, type.isRepeated = false := by
        simpa using (Bool.and_eq_true_iff.mp htyped).2
      have hresult : ((toScalaOrAny result).value).Throughout good :=
        throughout_toScalaOrAny hsuits result hformed.2.2.2.2 hcheck.2.2.2.2 hformed.2.1
      refine ScalaType.forall_mem_inner (List.forall_mem_append.mpr
        ⟨fun type hin => ?_, List.forall_mem_singleton.mpr hresult⟩)
      exact (hparameters type hin).resolve_left (Bool.eq_false_iff.mp (hnone type hin))
    · exact hsuits.anyFunction.2
  | .repeated element, hformed, hcheck =>
    -- The element of a rest type is no rest type itself.
    have helement : (element.toScala false).value.Throughout good :=
      ⟨element.good_toScala hsuits false hformed.2 hcheck.2 hformed.1 (.inl rfl),
        element.inside_toScala hsuits false hformed.2 hcheck.2⟩
    exact ScalaType.forall_mem_inner (List.forall_mem_singleton.mpr helement)
  | .parenthesized inner, hformed, hcheck =>
    rw [TypeExpr.toScala]
    exact inner.inside_toScala hsuits anyIsDynamic hformed.2 hcheck.2
  | .object _, _, _ | .constructor _, _, _ | .union _, _, _ | .intersection _, _, _
  | .tuple _, _, _ | .literal _, _, _ | .query _, _, _ => exact hsuits.any.2

/-- The same for several types. -/
theorem throughout_toScalaAll (hsuits : Suits check good) (types : List TypeExpr)
    (hformed : everyType formed types) (hcheck : everyType check types)
    (hrepeated : ∀ type ∈ types, type.isRepeated = false) :
    ∀ type ∈ (toScalaAll types).value, type.Throughout good := by
  match types, hformed, hcheck with
  | [], _, _ => exact fun _ hin => absurd hin List.not_mem_nil
  | type :: rest, hformed, hcheck =>
    rw [List.forall_mem_cons] at hrepeated
    rw [toScalaAll]
    refine List.forall_mem_cons.mpr ⟨⟨?_, type.inside_toScala hsuits false hformed.1 hcheck.1⟩,
      throughout_toScalaAll hsuits rest hformed.2 hcheck.2 hrepeated.2⟩
    exact type.good_toScala hsuits false hformed.1 hcheck.1 hrepeated.1 (.inl rfl)

/-- The same for a type that may be left out. -/
theorem throughout_toScalaOrAny (hsuits : Suits check good) (type : Option TypeExpr)
    (hformed : everyOption formed type) (hcheck : everyOption check type)
    (hrepeated : NotRepeated type) : (toScalaOrAny type).value.Throughout good := by
  match type, hformed, hcheck with
  | none, _, _ => exact hsuits.any
  | some type, hformed, hcheck =>
    rw [toScalaOrAny]
    exact ⟨type.good_toScala hsuits false hformed hcheck (hrepeated type rfl) (.inl rfl),
      type.inside_toScala hsuits false hformed hcheck⟩

/-- The type of a parameter is the type of a rest parameter, or good. -/
theorem throughout_parametersToScala (hsuits : Suits check good) (parameters : List Parameter)
    (hformed : everyParameter formed parameters) (hcheck : everyParameter check parameters) :
    ∀ type ∈ (parametersToScala parameters).value,
      type.isRepeated = true ∨ type.Throughout good := by
  match parameters, hformed, hcheck with
  | [], _, _ => exact fun _ hin => absurd hin List.not_mem_nil
  | ⟨_, _, none⟩ :: rest, hformed, hcheck =>
    rw [parametersToScala]
    exact List.forall_mem_cons.mpr ⟨.inr hsuits.any,
      throughout_parametersToScala hsuits rest hformed.2 hcheck.2⟩
  | ⟨_, _, some type⟩ :: rest, hformed, hcheck =>
    rw [parametersToScala]
    refine List.forall_mem_cons.mpr
      ⟨?_, throughout_parametersToScala hsuits rest hformed.2 hcheck.2⟩
    show (toScalaOrAny (some type)).value.isRepeated = true
      ∨ (toScalaOrAny (some type)).value.Throughout good
    rw [toScalaOrAny, isRepeated_toScala false hformed.1.2]
    cases hrepeated : type.isRepeated with
    | true => exact .inl rfl
    | false =>
      exact .inr ⟨type.good_toScala hsuits false hformed.1.2 hcheck.1.2 hrepeated (.inl rfl),
        type.inside_toScala hsuits false hformed.1.2 hcheck.1.2⟩

end

/-! ### The types that are written -/

/-- A check of a parameter is one of its type. -/
theorem Parameter.every_type {parameter : Parameter} (h : parameter.Every check) :
    everyOption check parameter.type := by
  obtain ⟨name, optional, type⟩ := parameter
  exact h.2

/-- What is asked of every node is asked of the types that are written in a signature. -/
theorem Signature.every_types {signature : Signature} (h : signature.Every check) :
    ∀ found ∈ signature.types, everyOption check found.2 := by
  obtain ⟨typeParameters, parameters, result⟩ := signature
  refine List.forall_mem_append.mpr ⟨List.forall_mem_map.mpr fun parameter hin => ?_,
    List.forall_mem_singleton.mpr h.2.2.2⟩
  exact Parameter.every_type (everyParameter_iff.mp h.2.2.1 parameter hin)

/-- A check of a member is one of the types that are written in it. -/
theorem Member.every_types {member : Member} (h : member.Every check) :
    ∀ found ∈ member.types, everyOption check found.2 := by
  match member, h with
  | .call signature, h => exact Signature.every_types h.2
  | .construct signature, h => exact Signature.every_types h.2
  | .index _ _, _ => exact fun _ hin => absurd hin List.not_mem_nil
  | .property _ _ type, h => exact List.forall_mem_singleton.mpr h.2
  | .method _ _ signature, h => exact Signature.every_types h.2
  | .static inner, h => exact inner.every_types h.2

/-- A check of a declaration is one of the types that are written in it. -/
theorem Declaration.every_types {declaration : Declaration} (h : declaration.Every check) :
    ∀ found ∈ declaration.types, everyOption check found.2 := by
  have hparents : ∀ {types : List TypeExpr}, everyType check types →
      ∀ found ∈ types.map (fun type => (TypePlace.parent, some type)),
        everyOption check found.2 := fun htypes =>
    List.forall_mem_map.mpr fun type hin => everyType_iff.mp htypes type hin
  refine List.forall_mem_append.mpr ⟨?_, fun found hin => ?_⟩
  · cases declaration with
    | «variable» name type => exact List.forall_mem_singleton.mpr h.2
    | function name signature => exact Signature.every_types h.2
    | «interface» name typeParameters parents members => exact hparents h.2.2.1
    | «class» name typeParameters parent interfaces members =>
      cases parent with
      | none => exact hparents h.2.2.2.1
      | some parent => exact hparents ⟨h.2.2.1, h.2.2.2.1⟩
    | _ => exact fun _ hin => absurd hin List.not_mem_nil
  · obtain ⟨member, hmember, hfound⟩ := List.mem_flatMap.mp hin
    exact Member.every_types (Declaration.every_members h member hmember) found hfound

/-- Only the parameters of a signature have rest types. -/
theorem Signature.notRepeated_types {signature : Signature} (h : signature.Every formed) :
    ∀ found ∈ signature.types, found.1 ≠ .parameter → NotRepeated found.2 := by
  obtain ⟨typeParameters, parameters, result⟩ := signature
  exact List.forall_mem_append.mpr ⟨List.forall_mem_map.mpr fun _ _ hne => absurd rfl hne,
    List.forall_mem_singleton.mpr fun _ => h.1⟩

/-- So it is for the signatures of a member. -/
theorem Member.notRepeated_types {member : Member} (h : member.Every formed) :
    ∀ found ∈ member.types, found.1 ≠ .parameter → NotRepeated found.2 := by
  match member, h with
  | .call signature, h => exact Signature.notRepeated_types h.2
  | .construct signature, h => exact Signature.notRepeated_types h.2
  | .index _ _, _ => exact fun _ hin => absurd hin List.not_mem_nil
  | .property _ _ type, h => exact List.forall_mem_singleton.mpr fun _ => h.1.2
  | .method _ _ signature, h => exact Signature.notRepeated_types h.2
  | .static inner, h => exact inner.notRepeated_types h.2

/-- Only a parameter has the type of a rest parameter. -/
theorem Declaration.notRepeated_types {declaration : Declaration} (h : declaration.Every formed) :
    ∀ found ∈ declaration.types, found.1 ≠ .parameter → NotRepeated found.2 := by
  have hparents : ∀ {types : List TypeExpr}, (∀ type ∈ types, type.isRepeated = false) →
      ∀ found ∈ types.map (fun type => (TypePlace.parent, some type)),
        found.1 ≠ .parameter → NotRepeated found.2 := fun htypes =>
    List.forall_mem_map.mpr fun type hin _ found hfound => by
      cases hfound
      exact htypes _ hin
  refine List.forall_mem_append.mpr ⟨?_, fun found hin => ?_⟩
  · cases declaration with
    | «variable» name type => exact List.forall_mem_singleton.mpr fun _ => h.1.2
    | function name signature => exact Signature.notRepeated_types h.2
    | «interface» name typeParameters parents members => exact hparents h.1.2
    | «class» name typeParameters parent interfaces members =>
      cases parent with
      | none => exact hparents h.1.2.2
      | some parent => exact hparents (List.forall_mem_cons.mpr ⟨h.1.2.1 parent rfl, h.1.2.2⟩)
    | _ => exact fun _ hin => absurd hin List.not_mem_nil
  · obtain ⟨member, hmember, hfound⟩ := List.mem_flatMap.mp hin
    exact Member.notRepeated_types (Declaration.every_members h member hmember) found hfound

/-! ### The types of a facade -/

/-- What stands inside of the type is good, and so is the type, if it is neither the repeated type
of a parameter nor a dynamic result. -/
def ScalaType.GoodAt (good : ScalaType → Prop) (place : TypePlace) (type : ScalaType) : Prop :=
  (∀ part ∈ type.inner, good part)
    ∧ (good type ∨ place = .parameter ∧ type.isRepeated = true ∨ place = .result ∧ type = .dynamic)

/-- A type that is good throughout is good at any place. -/
theorem ScalaType.Throughout.goodAt {type : ScalaType} (h : type.Throughout good)
    (place : TypePlace) : type.GoodAt good place :=
  ⟨h.2, .inl h.1⟩

/-- Parentheses hand on whether `any` is dynamic. -/
theorem TypeExpr.toScala_of_any {type : TypeExpr} (h : type.unwrap = .primitive .any) :
    (type.toScala true).value = .dynamic := by
  match type, h with
  | .primitive .any, _ => rfl
  | .parenthesized inner, h =>
    rw [TypeExpr.toScala]
    exact inner.toScala_of_any h

/-- The counterpart of a type at its place is good there. -/
theorem goodAt_toScala (hsuits : Suits check good) {place : TypePlace} {written : Option TypeExpr}
    (hformed : everyOption formed written) (hcheck : everyOption check written)
    (hrepeated : place ≠ .parameter → NotRepeated written) :
    ScalaType.GoodAt good place (place.toScala written).value := by
  cases place with
  -- The places differ in what the type itself may be, and not in what is inside of it.
  | parent | field =>
    exact (throughout_toScalaOrAny hsuits written hformed hcheck (hrepeated nofun)).goodAt _
  | parameter =>
    show ScalaType.GoodAt good .parameter (toScalaOrAny written).value
    cases written with
    | none => exact hsuits.any.goodAt _
    | some type =>
      rw [toScalaOrAny]
      refine ⟨type.inside_toScala hsuits false hformed hcheck, ?_⟩
      rw [isRepeated_toScala false hformed]
      cases hrest : type.isRepeated with
      | true => exact .inr (.inl ⟨rfl, rfl⟩)
      | false => exact .inl (type.good_toScala hsuits false hformed hcheck hrest (.inl rfl))
  | result =>
    show ScalaType.GoodAt good .result (toScalaOrDynamic written).value
    cases written with
    | none => exact ⟨ScalaType.forall_mem_inner fun _ hin => absurd hin List.not_mem_nil,
        .inr (.inr ⟨rfl, rfl⟩)⟩
    | some type =>
      refine ⟨type.inside_toScala hsuits true hformed hcheck, ?_⟩
      by_cases hany : type.unwrap = .primitive .any
      · exact .inr (.inr ⟨rfl, type.toScala_of_any hany⟩)
      · exact .inl (type.good_toScala hsuits true hformed hcheck (hrepeated nofun type rfl)
          (.inr hany))

/-- Declarations in shape bring good types only, apart from the repeated types of parameters and
dynamic results. -/
theorem TypeOf.goodAt (hsuits : Suits check good) {declarations : List Declaration}
    (hformed : everyDeclaration formed declarations) (hcheck : everyDeclaration check declarations)
    {place : TypePlace} {type : ScalaType} (h : TypeOf declarations place type) :
    type.GoodAt good place := by
  cases h with
  | unit =>
    exact ⟨ScalaType.forall_mem_inner fun _ hin => absurd hin List.not_mem_nil,
      .inl (hsuits.primitive .void nofun)⟩
  | object =>
    exact ⟨ScalaType.forall_mem_inner fun _ hin => absurd hin List.not_mem_nil,
      .inl (hsuits.js "Object" [] (by decide))⟩
  | written hdeclaration hwritten =>
    have hshape := every_allAtAnyDepth hformed _ hdeclaration
    exact goodAt_toScala hsuits (Declaration.every_types hshape _ hwritten)
      (Declaration.every_types (every_allAtAnyDepth hcheck _ hdeclaration) _ hwritten)
      (Declaration.notRepeated_types hshape _ hwritten)

end Facade
