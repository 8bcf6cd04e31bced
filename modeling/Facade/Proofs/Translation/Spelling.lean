import Facade.Proofs.Declaration.FormedDocument
import Facade.Proofs.Declaration.Printed.Written
import Facade.Proofs.Definition.Names
import Facade.Proofs.Translation.Everywhere
import Facade.Proofs.Translation.Varargs

/-!
# How the definitions of a facade are spelled

Most names of a facade are words, whatever the source that is read: the scanner makes words of the
names of variables, parameters and types, and the names of the JavaScript side and those that are
made up are words as well. The others are two: the names of packages on the output path, and the
names of members, which may be strings of any characters. `Document.spelled_toPackage` states that
with a condition on each of the two, by way of the edits in the scripts of declarations.

The one name that is not simply handed on is that of a type parameter which a class adopts together
with its constructors. It is compared with a type first, and types are spelled in words
(`isWord_of_isSelfType`).
-/

set_option autoImplicit false

namespace Facade

variable {package member : Identifier → Prop}

/-- How a definition is spelled does not depend on what is inside of it. -/
theorem Definition.spelled_front {definition : Definition} :
    definition.front.Spelled package member ↔ definition.Spelled package member := by
  cases definition <;> exact Iff.rfl

/-! ### Types -/

/-- A name without a path in front is spelled if it is a word. -/
theorem spelled_plain {name : String} (h : Identifier.IsWord ⟨name⟩) :
    (ScalaType.plain name).Spelled :=
  ScalaType.spelled_applied (List.forall_mem_singleton.mpr h) fun _ hin =>
    absurd hin List.not_mem_nil

/-- A name of the JavaScript side with its arguments is spelled if these are. -/
theorem spelled_js {name : String} {arguments : List ScalaType} (h : Identifier.IsWord ⟨name⟩)
    (harguments : ∀ type ∈ arguments, type.Spelled) : (ScalaType.js name arguments).Spelled := by
  refine ScalaType.spelled_applied (List.forall_mem_cons.mpr ⟨?_, List.forall_mem_singleton.mpr h⟩)
    harguments
  decide

/-- What becomes of a primitive type is spelled. -/
theorem Primitive.spelled_toScala (anyIsDynamic : Bool) (type : Primitive) :
    (type.toScala anyIsDynamic).Spelled := by
  have hnone : ∀ type ∈ ([] : List ScalaType), type.Spelled :=
    fun _ hin => absurd hin List.not_mem_nil
  cases type with
  | any =>
    cases anyIsDynamic
    · exact spelled_js (by decide) hnone
    · exact spelled_js (by decide) hnone
  | void | number | bool | boolean | string => exact spelled_plain (by decide)

/-- What becomes of a named type is spelled, whether it is one of the JavaScript side or not. -/
theorem spelled_namedToScala {path : List String} (hpath : ∀ name ∈ path, Identifier.IsWord ⟨name⟩)
    {arguments : List ScalaType} (harguments : ∀ type ∈ arguments, type.Spelled) :
    (namedToScala path arguments).Spelled := by
  unfold namedToScala
  split
  · exact spelled_js (by decide) harguments
  · exact spelled_js (by decide) fun _ hin => absurd hin List.not_mem_nil
  · exact ScalaType.spelled_applied (List.forall_mem_map.mpr hpath) harguments

/-- The type of any value is spelled. -/
theorem spelled_any : ScalaType.any.Spelled :=
  Primitive.spelled_toScala false .any

/-- The type of any function is spelled. -/
theorem spelled_anyFunction : ScalaType.anyFunction.Spelled :=
  spelled_js (by decide) fun _ hin => absurd hin List.not_mem_nil

/-- A function type is spelled if its parameters and its result are: the number in its name keeps it
a word. -/
theorem spelled_function {types : List ScalaType} (h : ∀ type ∈ types, type.Spelled) :
    (ScalaType.function types).Spelled :=
  spelled_js (Identifier.isWord_append_number (by decide) _) h

mutual

/-- Types that are read become types that are spelled in words. -/
theorem TypeExpr.spelled_toScala (anyIsDynamic : Bool) (type : TypeExpr) (h : type.Every formed) :
    (type.toScala anyIsDynamic).value.Spelled := by
  match type, h with
  | .primitive type, _ => exact type.spelled_toScala anyIsDynamic
  | .named path arguments, h =>
    obtain ⟨⟨⟨first, rest, rfl, hfirst, hrest⟩, -⟩, harguments⟩ := h
    refine spelled_namedToScala (List.forall_mem_cons.mpr ⟨hfirst.1, ?_⟩)
      (spelled_toScalaAll arguments harguments)
    exact fun segment hsegment => (hrest segment hsegment).isWord
  | .function ⟨typeParameters, parameters, result⟩, h =>
    have htypes := spelled_parametersToScala parameters h.2.2.2.1
    rw [TypeExpr.toScala, Noted.value_bind]
    split
    · have hresult := List.forall_mem_singleton.mpr (spelled_toScalaOrAny result h.2.2.2.2)
      exact spelled_function (List.forall_mem_append.mpr ⟨htypes, hresult⟩)
    -- With type parameters of its own or a repeated parameter, it is any function.
    · exact spelled_anyFunction
  | .repeated element, h => exact ScalaType.spelled_repeated (element.spelled_toScala false h.2)
  | .parenthesized inner, h =>
    rw [TypeExpr.toScala]
    exact inner.spelled_toScala anyIsDynamic h.2
  | .object _, _ | .constructor _, _ | .union _, _ | .intersection _, _ | .tuple _, _
  | .literal _, _ | .query _, _ => exact spelled_any

/-- So are several types, one by one. -/
theorem spelled_toScalaAll (types : List TypeExpr) (h : everyType formed types) :
    ∀ type ∈ (toScalaAll types).value, type.Spelled := by
  match types, h with
  | [], _ => exact fun _ hin => absurd hin List.not_mem_nil
  | type :: rest, h =>
    rw [toScalaAll]
    exact List.forall_mem_cons.mpr ⟨type.spelled_toScala false h.1, spelled_toScalaAll rest h.2⟩

/-- So is a type that may be missing, since any value takes its place. -/
theorem spelled_toScalaOrAny (type : Option TypeExpr) (h : everyOption formed type) :
    (toScalaOrAny type).value.Spelled := by
  match type, h with
  | none, _ => exact spelled_any
  | some type, h =>
    rw [toScalaOrAny]
    exact type.spelled_toScala false h

/-- So are the types of parameters. -/
theorem spelled_parametersToScala (parameters : List Parameter)
    (h : everyParameter formed parameters) :
    ∀ type ∈ (parametersToScala parameters).value, type.Spelled := by
  match parameters, h with
  | [], _ => exact fun _ hin => absurd hin List.not_mem_nil
  | ⟨_, _, type⟩ :: rest, h =>
    rw [parametersToScala]
    exact List.forall_mem_cons.mpr ⟨spelled_toScalaOrAny type h.1.2,
      spelled_parametersToScala rest h.2⟩

end

/-- So is a result that may be missing, with a dynamic value in its place. -/
theorem spelled_toScalaOrDynamic (type : Option TypeExpr) (h : everyOption formed type) :
    (toScalaOrDynamic type).value.Spelled := by
  cases type with
  | none => exact Primitive.spelled_toScala true .any
  | some type => exact type.spelled_toScala true h

/-! ### Signatures -/

/-- A parameter keeps its name, which is a word, and its type is spelled. -/
theorem Parameter.spelled_toMethod {parameter : Parameter} (h : parameter.Every formed) :
    parameter.toMethod.Spelled := by
  obtain ⟨name, optional, type⟩ := parameter
  exact ⟨h.1.isWord, spelled_toScalaOrAny type h.2⟩

/-- The names of type parameters are words. -/
theorem TypeParameter.isWord_identifiers {parameters : List TypeParameter}
    (h : everyTypeParameter formed parameters) :
    ∀ name ∈ TypeParameter.identifiers parameters, name.IsWord := by
  refine List.forall_mem_map.mpr fun parameter hparameter => ?_
  obtain ⟨name, bound, default⟩ := parameter
  exact (everyTypeParameter_iff.mp h _ hparameter).1.1.isWord

/-- Parameters keep their names and types, whichever of them are left out. -/
theorem Signature.spelled_parameterLists {signature : Signature} (h : signature.Every formed) :
    ∀ parameters ∈ signature.parameterLists, ∀ parameter ∈ parameters, parameter.Spelled := by
  obtain ⟨typeParameters, given, result⟩ := signature
  have hall : ∀ parameter ∈ (Parameter.toMethods given).value, parameter.Spelled := by
    rw [Parameter.value_toMethods]
    exact List.forall_mem_map.mpr fun parameter hparameter =>
      Parameter.spelled_toMethod (everyParameter_iff.mp h.2.2.1 parameter hparameter)
  intro parameters hparameters
  rcases List.mem_append.mp hparameters with hshort | hfull
  · obtain ⟨more, -, rfl⟩ := List.mem_map.mp hshort
    refine List.forall_mem_map.mpr fun parameter hparameter => ?_
    have hspelled := hall parameter (List.mem_of_mem_take hparameter)
    exact ⟨hspelled.name, hspelled.type⟩
  · rw [List.mem_singleton.mp hfull]
    exact hall

/-! ### Entries -/

/-- A name that is made up is a word: it is one with a number behind it. -/
theorem Identifier.IsMadeUp.isWord {name : Identifier} (h : name.IsMadeUp) : name.IsWord := by
  obtain ⟨count, rfl⟩ := h
  exact Identifier.isWord_append_number (by decide) count

/-- A member is called what it is called, or a name is made up for it. -/
theorem called_getD {member : Identifier → Prop}
    (hword : ∀ name : Identifier, name.IsWord → member name)
    {given : Option Identifier} (hgiven : ∀ name ∈ given, member name) {fresh : Identifier}
    (hfresh : fresh.IsMadeUp) : member (given.getD fresh) := by
  cases given with
  | none => exact hword fresh hfresh.isWord
  | some name => exact hgiven name rfl

/-- A comment has no names. -/
theorem Entry.fits_comment (text : String) :
    (Entry.comment text).Fits (Definition.Spelled package member) :=
  fun _ _ => List.forall_mem_singleton.mpr trivial

/-- A field is spelled if its type is, under its name or one that is made up. -/
theorem Entry.fits_field (hword : ∀ name : Identifier, name.IsWord → member name)
    {given : Option Identifier} (hgiven : ∀ name ∈ given, member name) {type : ScalaType}
    (htype : type.Spelled) : (Entry.field given type).Fits (Definition.Spelled package member) :=
  fun _ hfresh => List.forall_mem_singleton.mpr ⟨called_getD hword hgiven hfresh, htype⟩

/-- Methods of a signature in shape are spelled, under their name or one that is made up. -/
theorem Entry.fits_ofSignature (hword : ∀ name : Identifier, name.IsWord → member name)
    {given : Option Identifier} (hgiven : ∀ name ∈ given, member name) {signature : Signature}
    (h : signature.Every formed) :
    (Entry.ofSignature given signature).value.Fits (Definition.Spelled package member) := by
  intro fresh hfresh
  refine List.forall_mem_map.mpr fun parameters hparameters => ?_
  obtain ⟨typeParameters, all, result⟩ := signature
  exact ⟨.inr (called_getD hword hgiven hfresh), TypeParameter.isWord_identifiers h.2.1,
    Signature.spelled_parameterLists h parameters hparameters,
    spelled_toScalaOrDynamic result h.2.2.2⟩

/-- Constructors are not written under a name. -/
theorem Entry.fits_constructors {alternatives : List (List MethodParameter)}
    (h : ∀ parameters ∈ alternatives, ∀ parameter ∈ parameters, parameter.Spelled) :
    (Entry.methods (some .constructor) [] alternatives .unit).Fits
      (Definition.Spelled package member) := by
  intro fresh _
  refine List.forall_mem_map.mpr fun parameters hparameters => ?_
  exact ⟨.inl rfl, fun _ hin => absurd hin List.not_mem_nil, h parameters hparameters,
    spelled_plain (by decide)⟩

/-! ### Changes of a class -/

/-- What is added to a list was there, or is new. -/
theorem mem_addMissing {α : Type} [DecidableEq α] {present new : List α} {item : α}
    (h : item ∈ ClassDefinition.addMissing present new) : item ∈ present ∨ item ∈ new := by
  unfold ClassDefinition.addMissing at h
  induction new generalizing present with
  | nil => exact .inl h
  | cons first rest ih =>
    rw [List.foldl_cons] at h
    rcases ih h with hin | hin
    · split at hin
      · exact .inl hin
      · rcases List.mem_append.mp hin with hin | hin
        · exact .inl hin
        · exact .inr (List.mem_singleton.mp hin ▸ List.mem_cons_self)
    · exact .inr (List.mem_cons_of_mem _ hin)

/-- To enter something into a class spells what is entered. -/
theorem ClassChange.fits_enter {entry : Entry}
    (h : entry.Fits (Definition.Spelled package member)) :
    (ClassChange.enter entry).Fits (Definition.Spelled package member) where
  front _ hfront := hfront
  entry _ hentry := by
    cases hentry
    exact h

/-- Constructors are spelled if their parameters are. -/
theorem ClassChange.fits_constructors {alternatives : List (List MethodParameter)}
    (h : ∀ parameters ∈ alternatives, ∀ parameter ∈ parameters, parameter.Spelled) :
    (ClassChange.constructors alternatives).Fits (Definition.Spelled package member) where
  front _ hfront := hfront
  entry _ hentry := by
    cases hentry
    exact Entry.fits_constructors h

/-- A header brings its own type parameters and parents, and `js.Object` where there are none. -/
theorem spelled_addHeader {definition : ClassDefinition} {new : List Identifier}
    {parents : List ScalaType} (hnew : ∀ name ∈ new, name.IsWord)
    (hparents : ∀ type ∈ parents, type.Spelled)
    (h : (Definition.class definition).Spelled package member) :
    (Definition.class (definition.addHeader new parents)).Spelled package member := by
  obtain ⟨hname, htypeParameters, hpresent⟩ := h
  refine ⟨hname, fun name hin => ?_, fun type hin => ?_⟩
  · exact (mem_addMissing hin).elim (htypeParameters name) (hnew name)
  · simp only [ClassDefinition.addHeader] at hin
    split at hin
    · split at hin
      · rw [List.mem_singleton.mp hin]
        exact spelled_js (by decide) fun _ hin => absurd hin List.not_mem_nil
      · exact hpresent type hin
    · rcases mem_addMissing hin with hin | hin
      · exact hpresent type (List.mem_of_mem_filter hin)
      · exact hparents type hin

/-- A header is spelled if its type parameters are words and its parents are spelled. -/
theorem ClassChange.fits_header {new : List Identifier} {parents : List ScalaType}
    (hnew : ∀ name ∈ new, name.IsWord) (hparents : ∀ type ∈ parents, type.Spelled) :
    (ClassChange.header new parents).Fits (Definition.Spelled package member) where
  front definition hfront := Definition.spelled_front.mpr
    (spelled_addHeader hnew hparents (Definition.spelled_front.mp hfront))
  entry _ hentry := by cases hentry

/-- A class that takes a constructor over has its type parameters from there. -/
theorem ClassChange.fits_adopt {own : List Identifier} {alternatives : List (List MethodParameter)}
    (hown : ∀ name ∈ own, name.IsWord)
    (h : ∀ parameters ∈ alternatives, ∀ parameter ∈ parameters, parameter.Spelled) :
    (ClassChange.adopt own alternatives).Fits (Definition.Spelled package member) where
  front definition hfront := by
    have hbefore := Definition.spelled_front.mp hfront
    have hheader : (Definition.class (definition.withHeader own)).Spelled package member := by
      refine ⟨hbefore.1, fun name hin => ?_, hbefore.2.2⟩
      simp only [ClassDefinition.withHeader] at hin
      split at hin
      · exact hown name hin
      · exact hbefore.2.1 name hin
    have hnone : ∀ name ∈ ([] : List Identifier), name.IsWord :=
      fun _ hin => absurd hin List.not_mem_nil
    exact Definition.spelled_front.mpr
      (spelled_addHeader hnone (fun _ hin => absurd hin List.not_mem_nil) hheader)
  entry _ hentry := by
    cases hentry
    exact Entry.fits_constructors h

/-! ### Edits -/

/-- A change of a class under a word is spelled if the change is. -/
theorem Edit.fits_onClass {name : Identifier} (hname : name.IsWord) {change : ClassChange}
    (h : change.Fits (Definition.Spelled package member)) :
    (Edit.onClass name change).Fits (Definition.Spelled package member) :=
  ⟨⟨hname, fun _ hin => absurd hin List.not_mem_nil, fun _ hin => absurd hin List.not_mem_nil⟩, h⟩

/-- An entry is spelled wherever the holder puts it, as a class or as an object. -/
theorem Holder.fits_edit {name : Identifier} (hname : name.IsWord) {entry : Entry}
    (h : entry.Fits (Definition.Spelled package member)) (holder : Holder) :
    (holder.edit name entry).Fits (Definition.Spelled package member) := by
  cases holder with
  | ofObject => exact ⟨hname, h⟩
  | ofInterface | ofClass => exact Edit.fits_onClass hname (ClassChange.fits_enter h)

/-! ### Scripts -/

/-- What holds of a type at every depth holds of it without its parentheses. -/
theorem TypeExpr.every_unwrap {check : Check} (type : TypeExpr) (h : type.Every check) :
    type.unwrap.Every check := by
  match type, h with
  | .parenthesized inner, h => exact inner.every_unwrap h.2
  | .primitive _, h | .named _ _, h | .object _, h | .function _, h | .constructor _, h
  | .repeated _, h | .union _, h | .intersection _, h | .tuple _, h | .literal _, h
  | .query _, h => exact h

/-- Type parameters that are found as types are words. -/
theorem isWord_of_areBare {types : List TypeExpr} {own : List Identifier}
    (hformed : everyType formed types) (h : TypeExpr.areBare types own = true) :
    ∀ name ∈ own, name.IsWord := by
  induction types generalizing own with
  | nil =>
    cases own with
    | nil => exact fun _ hin => absurd hin List.not_mem_nil
    | cons name names => cases h
  | cons type rest ih =>
    cases own with
    | nil => cases h
    | cons name names =>
      rw [TypeExpr.areBare, Bool.and_eq_true] at h
      refine List.forall_mem_cons.mpr ⟨?_, ih hformed.2 h.2⟩
      have hbare := h.1
      unfold TypeExpr.isBare at hbare
      split at hbare
      · rename_i single
        obtain ⟨⟨⟨first, more, heq, hname, -⟩, -⟩, -⟩ := hformed.1
        cases heq
        rw [Identifier.IsWord, ← eq_of_beq hbare]
        exact hname.1
      · cases hbare

/-- In particular those that a result names as its own. -/
theorem isWord_of_isSelfType {name : Identifier} {own : List Identifier} {result : Option TypeExpr}
    (hformed : everyOption formed result)
    (h : result.any (TypeExpr.isSelfType name own) = true) : ∀ found ∈ own, found.IsWord := by
  cases result with
  | none => cases h
  | some type =>
    have hunwrap := type.every_unwrap hformed
    have hself : type.isSelfType name own = true := h
    unfold TypeExpr.isSelfType at hself
    split at hself
    · rename_i single arguments heq
      rw [heq] at hunwrap
      rw [Bool.and_eq_true] at hself
      exact isWord_of_areBare hunwrap.2 hself.2
    · cases hself

/-- A member is called what it is called in the source, if that is not empty. -/
theorem memberName?_called {word : String} (h : word ≠ "" → member ⟨word⟩) :
    ∀ name ∈ memberName? word, member name := by
  intro name hname
  unfold memberName? at hname
  split at hname
  · cases hname
  · rename_i hne
    cases hname
    exact h (by simpa using hne)

/-- What a member that is read makes has words for names, and what the member is called. -/
theorem Member.Makes.fits (hword : ∀ name : Identifier, name.IsWord → member name)
    {name : Identifier} (hname : name.IsWord) {own : List Identifier} {holder : Holder}
    {given : Member} {edit : Edit} (h : given.Makes holder name own edit)
    (hformed : given.bare.Every formed)
    (hgiven : ∀ word, given.bare.name? = some word → word ≠ "" → member ⟨word⟩) :
    edit.Fits (Definition.Spelled package member) := by
  have hlists : ∀ {signature : Signature}, signature.Every formed →
      ∀ parameters ∈ (constructorAlternatives name signature).value,
        ∀ parameter ∈ parameters, parameter.Spelled := by
    intro signature hsignature
    rw [constructorAlternatives_eq]
    exact Signature.spelled_parameterLists hsignature
  cases h with
  | companion => exact hname
  | comment text _ => exact Holder.fits_edit hname (Entry.fits_comment text) _
  | call _ hbare =>
    rw [hbare] at hformed
    refine Holder.fits_edit hname
      (Entry.fits_ofSignature hword (fun apply happly => ?_) hformed.2) _
    cases happly
    exact hword .apply (by decide)
  | property _ hbare =>
    rw [hbare] at hformed hgiven
    exact Holder.fits_edit hname (Entry.fits_field hword (memberName?_called (hgiven _ rfl))
      (spelled_toScalaOrAny _ hformed.2)) _
  | method _ hbare =>
    rw [hbare] at hformed hgiven
    exact Holder.fits_edit hname
      (Entry.fits_ofSignature hword (memberName?_called (hgiven _ rfl)) hformed.2) _
  | @adopt signature hbare hself =>
    rw [hbare] at hformed
    -- The type parameters stand in the type that is constructed, so they were read.
    have hown : ∀ found ∈ own, found.IsWord := by
      obtain ⟨typeParameters, parameters, result⟩ := signature
      exact isWord_of_isSelfType hformed.2.2.2.2 hself
    exact Edit.fits_onClass hname (ClassChange.fits_adopt hown (hlists hformed.2))
  | construct _ heq | constructor _ heq =>
    subst heq
    exact Edit.fits_onClass hname (ClassChange.fits_constructors (hlists hformed.2))

/-- What the members are called that have a name of their own keeps to a condition. -/
def Member.Called (member : Identifier → Prop) (members : List Member) : Prop :=
  ∀ given ∈ members, ∀ word, given.name? = some word → word ≠ "" → member ⟨word⟩

/-- The edits of members that are read have words for names, and what the members are called. -/
theorem Member.fits_scripts (hword : ∀ name : Identifier, name.IsWord → member name)
    {name : Identifier} (hname : name.IsWord) (own : List Identifier) (holder : Holder)
    {members : List Member} (hformed : everyMember formed members)
    (hcalled : Member.Called member (members.map Member.bare)) :
    ∀ edit ∈ (Member.scripts holder name own members).value,
      edit.Fits (Definition.Spelled package member) := by
  refine forall_mem_scripts fun given hgiven edit hmakes => ?_
  have hbare := given.every_bare (everyMember_iff.mp hformed given hgiven)
  exact hmakes.fits hword hname hbare (hcalled given.bare (List.mem_map_of_mem hgiven))

/-- A class opens with its header, and its members follow. -/
theorem fits_classScript (hword : ∀ name : Identifier, name.IsWord → member name)
    {holder : Holder} {name : String} (hname : IsBindingName name)
    {typeParameters : List TypeParameter}
    (htypeParameters : everyTypeParameter formed typeParameters)
    {parents : List TypeExpr} (hparents : everyType formed parents) {members : List Member}
    (hmembers : everyMember formed members)
    (hcalled : Member.Called member (members.map Member.bare)) (own : List Identifier) :
    ∀ edit ∈ (classScript holder name typeParameters parents members own).value,
      edit.Fits (Definition.Spelled package member) := by
  have hheader : (Edit.onClass ⟨name⟩ (.header (TypeParameter.identifiers typeParameters)
      (toScalaAll parents).value)).Fits (Definition.Spelled package member) :=
    Edit.fits_onClass hname.isWord (ClassChange.fits_header
      (TypeParameter.isWord_identifiers htypeParameters) (spelled_toScalaAll parents hparents))
  exact List.forall_mem_cons.mpr
    ⟨hheader, Member.fits_scripts hword hname.isWord own holder hmembers hcalled⟩

/-- A declaration of a class that is read has a name for the class, and its parts are in shape. -/
theorem Declaration.DeclaresClass.formed {declaration : Declaration} {holder : Holder}
    {name : String} {typeParameters : List TypeParameter} {parents : List TypeExpr}
    {members : List Member}
    (h : declaration.DeclaresClass holder name typeParameters parents members)
    (hformed : declaration.Every formed) : IsBindingName name
      ∧ everyTypeParameter Facade.formed typeParameters ∧ everyType Facade.formed parents
      ∧ everyMember Facade.formed members := by
  cases h with
  | «interface» => exact ⟨hformed.1.1, hformed.2⟩
  | «alias» => exact ⟨hformed.1.1, hformed.2.1, trivial, hformed.2.2.2⟩
  | «class» _ _ parent interfaces _ =>
    obtain ⟨⟨hname, -⟩, hparameters, hparent, hinterfaces, hmembers⟩ := hformed
    have hparents : everyType Facade.formed (parent.toList ++ interfaces) := by
      cases parent with
      | none => exact hinterfaces
      | some parent => exact ⟨hparent, hinterfaces⟩
    exact ⟨hname, hparameters, hparents, hmembers⟩

/-- The edits of a declaration that is read have words for names, and what its members are
called. -/
theorem Declaration.fits_script (hword : ∀ name : Identifier, name.IsWord → member name)
    (own : List Identifier) (declaration : Declaration) (hformed : declaration.Every formed)
    (hcalled : Member.Called member declaration.members) :
    ∀ edit ∈ (declaration.script own).value, edit.Fits (Definition.Spelled package member) := by
  have hscripts := declaration.scripts_script own
  generalize declaration.script own = script at hscripts ⊢
  cases hscripts with
  | @field name type _ =>
    refine List.forall_mem_singleton.mpr (Entry.fits_field hword (fun given hgiven => ?_)
      (spelled_toScalaOrAny type hformed.2))
    cases hgiven
    exact hword _ hformed.1.1.isWord
  | object name members =>
    have hname : Identifier.IsWord ⟨name⟩ := hformed.1.1.isWord
    exact List.forall_mem_cons.mpr
      ⟨hname, Member.fits_scripts hword hname own .ofObject hformed.2.2 hcalled⟩
  | function name signature =>
    refine List.forall_mem_singleton.mpr
      (Entry.fits_ofSignature hword (fun given hgiven => ?_) hformed.2)
    cases hgiven
    exact hword _ hformed.1.isWord
  | «class» hclass =>
    obtain ⟨hname, htypeParameters, hparents, hmembers⟩ := hclass.formed hformed
    exact fits_classScript hword hname htypeParameters hparents hmembers
      (hclass.members_eq ▸ hcalled) own
  | comment text _ => exact List.forall_mem_singleton.mpr (Entry.fits_comment text)
  | «namespace» => exact List.forall_mem_nil _

/-! ### Facades -/

mutual

/-- The names in the path of a namespace can be declared. -/
theorem Declaration.isBindingName_segments (declaration : Declaration)
    (h : declaration.Every formed) : ∀ segment ∈ declaration.segments, IsBindingName segment := by
  match declaration, h with
  | .namespace path declarations, h =>
    rw [Declaration.segments, List.forall_mem_append]
    exact ⟨h.1.2, isBindingName_segmentsOf declarations h.2⟩
  | .variable _ _, _ | .function _ _, _ | .interface _ _ _ _, _ | .alias _ _ _, _
  | .class _ _ _ _ _, _ | .unsupported _, _ =>
    rw [Declaration.segments]
    · exact fun _ hin => absurd hin List.not_mem_nil
    · exact fun _ _ => Declaration.noConfusion

/-- The same for all paths of namespaces in a list of declarations. -/
theorem isBindingName_segmentsOf (declarations : List Declaration)
    (h : everyDeclaration formed declarations) :
    ∀ segment ∈ segmentsOf declarations, IsBindingName segment := by
  match declarations, h with
  | [], _ => exact fun _ hin => absurd hin List.not_mem_nil
  | declaration :: rest, h =>
    rw [segmentsOf, List.forall_mem_append]
    exact ⟨declaration.isBindingName_segments h.1, isBindingName_segmentsOf rest h.2⟩

end

/-- In the facade of a document that is read, packages have words for names or names of the output
path, members have words for names or the names that they are given, and all other names are
words. -/
theorem Document.spelled_toPackage {document : Document}
    (hformed : everyDeclaration formed document.declarations) {path : DottedName}
    (hpath : ∀ name ∈ path.segments, package name)
    (hpackage : ∀ name : Identifier, name.IsWord → package name)
    (hword : ∀ name : Identifier, name.IsWord → member name)
    (hcalled : ∀ declaration ∈ allAtAnyDepth document.declarations,
      Member.Called member declaration.members) :
    (document.toPackage path).value.body.Everywhere (Definition.Spelled package member) := by
  refine document.everywhere_toPackage (fun declaration hdeclaration own => ?_)
    (fun segment hsegment _ => ?_) fun name hname _ => hpath name hname
  · exact declaration.fits_script hword own (every_allAtAnyDepth hformed declaration hdeclaration)
      (hcalled declaration hdeclaration)
  · have hsegments := isBindingName_segmentsOf document.declarations hformed
    exact hpackage _ (hsegments segment hsegment).isWord

end Facade
