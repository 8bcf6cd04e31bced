import Facade.Proofs.Translation.Overloads

/-!
# The signatures behind the methods of a facade

Every method of a facade goes back to a signature of the document. `Declaration.Calls` and
`Declaration.Constructs` are the two ways in which a declaration gives one: under a name, as methods
of whatever holds them, or as constructors of a class. `Overloads.Of` is what these two make, and
`Document.composed_toPackage` says that a facade is composed of nothing else.

What a member makes and the script of a declaration are compared with the two ways in
`Member.Makes.obeys` and `Declaration.obeys_script`.
-/

set_option autoImplicit false

namespace Facade

/-! ### Signatures of a document -/

/-- The parameters of the methods that a signature makes, the fewest first. -/
def Signature.parameterLists (signature : Signature) : List (List MethodParameter) :=
  MethodParameter.alternatives (Parameter.toMethods signature.parameters).value

/-- The member is called with a signature, under a name unless it has none. -/
inductive Member.Calls : Member → Option Identifier → Signature → Prop where
  | call (signature : Signature) : Calls (.call signature) (some .apply) signature
  | method (word : String) (optional : Bool) (signature : Signature) :
      Calls (.method word optional signature) (memberName? word) signature

/-- The declaration is a function, or one of its members is called. -/
inductive Declaration.Calls : Declaration → Option Identifier → Signature → Prop where
  | function (name : String) (signature : Signature) :
      Calls (.function name signature) (some ⟨name⟩) signature
  | member {declaration : Declaration} {member : Member} {name : Option Identifier}
      {signature : Signature} : member ∈ declaration.members → member.Calls name signature →
      Calls declaration name signature

/-- The declaration has a construct signature, or is a class whose member `constructor` has the
signature. -/
inductive Declaration.Constructs : Declaration → Signature → Prop where
  | construct {declaration : Declaration} {signature : Signature} :
      .construct signature ∈ declaration.members → Constructs declaration signature
  | constructor {name : String} {typeParameters : List TypeParameter} {parent : Option TypeExpr}
      {interfaces : List TypeExpr} {members : List Member} {optional : Bool}
      {signature : Signature} : .method "constructor" optional signature ∈ members →
      Constructs (.class name typeParameters parent interfaces members) signature

/-- The methods of a signature that is called under a name, or under one that is made up. -/
def Signature.overloads (signature : Signature) (name : Identifier) : Overloads where
  name
  typeParameters := TypeParameter.identifiers signature.typeParameters
  alternatives := signature.parameterLists
  result := (toScalaOrDynamic signature.result).value

/-- The constructors of a signature. -/
def Signature.constructors (signature : Signature) : Overloads :=
  ⟨.constructor, [], signature.parameterLists, .unit⟩

/-- What declarations make: methods anywhere, and constructors in classes. -/
inductive Overloads.Of (declarations : List Declaration) : Site → Overloads → Prop where
  | methods {site : Site} {declaration : Declaration} {given : Option Identifier}
      {signature : Signature} {made : Identifier} :
      declaration ∈ allAtAnyDepth declarations → declaration.Calls given signature →
      made.IsMadeUp → Of declarations site (signature.overloads (given.getD made))
  | constructors {declaration : Declaration} {signature : Signature} :
      declaration ∈ allAtAnyDepth declarations → declaration.Constructs signature →
      Of declarations .inClass signature.constructors

/-! ### What scripts enter -/

variable {rule : Site → Overloads → Prop}

/-- The methods of a signature keep to a rule wherever they stand. -/
def Signature.Keeps (rule : Site → Overloads → Prop) (given : Option Identifier)
    (signature : Signature) : Prop :=
  ∀ site, ∀ made : Identifier, made.IsMadeUp → rule site (signature.overloads (given.getD made))

/-- The methods of a signature obey a rule that the signature keeps to. -/
theorem Entry.obeys_ofSignature {given : Option Identifier} {signature : Signature}
    (h : signature.Keeps rule given) (site : Site) :
    (Entry.ofSignature given signature).value.Obeys (rule site) := by
  intro fresh hfresh overloads hin
  cases hin
  exact h site fresh hfresh

/-- An entry that obeys a rule obeys it in the body of a holder. -/
theorem Holder.obeys_edit {entry : Entry} (h : ∀ site, entry.Obeys (rule site)) (holder : Holder)
    (name : Identifier) : (holder.edit name entry).Obeys rule := by
  cases holder <;> exact h _

/-- The constructors of a signature have its lists of parameters. -/
theorem constructorAlternatives_eq (name : Identifier) (signature : Signature) :
    (constructorAlternatives name signature).value = signature.parameterLists := by
  unfold constructorAlternatives
  cases signature.typeParameters.isEmpty <;> rfl

/-- What a member makes obeys a rule, if what it is called with and what it constructs do. -/
theorem Member.Makes.obeys {holder : Holder} {name : Identifier} {own : List Identifier}
    {member : Member} {edit : Edit} (h : member.Makes holder name own edit)
    (hcalls : ∀ given signature, member.bare.Calls given signature → signature.Keeps rule given)
    (hconstruct : ∀ signature, member.bare = .construct signature →
      rule .inClass signature.constructors)
    (hconstructor : holder = .ofClass → ∀ optional signature,
      member = .method "constructor" optional signature → rule .inClass signature.constructors) :
    edit.Obeys rule := by
  cases h with
  | companion => trivial
  | comment _ _ | property _ _ => exact Holder.obeys_edit (fun _ _ _ _ hin => by cases hin) _ name
  | @call _ signature _ hbare =>
    have hkeeps := hcalls (some .apply) signature (by rw [hbare]; exact .call signature)
    exact Holder.obeys_edit (Entry.obeys_ofSignature hkeeps) _ name
  | @method _ word optional signature _ hbare =>
    have hkeeps := hcalls (memberName? word) signature
      (by rw [hbare]; exact .method word optional signature)
    exact Holder.obeys_edit (Entry.obeys_ofSignature hkeeps) _ name
  | adopt hbare _ =>
    have hrule := hconstruct _ hbare
    rwa [Signature.constructors, ← constructorAlternatives_eq name] at hrule
  | @construct signature _ heq =>
    have hrule := hconstruct signature (by rw [heq]; rfl)
    rwa [Signature.constructors, ← constructorAlternatives_eq name] at hrule
  | constructor hclass heq =>
    have hrule := hconstructor hclass _ _ heq
    rwa [Signature.constructors, ← constructorAlternatives_eq name] at hrule

namespace Declaration

/-- The edits of a member of a declaration obey what the overloads of the declaration obey. -/
theorem obeys_member {declaration : Declaration} {holder : Holder} {name : Identifier}
    {own : List Identifier} {members : List Member}
    (hmembers : declaration.members = members.map Member.bare)
    (hcalls : ∀ given signature, declaration.Calls given signature → signature.Keeps rule given)
    (hconstructs : ∀ signature, declaration.Constructs signature →
      rule .inClass signature.constructors)
    (hclass : holder = .ofClass → ∀ optional signature,
      .method "constructor" optional signature ∈ members → declaration.Constructs signature) :
    ∀ edit ∈ (Member.scripts holder name own members).value, edit.Obeys rule := by
  refine Member.forall_mem_scripts fun member hmember edit hmakes => ?_
  have hbare : member.bare ∈ declaration.members :=
    hmembers ▸ List.mem_map_of_mem hmember
  refine hmakes.obeys (fun given signature hcall => ?_)
    (fun signature hconstruct => ?_) fun hholder optional signature heq => ?_
  · exact hcalls given signature (.member hbare hcall)
  · exact hconstructs signature (.construct (hconstruct ▸ hbare))
  · exact hconstructs signature (hclass hholder optional signature (heq ▸ hmember))

/-- The edits of a declaration obey a rule, if the overloads of its signatures do. -/
theorem obeys_script (own : List Identifier) (declaration : Declaration)
    (hcalls : ∀ given signature, declaration.Calls given signature → signature.Keeps rule given)
    (hconstructs : ∀ signature, declaration.Constructs signature →
      rule .inClass signature.constructors) :
    ∀ edit ∈ (declaration.script own).value, edit.Obeys rule := by
  have hscripts := declaration.scripts_script own
  generalize declaration.script own = script at hscripts ⊢
  cases hscripts with
  -- Fields and comments hold no overloads.
  | field | comment => exact List.forall_mem_singleton.mpr fun fresh _ overloads hin => by cases hin
  | function name signature =>
    have hkeeps := hcalls _ _ (.function name signature)
    exact List.forall_mem_singleton.mpr (Entry.obeys_ofSignature hkeeps .inPackage)
  | object name members =>
    exact List.forall_mem_cons.mpr ⟨trivial, obeys_member rfl hcalls hconstructs
      fun heq => by cases heq⟩
  | «class» hclass =>
    refine List.forall_mem_cons.mpr ⟨trivial, obeys_member hclass.members_eq hcalls hconstructs ?_⟩
    -- Only a class that is declared as one has members that are constructors.
    intro hholder optional signature hin
    cases hclass with
    | «interface» | «alias» => cases hholder
    | «class» => exact .constructor hin
  | «namespace» => exact List.forall_mem_nil _

end Declaration

/-- What declarations make may be entered. -/
theorem Edit.obeys_of_stemsFrom {declarations : List Declaration} {edit : Edit}
    (h : edit.StemsFrom declarations) : edit.Obeys (Overloads.Of declarations) := by
  obtain ⟨declaration, hdeclaration, own, hedit⟩ := h
  refine declaration.obeys_script own (fun given signature hcalls site made hmade => ?_)
    (fun signature hconstructs => ?_) edit hedit
  · exact .methods hdeclaration hcalls hmade
  · exact .constructors hdeclaration hconstructs

/-- What is right in a trait is right in a class: only classes have constructors. -/
theorem Overloads.Of.of_trait {declarations : List Declaration} {overloads : Overloads}
    (h : Of declarations .inTrait overloads) : Of declarations .inClass overloads := by
  cases h with
  | methods hdeclaration hcalls hmade => exact .methods hdeclaration hcalls hmade

/-- A facade is composed of what the declarations of its document make. -/
theorem Document.composed_toPackage (document : Document) (path : DottedName) :
    (document.toPackage path).value.body.Composed (Overloads.Of document.declarations) .inPackage :=
  ((document.reaches_toPackage path).mono fun _ hedit => Edit.obeys_of_stemsFrom hedit).composed
    (fun _ h => h.of_trait) Body.composed_empty

end Facade
