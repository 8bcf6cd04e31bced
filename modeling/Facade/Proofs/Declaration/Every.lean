import Facade.Declaration.Basic

/-!
# Conditions on every node of a declaration

Much of what can be said of declarations is said of one node at a time: of a type and the types
right below it, of a parameter and its name. A `Check` is such a condition, one for each sort of
node, and `Every` asks it of all nodes below a declaration and of the declaration itself. The
functions follow the types, with one twin for each list; the lemmas at the end say that a list
keeps to a check if its elements do.
-/

set_option autoImplicit false

namespace Facade

/-- What is asked of a node, for each sort of nodes. -/
structure Check where
  type : TypeExpr → Prop
  signature : Signature → Prop
  typeParameter : TypeParameter → Prop
  parameter : Parameter → Prop
  member : Member → Prop
  declaration : Declaration → Prop

mutual

/-- Every node of a type keeps to a check. -/
def TypeExpr.Every (check : Check) : TypeExpr → Prop
  | .primitive type => check.type (.primitive type)
  | .named path arguments => check.type (.named path arguments) ∧ everyType check arguments
  | .object members => check.type (.object members) ∧ everyMember check members
  | .function signature => check.type (.function signature) ∧ signature.Every check
  | .constructor signature => check.type (.constructor signature) ∧ signature.Every check
  | .repeated element => check.type (.repeated element) ∧ element.Every check
  | .union types => check.type (.union types) ∧ everyType check types
  | .intersection types => check.type (.intersection types) ∧ everyType check types
  | .tuple types => check.type (.tuple types) ∧ everyType check types
  | .literal text => check.type (.literal text)
  | .query path => check.type (.query path)
  | .parenthesized inner => check.type (.parenthesized inner) ∧ inner.Every check

/-- So does every node of types. -/
def everyType (check : Check) : List TypeExpr → Prop
  | [] => True
  | type :: rest => type.Every check ∧ everyType check rest

/-- So does every node of a type that may be left out. -/
def everyOption (check : Check) : Option TypeExpr → Prop
  | none => True
  | some type => type.Every check

/-- Every node of a signature keeps to a check. -/
def Signature.Every (check : Check) : Signature → Prop
  | ⟨typeParameters, parameters, result⟩ =>
    check.signature ⟨typeParameters, parameters, result⟩
      ∧ everyTypeParameter check typeParameters ∧ everyParameter check parameters
      ∧ everyOption check result

/-- Every node of a type parameter keeps to a check. -/
def TypeParameter.Every (check : Check) : TypeParameter → Prop
  | ⟨name, bound, default⟩ =>
    check.typeParameter ⟨name, bound, default⟩ ∧ everyOption check bound
      ∧ everyOption check default

/-- So does every node of type parameters. -/
def everyTypeParameter (check : Check) : List TypeParameter → Prop
  | [] => True
  | parameter :: rest => parameter.Every check ∧ everyTypeParameter check rest

/-- Every node of a parameter keeps to a check. -/
def Parameter.Every (check : Check) : Parameter → Prop
  | ⟨name, optional, type⟩ => check.parameter ⟨name, optional, type⟩ ∧ everyOption check type

/-- So does every node of parameters. -/
def everyParameter (check : Check) : List Parameter → Prop
  | [] => True
  | parameter :: rest => parameter.Every check ∧ everyParameter check rest

/-- Every node of a member keeps to a check. -/
def Member.Every (check : Check) : Member → Prop
  | .call signature => check.member (.call signature) ∧ signature.Every check
  | .construct signature => check.member (.construct signature) ∧ signature.Every check
  | .index parameter type =>
    check.member (.index parameter type) ∧ parameter.Every check ∧ type.Every check
  | .property name optional type =>
    check.member (.property name optional type) ∧ everyOption check type
  | .method name optional signature =>
    check.member (.method name optional signature) ∧ signature.Every check
  | .static member => check.member (.static member) ∧ member.Every check

/-- So does every node of members. -/
def everyMember (check : Check) : List Member → Prop
  | [] => True
  | member :: rest => member.Every check ∧ everyMember check rest

end

mutual

/-- Every node of a declaration keeps to a check. -/
def Declaration.Every (check : Check) : Declaration → Prop
  | .variable name type => check.declaration (.variable name type) ∧ everyOption check type
  | .function name signature =>
    check.declaration (.function name signature) ∧ signature.Every check
  | .interface name typeParameters parents members =>
    check.declaration (.interface name typeParameters parents members)
      ∧ everyTypeParameter check typeParameters ∧ everyType check parents
      ∧ everyMember check members
  | .alias name typeParameters type =>
    check.declaration (.alias name typeParameters type) ∧ everyTypeParameter check typeParameters
      ∧ type.Every check
  | .class name typeParameters parent interfaces members =>
    check.declaration (.class name typeParameters parent interfaces members)
      ∧ everyTypeParameter check typeParameters ∧ everyOption check parent
      ∧ everyType check interfaces ∧ everyMember check members
  | .namespace path declarations =>
    check.declaration (.namespace path declarations) ∧ everyDeclaration check declarations
  | .unsupported text => check.declaration (.unsupported text)

/-- So does every node of declarations. -/
def everyDeclaration (check : Check) : List Declaration → Prop
  | [] => True
  | declaration :: rest => declaration.Every check ∧ everyDeclaration check rest

end

/-! ### Lists -/

variable {check : Check}

/-- Types keep to a check if each of them does. -/
theorem everyType_iff {types : List TypeExpr} :
    everyType check types ↔ ∀ type ∈ types, type.Every check := by
  induction types with
  | nil => exact iff_of_true trivial fun _ h => absurd h List.not_mem_nil
  | cons type rest ih => rw [everyType, List.forall_mem_cons, ih]

/-- So do type parameters. -/
theorem everyTypeParameter_iff {parameters : List TypeParameter} :
    everyTypeParameter check parameters ↔ ∀ parameter ∈ parameters, parameter.Every check := by
  induction parameters with
  | nil => exact iff_of_true trivial fun _ h => absurd h List.not_mem_nil
  | cons parameter rest ih => rw [everyTypeParameter, List.forall_mem_cons, ih]

/-- So do parameters. -/
theorem everyParameter_iff {parameters : List Parameter} :
    everyParameter check parameters ↔ ∀ parameter ∈ parameters, parameter.Every check := by
  induction parameters with
  | nil => exact iff_of_true trivial fun _ h => absurd h List.not_mem_nil
  | cons parameter rest ih => rw [everyParameter, List.forall_mem_cons, ih]

/-- So do members. -/
theorem everyMember_iff {members : List Member} :
    everyMember check members ↔ ∀ member ∈ members, member.Every check := by
  induction members with
  | nil => exact iff_of_true trivial fun _ h => absurd h List.not_mem_nil
  | cons member rest ih => rw [everyMember, List.forall_mem_cons, ih]

/-- So do declarations. -/
theorem everyDeclaration_iff {declarations : List Declaration} :
    everyDeclaration check declarations
      ↔ ∀ declaration ∈ declarations, declaration.Every check := by
  induction declarations with
  | nil => exact iff_of_true trivial fun _ h => absurd h List.not_mem_nil
  | cons declaration rest ih => rw [everyDeclaration, List.forall_mem_cons, ih]

/-! ### Weaker checks -/

/-- A check that asks of each node no more than another does. -/
structure Check.Weaker (check weaker : Check) : Prop where
  type : ∀ node, check.type node → weaker.type node
  signature : ∀ node, check.signature node → weaker.signature node
  typeParameter : ∀ node, check.typeParameter node → weaker.typeParameter node
  parameter : ∀ node, check.parameter node → weaker.parameter node
  member : ∀ node, check.member node → weaker.member node
  declaration : ∀ node, check.declaration node → weaker.declaration node

variable {weaker : Check}

mutual

/-- What keeps to a check keeps to every weaker one. -/
theorem TypeExpr.Every.weaken (h : check.Weaker weaker) {type : TypeExpr}
    (hevery : type.Every check) : type.Every weaker := by
  match type, hevery with
  | .primitive _, hevery => exact h.type _ hevery
  | .named _ _, hevery => exact ⟨h.type _ hevery.1, everyType_weaken h hevery.2⟩
  | .object _, hevery => exact ⟨h.type _ hevery.1, everyMember_weaken h hevery.2⟩
  | .function _, hevery => exact ⟨h.type _ hevery.1, hevery.2.weaken h⟩
  | .constructor _, hevery => exact ⟨h.type _ hevery.1, hevery.2.weaken h⟩
  | .repeated _, hevery => exact ⟨h.type _ hevery.1, hevery.2.weaken h⟩
  | .union _, hevery => exact ⟨h.type _ hevery.1, everyType_weaken h hevery.2⟩
  | .intersection _, hevery => exact ⟨h.type _ hevery.1, everyType_weaken h hevery.2⟩
  | .tuple _, hevery => exact ⟨h.type _ hevery.1, everyType_weaken h hevery.2⟩
  | .literal _, hevery => exact h.type _ hevery
  | .query _, hevery => exact h.type _ hevery
  | .parenthesized _, hevery => exact ⟨h.type _ hevery.1, hevery.2.weaken h⟩

/-- Types that keep to a check keep to a weaker one. -/
theorem everyType_weaken (h : check.Weaker weaker) {types : List TypeExpr}
    (hevery : everyType check types) : everyType weaker types := by
  match types, hevery with
  | [], _ => exact trivial
  | _ :: _, hevery => exact ⟨hevery.1.weaken h, everyType_weaken h hevery.2⟩

/-- So does a type that may be left out. -/
theorem everyOption_weaken (h : check.Weaker weaker) {type : Option TypeExpr}
    (hevery : everyOption check type) : everyOption weaker type := by
  match type, hevery with
  | none, _ => exact trivial
  | some _, hevery => exact hevery.weaken h

/-- So does a signature. -/
theorem Signature.Every.weaken (h : check.Weaker weaker) {signature : Signature}
    (hevery : signature.Every check) : signature.Every weaker := by
  match signature, hevery with
  | ⟨_, _, _⟩, hevery =>
    exact ⟨h.signature _ hevery.1, everyTypeParameter_weaken h hevery.2.1,
      everyParameter_weaken h hevery.2.2.1, everyOption_weaken h hevery.2.2.2⟩

/-- So does a type parameter. -/
theorem TypeParameter.Every.weaken (h : check.Weaker weaker) {parameter : TypeParameter}
    (hevery : parameter.Every check) : parameter.Every weaker := by
  match parameter, hevery with
  | ⟨_, _, _⟩, hevery =>
    exact ⟨h.typeParameter _ hevery.1, everyOption_weaken h hevery.2.1,
      everyOption_weaken h hevery.2.2⟩

/-- So do type parameters. -/
theorem everyTypeParameter_weaken (h : check.Weaker weaker) {parameters : List TypeParameter}
    (hevery : everyTypeParameter check parameters) : everyTypeParameter weaker parameters := by
  match parameters, hevery with
  | [], _ => exact trivial
  | _ :: _, hevery => exact ⟨hevery.1.weaken h, everyTypeParameter_weaken h hevery.2⟩

/-- So does a parameter. -/
theorem Parameter.Every.weaken (h : check.Weaker weaker) {parameter : Parameter}
    (hevery : parameter.Every check) : parameter.Every weaker := by
  match parameter, hevery with
  | ⟨_, _, _⟩, hevery => exact ⟨h.parameter _ hevery.1, everyOption_weaken h hevery.2⟩

/-- So do parameters. -/
theorem everyParameter_weaken (h : check.Weaker weaker) {parameters : List Parameter}
    (hevery : everyParameter check parameters) : everyParameter weaker parameters := by
  match parameters, hevery with
  | [], _ => exact trivial
  | _ :: _, hevery => exact ⟨hevery.1.weaken h, everyParameter_weaken h hevery.2⟩

/-- So does a member. -/
theorem Member.Every.weaken (h : check.Weaker weaker) {member : Member}
    (hevery : member.Every check) : member.Every weaker := by
  cases member with
  | call | construct | method => exact ⟨h.member _ hevery.1, Signature.Every.weaken h hevery.2⟩
  | index => exact ⟨h.member _ hevery.1, hevery.2.1.weaken h, hevery.2.2.weaken h⟩
  | property => exact ⟨h.member _ hevery.1, everyOption_weaken h hevery.2⟩
  | static => exact ⟨h.member _ hevery.1, hevery.2.weaken h⟩

/-- So do members. -/
theorem everyMember_weaken (h : check.Weaker weaker) {members : List Member}
    (hevery : everyMember check members) : everyMember weaker members := by
  match members, hevery with
  | [], _ => exact trivial
  | _ :: _, hevery => exact ⟨hevery.1.weaken h, everyMember_weaken h hevery.2⟩

end

mutual

/-- So does a declaration. -/
theorem Declaration.Every.weaken (h : check.Weaker weaker) {declaration : Declaration}
    (hevery : declaration.Every check) : declaration.Every weaker := by
  match declaration, hevery with
  | .variable _ _, hevery => exact ⟨h.declaration _ hevery.1, everyOption_weaken h hevery.2⟩
  | .function _ _, hevery => exact ⟨h.declaration _ hevery.1, hevery.2.weaken h⟩
  | .interface _ _ _ _, hevery =>
    exact ⟨h.declaration _ hevery.1, everyTypeParameter_weaken h hevery.2.1,
      everyType_weaken h hevery.2.2.1, everyMember_weaken h hevery.2.2.2⟩
  | .alias _ _ _, hevery =>
    exact ⟨h.declaration _ hevery.1, everyTypeParameter_weaken h hevery.2.1,
      hevery.2.2.weaken h⟩
  | .class _ _ _ _ _, hevery =>
    exact ⟨h.declaration _ hevery.1, everyTypeParameter_weaken h hevery.2.1,
      everyOption_weaken h hevery.2.2.1, everyType_weaken h hevery.2.2.2.1,
      everyMember_weaken h hevery.2.2.2.2⟩
  | .namespace _ _, hevery =>
    exact ⟨h.declaration _ hevery.1, everyDeclaration_weaken h hevery.2⟩
  | .unsupported _, hevery => exact h.declaration _ hevery

/-- So do declarations. -/
theorem everyDeclaration_weaken (h : check.Weaker weaker) {declarations : List Declaration}
    (hevery : everyDeclaration check declarations) : everyDeclaration weaker declarations := by
  match declarations, hevery with
  | [], _ => exact trivial
  | _ :: _, hevery => exact ⟨hevery.1.weaken h, everyDeclaration_weaken h hevery.2⟩

end

end Facade
