import Facade.Translation.Session

/-!
# A translation that keeps one log

A noted computation has its losses beside its value, and a session puts them behind those that it
has already. In this file the translation is written a second time, as one that has no notes of its
own: the session goes through every step, and a loss is written at its end where it is come across.
Such a translation could look at what is there already, and names and types could then depend on the
documents before.

`Records` says that it does not: behind every session, a step gives the value that the noted
computation gives, and the session is followed by the notes of that computation. There is one rule
for each way to build a step, and one lemma for each step, up to `Recording.run_document`.

## What the reference borrows

What does not lose anything is the same on both sides: bodies and the names made up in them,
headers, overloads, and the question whether a signature constructs its companion. Every function
that may lose something is written anew.
-/

set_option autoImplicit false

namespace Facade

/-- A step of a translation that hands a session through. -/
abbrev Recorder (α : Type) : Type := StateM Session α

namespace Recording

/-! ### The steps -/

/-- Writes a loss at the end of the session. -/
def warn (warning : Warning) : Recorder Unit :=
  modify fun session => ⟨session.warnings ++ [warning]⟩

/-- Widens a type to any, and writes that down. -/
def widened (type : TypeExpr) : Recorder ScalaType := do
  warn (.widened type)
  return .any

mutual

/-- Translates a type. -/
def toScala (anyIsDynamic : Bool) : TypeExpr → Recorder ScalaType
  | .primitive type => return type.toScala anyIsDynamic
  | .named path arguments => return namedToScala path (← toScalaAll arguments)
  | .function ⟨typeParameters, parameters, result⟩ => do
    let types ← parametersToScala parameters
    if typeParameters.isEmpty && !types.any ScalaType.isRepeated then
      return .function (types ++ [← toScalaOrAny result])
    else
      warn (.untypedFunction (.function ⟨typeParameters, parameters, result⟩))
      return .anyFunction
  | .repeated element => return .repeated (← toScala false element)
  | .parenthesized inner => toScala anyIsDynamic inner
  | .object members => widened (.object members)
  | .constructor signature => widened (.constructor signature)
  | .union types => widened (.union types)
  | .intersection types => widened (.intersection types)
  | .tuple types => widened (.tuple types)
  | .literal text => widened (.literal text)
  | .query path => widened (.query path)

/-- Translates types in order. -/
def toScalaAll : List TypeExpr → Recorder (List ScalaType)
  | [] => return []
  | type :: rest => return (← toScala false type) :: (← toScalaAll rest)

/-- Translates a type, which is any if it is left out. -/
def toScalaOrAny : Option TypeExpr → Recorder ScalaType
  | none => return .any
  | some type => toScala false type

/-- Translates the types of the parameters of a function type. -/
def parametersToScala : List Parameter → Recorder (List ScalaType)
  | [] => return []
  | ⟨_, _, type⟩ :: rest => return (← toScalaOrAny type) :: (← parametersToScala rest)

end

/-- Translates the type of a result, which is dynamic if it is left out. -/
def toScalaOrDynamic : Option TypeExpr → Recorder ScalaType
  | none => return .dynamic
  | some type => toScala true type

/-- Translates the parameters of a method. -/
def toMethods : List Parameter → Recorder (List MethodParameter)
  | [] => return []
  | parameter :: rest => do
    let type ← toScalaOrAny parameter.type
    return ⟨⟨parameter.name⟩, type, parameter.optional⟩ :: (← toMethods rest)

/-- Adds a method for each number of parameters that a signature may be called with. -/
def addMethods (name : Identifier) (signature : Signature) (body : Body) : Recorder Body := do
  let typeParameters := signature.typeParameters.map fun parameter => Identifier.mk parameter.name
  let parameters ← toMethods signature.parameters
  let result ← toScalaOrDynamic signature.result
  return (MethodParameter.alternatives parameters).foldl
    (fun body parameters => body.push (.method ⟨name, typeParameters, parameters, result⟩)) body

/-- Keeps a text as a comment, and writes that down. -/
def keep (text : String) (body : Body) : Recorder Body := do
  warn (.keptAsComment text)
  return body.push (.comment text)

/-- Changes the body of the definition at an index. -/
def inBody (index : Nat) (f : Body → Recorder Body) (body : Body) : Recorder Body :=
  match (body.get? index).bind Definition.body? with
  | none => return body
  | some inner => do
    let inner ← f inner
    return body.modify index (Definition.mapBody fun _ => inner)

/-- Changes the class at an index. -/
def inClass (index : Nat) (f : ClassDefinition → Recorder ClassDefinition) (body : Body) :
    Recorder Body :=
  match body.class? index with
  | none => return body
  | some definition => do
    let definition ← f definition
    return body.modify index (Definition.mapClass fun _ => definition)

/-- Adds constructors to a class. -/
def addConstructors (signature : Signature) (definition : ClassDefinition) :
    Recorder ClassDefinition := do
  unless signature.typeParameters.isEmpty do
    warn (.genericConstructor definition.name)
  let parameters ← toMethods signature.parameters
  let body := (MethodParameter.alternatives parameters).foldl
    (fun body parameters => body.push (.method ⟨.constructor, [], parameters, .unit⟩))
    definition.body
  return { definition with isTrait := false, body }

/-- Adds constructors to the class that an object is the companion of, if there is one or one is
declared later. -/
def addCompanionConstructors? (name : Identifier) (signature : Signature)
    (later : List Declaration) (body : Body) : Option (Recorder Body) :=
  let header := body.headerOf name later
  if signature.result.any (TypeExpr.isSelfType name header) then
    let (index, body) := body.openClass name
    some (inClass index (fun definition =>
      let typeParameters :=
        if definition.typeParameters.isEmpty then header else definition.typeParameters
      addConstructors signature ({ definition with typeParameters }.addHeader [] [])) body)
  else none

/-- Adds a member to the class or the object at an index. -/
def addMember (holder : Holder) (owner : Nat) (later : List Declaration) :
    Member → Body → Recorder Body
  | .call signature, body => inBody owner (addMethods .apply signature) body
  | .construct signature, body =>
    let comment := inBody owner (keep (Member.construct signature).display) body
    match holder with
    | .ofObject =>
      match body.object? owner with
      | some definition =>
        (addCompanionConstructors? definition.name signature later body).getD comment
      | none => comment
    | .ofClass => inClass owner (addConstructors signature) body
    | .ofInterface => comment
  | .index parameter type, body => inBody owner (keep (Member.index parameter type).display) body
  | .property name optional type, body =>
    if name == "prototype" then do
      warn (.skippedProperty (.property name optional type))
      return body
    else do
      let type ← toScalaOrAny type
      inBody owner (fun inner =>
        let (name, inner) := inner.nameMember name
        return inner.push (.field ⟨name, type⟩)) body
  | .method name _ signature, body =>
    if holder = .ofClass && name == "constructor" then
      inClass owner (addConstructors signature) body
    else
      inBody owner (fun inner =>
        let (name, inner) := inner.nameMember name
        addMethods name signature inner) body
  | .static member, body =>
    if holder = .ofClass then
      match (body.get? owner).bind Definition.name? with
      | none => return body
      | some name =>
        let (companion, body) := body.openObject name
        addMember .ofObject companion later member body
    else addMember holder owner later member body

/-- Adds members in order. -/
def addMembers (holder : Holder) (owner : Nat) (later : List Declaration) (members : List Member)
    (body : Body) : Recorder Body :=
  members.foldlM (fun body member => addMember holder owner later member body) body

/-- Changes the body of the package at the end of a path, and opens the packages on the way. -/
def inPackages (isNamespace : Bool) (f : Body → Recorder Body) :
    List Identifier → Body → Recorder Body
  | [], body => f body
  | name :: rest, body =>
    let (index, body) := body.openPackage name
    match body.get? index with
    | some (.package definition) => do
      let inner ← inPackages isNamespace f rest definition.body
      return body.modify index (Definition.mapPackage fun definition =>
        { definition with isNamespace := definition.isNamespace || isNamespace, body := inner })
    | _ => return body

/-- Adds the declaration of a class: its header and then its members. -/
def addClass (holder : Holder) (name : String) (typeParameters : List TypeParameter)
    (parents : List TypeExpr) (members : List Member) (later : List Declaration) (body : Body) :
    Recorder Body := do
  let (index, body) := body.openClass ⟨name⟩
  let parents ← toScalaAll parents
  let body := body.modify index (Definition.mapClass fun definition =>
    definition.addHeader (TypeParameter.identifiers typeParameters) parents)
  addMembers holder index later members body

mutual

/-- Adds a declaration to a body, with the declarations behind it. -/
def addDeclaration (later : List Declaration) : Declaration → Body → Recorder Body
  | .variable name type, body =>
    match type with
    | some (.object members) =>
      let (index, body) := body.openObject ⟨name⟩
      addMembers .ofObject index later members body
    | type => return body.push (.field ⟨⟨name⟩, ← toScalaOrAny type⟩)
  | .function name signature, body => addMethods ⟨name⟩ signature body
  | .interface name typeParameters parents members, body =>
    addClass .ofInterface name typeParameters parents members later body
  | .alias name typeParameters type, body =>
    match type with
    | .object members => addClass .ofInterface name typeParameters [] members later body
    | type => keep (Declaration.alias name typeParameters type).display body
  | .class name typeParameters parent interfaces members, body =>
    addClass .ofClass name typeParameters (parent.toList ++ interfaces) members later body
  | .namespace path declarations, body =>
    inPackages true (addDeclarations declarations) (path.map Identifier.mk) body
  | .unsupported text, body => keep text body

/-- Adds declarations in order. -/
def addDeclarations : List Declaration → Body → Recorder Body
  | [], body => return body
  | declaration :: rest, body => do
    let body ← addDeclaration rest declaration body
    addDeclarations rest body

end

/-- Translates a document under an output path. -/
def document (document : Document) (path : DottedName) : Recorder Package := do
  let body ← inPackages false (addDeclarations document.declarations) path.segments .empty
  return { Package.root with body }

/-- Translates documents in order. Each facade comes with the session behind it. -/
def translateAll : List (Document × DottedName) → Session → List (Package × Session)
  | [], _ => []
  | (first, path) :: rest, session =>
    let (facade, session) := (document first path).run session
    (facade, session) :: translateAll rest session

end Recording

/-! ### Steps record what is noted -/

/-- Behind every session, the step gives the value of the computation, and the session is followed
by the notes of the computation. -/
def Records {α : Type} (step : Recorder α) (noted : Noted α) : Prop :=
  ∀ session : Session, step.run session = session.carryOut noted

namespace Records

variable {α β : Type}

/-- A value by itself records nothing. -/
theorem pure (a : α) : Records (pure a) (pure a) := by
  intro session
  show (a, session) = (a, (⟨session.warnings ++ []⟩ : Session))
  rw [List.append_nil]

/-- To write a loss down records that it is noted. -/
theorem warn (warning : Warning) : Records (Recording.warn warning) (Noted.warn warning) :=
  fun _ => rfl

/-- A step goes on in the session that the one before it leaves. -/
theorem bind {step : Recorder α} {noted : Noted α} {next : α → Recorder β} {next' : α → Noted β}
    (h : Records step noted) (hnext : ∀ a, Records (next a) (next' a)) :
    Records (step >>= next) (noted >>= next') := by
  intro session
  rw [Session.carryOut_bind, StateT.run_bind, h session]
  exact hnext _ _

/-- If both branches of a choice record what is noted there, so does the choice. -/
theorem ite {condition : Prop} [Decidable condition] {step step' : Recorder α}
    {noted noted' : Noted α} (h : Records step noted) (h' : Records step' noted') :
    Records (if condition then step else step') (if condition then noted else noted') := by
  split
  · exact h
  · exact h'

end Records

/-! ### Types -/

/-- To widen a type records that it is widened. -/
theorem records_widened (type : TypeExpr) : Records (Recording.widened type) (widened type) :=
  (Records.warn _).bind fun _ => .pure _

mutual

/-- The translation of a type records what is noted of it. -/
theorem records_toScala (anyIsDynamic : Bool) (type : TypeExpr) :
    Records (Recording.toScala anyIsDynamic type) (type.toScala anyIsDynamic) := by
  match type with
  | .primitive type =>
    rw [Recording.toScala, TypeExpr.toScala]
    exact .pure _
  | .named path arguments =>
    rw [Recording.toScala, TypeExpr.toScala]
    exact (records_toScalaAll arguments).bind fun _ => .pure _
  | .function ⟨typeParameters, parameters, result⟩ =>
    rw [Recording.toScala, TypeExpr.toScala]
    refine (records_parametersToScala parameters).bind fun _ => .ite ?_ ?_
    · exact (records_toScalaOrAny result).bind fun _ => .pure _
    · exact (Records.warn _).bind fun _ => .pure _
  | .repeated element =>
    rw [Recording.toScala, TypeExpr.toScala]
    exact (records_toScala false element).bind fun _ => .pure _
  | .parenthesized inner =>
    rw [Recording.toScala, TypeExpr.toScala]
    exact records_toScala anyIsDynamic inner
  | .object members | .constructor signature | .union types | .intersection types | .tuple types
  | .literal text | .query path =>
    rw [Recording.toScala, TypeExpr.toScala]
    exact records_widened _

/-- So does that of several types. -/
theorem records_toScalaAll (types : List TypeExpr) :
    Records (Recording.toScalaAll types) (toScalaAll types) := by
  match types with
  | [] =>
    rw [Recording.toScalaAll, toScalaAll]
    exact .pure _
  | type :: rest =>
    rw [Recording.toScalaAll, toScalaAll]
    exact (records_toScala false type).bind fun _ => (records_toScalaAll rest).bind fun _ => .pure _

/-- So does that of a type that may be left out. -/
theorem records_toScalaOrAny (type : Option TypeExpr) :
    Records (Recording.toScalaOrAny type) (toScalaOrAny type) := by
  match type with
  | none =>
    rw [Recording.toScalaOrAny, toScalaOrAny]
    exact .pure _
  | some type =>
    rw [Recording.toScalaOrAny, toScalaOrAny]
    exact records_toScala false type

/-- So does that of the parameters of a function type. -/
theorem records_parametersToScala (parameters : List Parameter) :
    Records (Recording.parametersToScala parameters) (parametersToScala parameters) := by
  match parameters with
  | [] =>
    rw [Recording.parametersToScala, parametersToScala]
    exact .pure _
  | ⟨_, _, type⟩ :: rest =>
    rw [Recording.parametersToScala, parametersToScala]
    exact (records_toScalaOrAny type).bind fun _ =>
      (records_parametersToScala rest).bind fun _ => .pure _

end

/-- So does that of the type of a result. -/
theorem records_toScalaOrDynamic (type : Option TypeExpr) :
    Records (Recording.toScalaOrDynamic type) (toScalaOrDynamic type) := by
  cases type with
  | none => exact .pure _
  | some type => exact records_toScala true type

/-! ### Members -/

/-- The translation of the parameters of a method records what is noted of it. -/
theorem records_toMethods (parameters : List Parameter) :
    Records (Recording.toMethods parameters) (Parameter.toMethods parameters) := by
  induction parameters with
  | nil => exact .pure _
  | cons parameter rest ih =>
    exact (records_toScalaOrAny parameter.type).bind fun _ => ih.bind fun _ => .pure _

/-- To add methods records what is noted of their signature. -/
theorem records_addMethods (name : Identifier) (signature : Signature) (body : Body) :
    Records (Recording.addMethods name signature body) (body.addMethods name signature) :=
  (records_toMethods signature.parameters).bind fun _ =>
    (records_toScalaOrDynamic signature.result).bind fun _ => .pure _

/-- To keep a text records that it is kept. -/
theorem records_keep (text : String) (body : Body) :
    Records (Recording.keep text body) (body.keep text) :=
  (Records.warn _).bind fun _ => .pure _

/-- A change inside a body records what is noted inside. -/
theorem records_inBody (index : Nat) {f : Body → Recorder Body} {f' : Body → Noted Body}
    (h : ∀ inner, Records (f inner) (f' inner)) (body : Body) :
    Records (Recording.inBody index f body) (body.inBody index f') := by
  rw [Recording.inBody, Body.inBody]
  cases (body.get? index).bind Definition.body? with
  | none => exact .pure _
  | some inner => exact (h inner).bind fun _ => .pure _

/-- So does a change inside a class. -/
theorem records_inClass (index : Nat) {f : ClassDefinition → Recorder ClassDefinition}
    {f' : ClassDefinition → Noted ClassDefinition}
    (h : ∀ definition, Records (f definition) (f' definition)) (body : Body) :
    Records (Recording.inClass index f body) (body.inClass index f') := by
  rw [Recording.inClass, Body.inClass]
  cases body.class? index with
  | none => exact .pure _
  | some definition => exact (h definition).bind fun _ => .pure _

/-- To add constructors records what is noted of their signature. -/
theorem records_addConstructors (signature : Signature) (definition : ClassDefinition) :
    Records (Recording.addConstructors signature definition)
      (definition.addConstructors signature) := by
  have hparameters : Records
      (do
        let parameters ← Recording.toMethods signature.parameters
        let body := (MethodParameter.alternatives parameters).foldl
          (fun body parameters => body.push (.method ⟨.constructor, [], parameters, .unit⟩))
          definition.body
        return { definition with isTrait := false, body })
      (do
        let parameters ← Parameter.toMethods signature.parameters
        let body := (MethodParameter.alternatives parameters).foldl
          (fun body parameters => body.push (.method ⟨.constructor, [], parameters, .unit⟩))
          definition.body
        return { definition with isTrait := false, body }) :=
    (records_toMethods signature.parameters).bind fun _ => .pure _
  rw [Recording.addConstructors, ClassDefinition.addConstructors]
  cases signature.typeParameters.isEmpty with
  | true => exact (Records.pure ()).bind fun _ => hparameters
  | false => exact (Records.warn _).bind fun _ => hparameters

/-- Both sides take a signature for a constructor of the companion, or neither does. -/
theorem records_addCompanionConstructors (name : Identifier) (signature : Signature)
    (later : List Declaration) (body : Body) {comment : Recorder Body} {comment' : Noted Body}
    (h : Records comment comment') :
    Records ((Recording.addCompanionConstructors? name signature later body).getD comment)
      ((body.addCompanionConstructors? name signature later).getD comment') := by
  rw [Recording.addCompanionConstructors?, Body.addCompanionConstructors?]
  split
  · exact records_inClass _ (fun _ => records_addConstructors signature _) _
  · exact h

/-- To add a member records what is noted of it. -/
theorem records_addMember (holder : Holder) (owner : Nat) (later : List Declaration)
    (member : Member) (body : Body) :
    Records (Recording.addMember holder owner later member body)
      (member.addTo holder owner later body) := by
  cases member with
  | call signature =>
    rw [Recording.addMember, Member.addTo]
    exact records_inBody owner (records_addMethods .apply signature) body
  | construct signature =>
    -- Where it constructs nothing, it is kept as a comment.
    have hcomment := records_inBody owner
      (records_keep (Member.construct signature).display) body
    unfold Recording.addMember Member.addTo
    cases holder with
    | ofObject =>
      dsimp only
      cases body.object? owner with
      | none => exact hcomment
      | some definition =>
        exact records_addCompanionConstructors definition.name signature later body hcomment
    | ofClass => exact records_inClass owner (records_addConstructors signature) body
    | ofInterface => exact hcomment
  | index parameter type =>
    rw [Recording.addMember, Member.addTo]
    exact records_inBody owner (records_keep _) body
  | property name optional type =>
    rw [Recording.addMember, Member.addTo]
    refine .ite ((Records.warn _).bind fun _ => .pure _) ?_
    exact (records_toScalaOrAny type).bind fun _ => records_inBody owner (fun _ => .pure _) body
  | method name optional signature =>
    rw [Recording.addMember, Member.addTo]
    exact .ite (records_inClass owner (records_addConstructors signature) body)
      (records_inBody owner (fun _ => records_addMethods _ signature _) body)
  | static member =>
    rw [Recording.addMember, Member.addTo]
    refine .ite ?_ (records_addMember holder owner later member body)
    cases (body.get? owner).bind Definition.name? with
    | none => exact .pure _
    | some name => exact records_addMember .ofObject _ later member _

/-- To add several members records what is noted of them, in order. -/
theorem records_addMembers (holder : Holder) (owner : Nat) (later : List Declaration)
    (members : List Member) (body : Body) :
    Records (Recording.addMembers holder owner later members body)
      (Member.addAllTo holder owner later members body) := by
  rw [Recording.addMembers, Member.addAllTo]
  induction members generalizing body with
  | nil => exact .pure _
  | cons member rest ih =>
    rw [List.foldlM_cons, List.foldlM_cons]
    exact (records_addMember holder owner later member body).bind ih

/-! ### Declarations -/

/-- A change inside packages records what is noted inside. -/
theorem records_inPackages (isNamespace : Bool) {f : Body → Recorder Body}
    {f' : Body → Noted Body} (h : ∀ inner, Records (f inner) (f' inner)) (names : List Identifier)
    (body : Body) :
    Records (Recording.inPackages isNamespace f names body)
      (body.inPackages isNamespace f' names) := by
  induction names generalizing body with
  | nil => exact h body
  | cons name rest ih =>
    rw [Recording.inPackages, Body.inPackages]
    dsimp only
    cases (body.openPackage name).2.get? (body.openPackage name).1 with
    | none => exact .pure _
    | some definition =>
      cases definition with
      | package definition => exact (ih definition.body).bind fun _ => .pure _
      | _ => exact .pure _

/-- To add a class records what is noted of its header and members. -/
theorem records_addClass (holder : Holder) (name : String) (typeParameters : List TypeParameter)
    (parents : List TypeExpr) (members : List Member) (later : List Declaration) (body : Body) :
    Records (Recording.addClass holder name typeParameters parents members later body)
      (body.addClass holder name typeParameters parents members later) :=
  (records_toScalaAll parents).bind fun _ => records_addMembers holder _ later members _

mutual

/-- To add a declaration records what is noted of it. -/
theorem records_addDeclaration (later : List Declaration) (declaration : Declaration)
    (body : Body) :
    Records (Recording.addDeclaration later declaration body) (declaration.addTo later body) := by
  -- Both go through a declaration in the same way, so one rule answers for each of its forms.
  match declaration with
  | .variable name type =>
    unfold Recording.addDeclaration Declaration.addTo
    cases type with
    | none => exact (records_toScalaOrAny none).bind fun _ => .pure _
    | some type =>
      cases type with
      | object members => exact records_addMembers .ofObject _ later members _
      | _ => exact (records_toScalaOrAny (some _)).bind fun _ => .pure _
  | .function name signature =>
    rw [Recording.addDeclaration, Declaration.addTo]
    exact records_addMethods ⟨name⟩ signature body
  | .interface name typeParameters parents members =>
    rw [Recording.addDeclaration, Declaration.addTo]
    exact records_addClass .ofInterface name typeParameters parents members later body
  | .alias name typeParameters type =>
    unfold Recording.addDeclaration Declaration.addTo
    cases type with
    | object members =>
      exact records_addClass .ofInterface name typeParameters [] members later body
    | _ => exact records_keep _ body
  | .class name typeParameters parent interfaces members =>
    rw [Recording.addDeclaration, Declaration.addTo]
    exact records_addClass .ofClass name typeParameters _ members later body
  | .namespace path declarations =>
    rw [Recording.addDeclaration, Declaration.addTo]
    exact records_inPackages true (records_addDeclarations declarations) _ body
  | .unsupported text =>
    rw [Recording.addDeclaration, Declaration.addTo]
    exact records_keep text body

/-- To add several declarations records what is noted of them, in order. -/
theorem records_addDeclarations (declarations : List Declaration) (body : Body) :
    Records (Recording.addDeclarations declarations body) (addDeclarations declarations body) := by
  match declarations with
  | [] =>
    rw [Recording.addDeclarations, addDeclarations]
    exact .pure _
  | declaration :: rest =>
    rw [Recording.addDeclarations, addDeclarations]
    exact (records_addDeclaration rest declaration body).bind (records_addDeclarations rest)

end

/-- The translation that keeps one log is the one that is carried out in the session. -/
theorem Recording.run_document (document : Document) (path : DottedName) (session : Session) :
    (Recording.document document path).run session = session.translate document path :=
  ((records_inPackages false (records_addDeclarations document.declarations) path.segments
    .empty).bind fun _ => .pure _) session

end Facade
