import Facade.Proofs.Declaration.Contents
import Facade.Proofs.Translation.Edit
import Facade.Translation.Document

/-!
# Every declaration is a script of edits

`Declaration.addTo` threads a body through the members of a declaration, and looks the body up
again for each of them. Its effect does not depend on that: what a declaration does is a list of
edits, its script, which is known from the declaration itself and from one thing more, the type
parameters of the class that its construct signatures are compared with.

`Member.script` and `Declaration.script` are these lists, each with the warnings that come with
it. `Member.addTo_eq` and `Declaration.addTo_eq` say that to add a member or a declaration is to
apply its script. The index of the holder and the type parameters are facts about the body that
the proof has to carry from member to member; `Owns` states them, and `Owns.applyAll` says that
the edits of a member's script keep them.

`Member.Makes` says once what the edits of a member can be. What holds of all edits of all members
is shown by cases on it, without the script (`Member.forall_mem_scripts`). `Declaration.Scripts`
does the same for declarations, and `Declaration.DeclaresClass` puts the three forms that declare a
class together.

Namespaces have no script. They are bodies of their own, so they are left to the statements about
whole lists of declarations.
-/

set_option autoImplicit false

namespace Facade

/-! ### Scripts -/

namespace Holder

/-- The edit that enters something into the body of a holder. -/
def edit (name : Identifier) (entry : Entry) : Holder → Edit
  | .ofObject => .inObject name entry
  | .ofInterface => .onClass name (.enter entry)
  | .ofClass => .onClass name (.enter entry)

/-- What a holder is looked up by. -/
def label (name : Identifier) : Holder → Label
  | .ofObject => ⟨.object, some name⟩
  | .ofInterface => ⟨.class, some name⟩
  | .ofClass => ⟨.class, some name⟩

/-- The script that keeps a text as a comment in the body of a holder. -/
def keep (holder : Holder) (name : Identifier) (text : String) : Noted (List Edit) := do
  Noted.warn (.keptAsComment text)
  return [holder.edit name (.comment text)]

end Holder

/-- The edits of a member whose holder has a name, where the class of that name has the given
type parameters. -/
def Member.script (holder : Holder) (name : Identifier) (own : List Identifier) :
    Member → Noted (List Edit)
  | .call signature => do
    return [holder.edit name (← Entry.ofSignature (some .apply) signature)]
  | .construct signature =>
    match holder with
    | .ofObject =>
      if signature.result.any (TypeExpr.isSelfType name own) then do
        return [.onClass name (.adopt own (← constructorAlternatives name signature))]
      else Holder.ofObject.keep name (Member.construct signature).display
    | .ofClass => do
      return [.onClass name (.constructors (← constructorAlternatives name signature))]
    | .ofInterface => Holder.ofInterface.keep name (Member.construct signature).display
  | .index parameter type => holder.keep name (Member.index parameter type).display
  | .property word optional type =>
    if word == "prototype" then do
      Noted.warn (.skippedProperty (.property word optional type))
      return []
    else do
      return [holder.edit name (.field (memberName? word) (← toScalaOrAny type))]
  | .method word _ signature =>
    if holder = .ofClass && word == "constructor" then do
      return [.onClass name (.constructors (← constructorAlternatives name signature))]
    else do
      return [holder.edit name (← Entry.ofSignature (memberName? word) signature)]
  | .static member =>
    if holder = .ofClass then do
      return .object name :: (← member.script .ofObject name own)
    else member.script holder name own

/-- The edits of members, in order. -/
def Member.scripts (holder : Holder) (name : Identifier) (own : List Identifier) :
    List Member → Noted (List Edit)
  | [] => return []
  | member :: rest => do
    return (← member.script holder name own) ++ (← scripts holder name own rest)

/-- The edits of an interface, a class, or an alias of an object type. -/
def classScript (holder : Holder) (name : String) (typeParameters : List TypeParameter)
    (parents : List TypeExpr) (members : List Member) (own : List Identifier) :
    Noted (List Edit) := do
  let parents ← toScalaAll parents
  return .onClass ⟨name⟩ (.header (TypeParameter.identifiers typeParameters) parents)
    :: (← Member.scripts holder ⟨name⟩ own members)

/-- The edits of a declaration other than a namespace. -/
def Declaration.script (own : List Identifier) : Declaration → Noted (List Edit)
  | .variable name (some (.object members)) => do
    return .object ⟨name⟩ :: (← Member.scripts .ofObject ⟨name⟩ own members)
  | .variable name type => do
    return [.here (.field (some ⟨name⟩) (← toScalaOrAny type))]
  | .function name signature => do
    return [.here (← Entry.ofSignature (some ⟨name⟩) signature)]
  | .interface name typeParameters parents members =>
    classScript .ofInterface name typeParameters parents members own
  | .alias name typeParameters (.object members) =>
    classScript .ofInterface name typeParameters [] members own
  | .alias name typeParameters type => do
    let text := (Declaration.alias name typeParameters type).display
    Noted.warn (.keptAsComment text)
    return [.here (.comment text)]
  | .class name typeParameters parent interfaces members =>
    classScript .ofClass name typeParameters (parent.toList ++ interfaces) members own
  | .unsupported text => do
    Noted.warn (.keptAsComment text)
    return [.here (.comment text)]
  | .namespace _ _ => return []

/-! ### The forms of declarations -/

namespace Declaration

/-- The declarations that open a class: interfaces, classes, and aliases of object types. -/
inductive DeclaresClass : Declaration → Holder → String → List TypeParameter → List TypeExpr →
    List Member → Prop where
  | interface (name : String) (typeParameters : List TypeParameter) (parents : List TypeExpr)
      (members : List Member) : DeclaresClass (.interface name typeParameters parents members)
        .ofInterface name typeParameters parents members
  | alias (name : String) (typeParameters : List TypeParameter) (members : List Member) :
      DeclaresClass (.alias name typeParameters (.object members))
        .ofInterface name typeParameters [] members
  | class (name : String) (typeParameters : List TypeParameter) (parent : Option TypeExpr)
      (interfaces : List TypeExpr) (members : List Member) :
      DeclaresClass (.class name typeParameters parent interfaces members)
        .ofClass name typeParameters (parent.toList ++ interfaces) members

/-- Whether the declaration is kept as a comment: an alias of another type, or a statement that is
not supported. -/
def isComment (declaration : Declaration) : Bool :=
  declaration.isPlainAlias || declaration.isUnsupported

/-- The forms that the script of a declaration has. What holds of all scripts is shown by cases on
this, where interfaces, classes and aliases of object types are one case. -/
inductive Scripts (own : List Identifier) : Declaration → Noted (List Edit) → Prop where
  | field {name : String} {type : Option TypeExpr} :
      (Declaration.variable name type).isPlainVariable = true →
      Scripts own (.variable name type)
        (do return [.here (.field (some ⟨name⟩) (← toScalaOrAny type))])
  | object (name : String) (members : List Member) :
      Scripts own (.variable name (some (.object members)))
        (do return .object ⟨name⟩ :: (← Member.scripts .ofObject ⟨name⟩ own members))
  | function (name : String) (signature : Signature) : Scripts own (.function name signature)
      (do return [.here (← Entry.ofSignature (some ⟨name⟩) signature)])
  | class {declaration : Declaration} {holder : Holder} {name : String}
      {typeParameters : List TypeParameter} {parents : List TypeExpr} {members : List Member} :
      declaration.DeclaresClass holder name typeParameters parents members →
      Scripts own declaration (classScript holder name typeParameters parents members own)
  | comment {declaration : Declaration} (text : String) : declaration.isComment = true →
      Scripts own declaration ⟨[.here (.comment text)], [.keptAsComment text]⟩
  | namespace (path : List String) (declarations : List Declaration) :
      Scripts own (.namespace path declarations) (pure [])

/-- The script of every declaration has one of these forms. -/
theorem scripts_script (own : List Identifier) (declaration : Declaration) :
    declaration.Scripts own (declaration.script own) := by
  cases declaration with
  | «variable» name type =>
    rcases type with - | type
    · exact .field rfl
    · cases type with
      | object members => exact .object name members
      | _ => exact .field rfl
  | function name signature => exact .function name signature
  | «interface» name typeParameters parents members =>
    exact .class (.interface name typeParameters parents members)
  | «alias» name typeParameters type =>
    cases type with
    | object members => exact .class (.alias name typeParameters members)
    | _ => exact .comment _ rfl
  | «class» name typeParameters parent interfaces members =>
    exact .class (.class name typeParameters parent interfaces members)
  | «namespace» path declarations => exact .namespace path declarations
  | unsupported text => exact .comment text rfl

section

variable {declaration : Declaration} {holder : Holder} {name : String}
  {typeParameters : List TypeParameter} {parents : List TypeExpr} {members : List Member}

/-- The members of a declaration of a class are those it is written with, without what marks them as
static. -/
theorem DeclaresClass.members_eq
    (h : declaration.DeclaresClass holder name typeParameters parents members) :
    declaration.members = members.map Member.bare := by
  cases h <;> rfl

/-- A declaration of a class is one of its name. -/
theorem DeclaresClass.className?_eq
    (h : declaration.DeclaresClass holder name typeParameters parents members) :
    declaration.className? = some name := by
  cases h <;> rfl

/-- A declaration of a class gives it its type parameters beforehand. -/
theorem DeclaresClass.headerOf?_eq
    (h : declaration.DeclaresClass holder name typeParameters parents members) :
    declaration.headerOf? ⟨name⟩ = some (TypeParameter.identifiers typeParameters) := by
  cases h <;> exact if_pos rfl

/-- A declaration of the class of a name is an interface, a class or an alias of an object type. -/
theorem exists_declaresClass (h : declaration.className? = some name) :
    ∃ holder typeParameters parents members,
      declaration.DeclaresClass holder name typeParameters parents members := by
  cases declaration with
  | «interface» =>
    cases h
    exact ⟨_, _, _, _, .interface ..⟩
  | «alias» declared parameters type =>
    cases type with
    | object members =>
      cases h
      exact ⟨_, _, _, _, .alias ..⟩
    | _ => cases h
  | «class» =>
    cases h
    exact ⟨_, _, _, _, .class ..⟩
  | _ => cases h

/-- Only the declarations of classes have headers. -/
theorem headerOf?_eq_none {name : Identifier} (h : declaration.className? ≠ some name.raw) :
    declaration.headerOf? name = none := by
  cases declaration with
  | «interface» | «class» => exact if_neg fun heq => h (congrArg some heq)
  | «alias» declared parameters type =>
    cases type with
    | object members => exact if_neg fun heq => h (congrArg some heq)
    | _ => rfl
  | _ => rfl

/-- What is kept as a comment declares no class. -/
theorem className?_of_isComment (h : declaration.isComment = true) :
    declaration.className? = none := by
  cases declaration with
  | «alias» declared parameters type => cases type <;> first | rfl | cases h
  | unsupported text => rfl
  | _ => cases h

end

end Declaration

/-- What follows a computation without a warning of its own adds none. -/
theorem Noted.bind_pure_eq {α β : Type} (first : Noted α) (f : α → β) :
    (do return f (← first)) = (⟨f first.value, first.warnings⟩ : Noted β) := by
  show (⟨f first.value, first.warnings ++ []⟩ : Noted β) = _
  rw [List.append_nil]

/-- A computation that ends in applying edits to a body. -/
def Noted.applyTo (body : Body) (script : Noted (List Edit)) : Noted Body :=
  ⟨Edit.applyAll script.value body, script.warnings⟩

/-! ### What is in the script of a member -/

/-- The edits that a member makes. A static member of a class is a member of the object next to the
class, so the place that an entry goes into is the holder or an object; constructors of the holder
itself only come from a member that is not static. -/
inductive Member.Makes (holder : Holder) (name : Identifier) (own : List Identifier)
    (member : Member) : Edit → Prop where
  | companion : Makes holder name own member (.object name)
  | comment {place : Holder} (text : String) : place = holder ∨ place = .ofObject →
      Makes holder name own member (place.edit name (.comment text))
  | call {place : Holder} {signature : Signature} : place = holder ∨ place = .ofObject →
      member.bare = .call signature →
      Makes holder name own member
        (place.edit name (Entry.ofSignature (some .apply) signature).value)
  | property {place : Holder} {word : String} {optional : Bool} {type : Option TypeExpr} :
      place = holder ∨ place = .ofObject → member.bare = .property word optional type →
      Makes holder name own member
        (place.edit name (.field (memberName? word) (toScalaOrAny type).value))
  | method {place : Holder} {word : String} {optional : Bool} {signature : Signature} :
      place = holder ∨ place = .ofObject → member.bare = .method word optional signature →
      Makes holder name own member
        (place.edit name (Entry.ofSignature (memberName? word) signature).value)
  | adopt {signature : Signature} : member.bare = .construct signature →
      signature.result.any (TypeExpr.isSelfType name own) = true →
      Makes holder name own member
        (.onClass name (.adopt own (constructorAlternatives name signature).value))
  | construct {signature : Signature} : holder = .ofClass → member = .construct signature →
      Makes holder name own member
        (.onClass name (.constructors (constructorAlternatives name signature).value))
  | constructor {optional : Bool} {signature : Signature} : holder = .ofClass →
      member = .method "constructor" optional signature →
      Makes holder name own member
        (.onClass name (.constructors (constructorAlternatives name signature).value))

namespace Member

variable {holder place : Holder} {name : Identifier} {own : List Identifier} {edit : Edit}

/-- What a member makes where there are no constructors, it makes as a static member as well. -/
theorem Makes.static {member : Member} (h : member.Makes place name own edit)
    (hplace : place = holder ∨ place = .ofObject) (hclass : place ≠ .ofClass) :
    (Member.static member).Makes holder name own edit := by
  have hthere : ∀ {other : Holder}, other = place ∨ other = .ofObject →
      other = holder ∨ other = .ofObject := by
    rintro other (rfl | rfl)
    · exact hplace
    · exact .inr rfl
  cases h with
  | companion => exact .companion
  | comment text hother => exact .comment text (hthere hother)
  | call hother hbare => exact .call (hthere hother) hbare
  | property hother hbare => exact .property (hthere hother) hbare
  | method hother hbare => exact .method (hthere hother) hbare
  | adopt hbare hself => exact .adopt hbare hself
  | construct heq _ | constructor heq _ => exact absurd heq hclass

/-- The script of a member holds nothing else. -/
theorem makes_of_mem_script (holder : Holder) (member : Member)
    (h : edit ∈ (member.script holder name own).value) : member.Makes holder name own edit := by
  match member with
  | .call signature =>
    cases List.mem_singleton.mp h
    exact .call (.inl rfl) rfl
  | .construct signature =>
    cases holder with
    | ofObject =>
      rw [script] at h
      split at h
      · rename_i hself
        cases List.mem_singleton.mp h
        exact .adopt rfl hself
      · cases List.mem_singleton.mp h
        exact .comment _ (.inl rfl)
    | ofInterface =>
      cases List.mem_singleton.mp h
      exact .comment _ (.inl rfl)
    | ofClass =>
      cases List.mem_singleton.mp h
      exact .construct rfl rfl
  | .index parameter type =>
    cases List.mem_singleton.mp h
    exact .comment _ (.inl rfl)
  | .property word optional type =>
    rw [script] at h
    split at h
    · cases h
    · cases List.mem_singleton.mp h
      exact .property (.inl rfl) rfl
  | .method word optional signature =>
    rw [script] at h
    split at h
    · rename_i hconstructor
      simp only [Bool.and_eq_true, decide_eq_true_eq, beq_iff_eq] at hconstructor
      obtain ⟨rfl, rfl⟩ := hconstructor
      cases List.mem_singleton.mp h
      exact .constructor rfl rfl
    · cases List.mem_singleton.mp h
      exact .method (.inl rfl) rfl
  | .static inner =>
    rw [script] at h
    split at h
    -- The script of a static member of a class opens the companion first.
    · rcases List.mem_cons.mp h with rfl | hin
      · exact .companion
      · exact (makes_of_mem_script .ofObject inner hin).static (.inr rfl) Holder.noConfusion
    · rename_i hclass
      exact (makes_of_mem_script holder inner h).static (.inl rfl) hclass

/-- The edits of members are those of each of them. -/
theorem mem_scripts {members : List Member} :
    edit ∈ (scripts holder name own members).value
      ↔ ∃ member ∈ members, edit ∈ (member.script holder name own).value := by
  induction members with
  | nil => exact iff_of_false List.not_mem_nil fun ⟨_, hin, _⟩ => absurd hin List.not_mem_nil
  | cons member rest ih =>
    simp only [List.mem_cons, exists_eq_or_imp, ← ih]
    exact List.mem_append

/-- What holds of all that the members make holds of their scripts. -/
theorem forall_mem_scripts {members : List Member} {condition : Edit → Prop}
    (h : ∀ member ∈ members, ∀ edit, member.Makes holder name own edit → condition edit) :
    ∀ edit ∈ (scripts holder name own members).value, condition edit := by
  intro edit hedit
  obtain ⟨member, hmember, hin⟩ := mem_scripts.mp hedit
  exact h member hmember edit (makes_of_mem_script holder member hin)

end Member

/-! ### The type parameters of a class -/

/-- The type parameters of a class. -/
def Definition.typeParameters? : Definition → Option (List Identifier)
  | .class definition => some definition.typeParameters
  | _ => none

namespace Body

/-- The type parameters of the class of a name, if it is there. -/
def typeParametersOf? (body : Body) (name : Identifier) : Option (List Identifier) :=
  (body.view ⟨.class, some name⟩).bind Definition.typeParameters?

/-- The class that is there has the type parameters that its view shows. -/
theorem typeParametersOf?_eq (body : Body) (name : Identifier) :
    body.typeParametersOf? name = (body.classNamed? name).map (·.typeParameters) := by
  unfold typeParametersOf? view classNamed?
  cases hfound : body.indexOf? ⟨.class, some name⟩ with
  | none => rfl
  | some index =>
    obtain ⟨definition, hd, -⟩ := class?_of_indexOf? hfound
    rw [Option.bind_some, Option.bind_some, hd, get?_of_class? hd]
    rfl

/-- The type parameters of a class are those that it has, or those that the first declaration of it
gives it later. -/
theorem headerOf_eq (body : Body) (name : Identifier) (later : List Declaration) :
    body.headerOf name later = (body.typeParametersOf? name).getD
      ((later.findSome? (Declaration.headerOf? name)).getD []) := by
  rw [typeParametersOf?_eq]
  unfold headerOf classNamed?
  rw [classIndex?_eq]
  cases (body.indexOf? ⟨.class, some name⟩).bind body.class? <;> rfl

/-- An edit of an object changes the type parameters of no class. -/
theorem typeParametersOf?_apply {edit : Edit} {revision : Revision}
    (hrevision : edit.revision? = some revision) {name : Identifier}
    (hlabel : revision.fresh.label ≠ ⟨.class, some name⟩) (body : Body) :
    (edit.apply body).typeParametersOf? name = body.typeParametersOf? name := by
  unfold typeParametersOf?
  rw [view_apply _ _ rfl, hrevision]
  simp only [if_neg (Ne.symm hlabel)]

/-- The class that is changed has the type parameters that the change makes of its own, or of
none. -/
theorem typeParametersOf?_onClass (body : Body) (name : Identifier) (change : ClassChange) :
    ((Edit.onClass name change).apply body).typeParametersOf? name
      = some (change.typeParameters ((body.typeParametersOf? name).getD [])) := by
  obtain ⟨found, hview, hbefore⟩ := body.view_onClass name change
  rw [typeParametersOf?, hview, typeParametersOf?]
  obtain hbefore | ⟨hbefore, rfl⟩ := hbefore <;> rw [hbefore] <;>
    exact congrArg some (change.typeParameters_apply _)

end Body

/-- To add constructors to the class of a name is one edit, if they construct it. -/
theorem Body.addCompanionConstructors?_eq (body : Body) (name : Identifier)
    (signature : Signature) (later : List Declaration) :
    body.addCompanionConstructors? name signature later
      = if signature.result.any (TypeExpr.isSelfType name (body.headerOf name later)) then
          some (Noted.applyTo body (do
            return [.onClass name (.adopt (body.headerOf name later)
              (← constructorAlternatives name signature))]))
        else none := by
  unfold addCompanionConstructors?
  dsimp only
  split
  · -- The class is the one that the edit opens, whether it was there or is new.
    have hclass := body.openClass_class? name
    have hf := (((body.classOrNew name).withHeader (body.headerOf name later)).addHeader
      [] []).addConstructors_eq signature
    rw [show (((body.classOrNew name).withHeader (body.headerOf name later)).addHeader
      [] []).name = name from body.name_classOrNew name] at hf
    refine congrArg some ?_
    rw [inClass_eq hclass (.adopt (body.headerOf name later) _) hf, Noted.bind_pure_eq]
    simp [Noted.applyTo, Edit.apply]
  · rfl

/-! ### The holder of a member -/

/-- The holder of a name stands at an index, and the class of that name has the given type
parameters, or will have them. -/
structure Owns (holder : Holder) (later : List Declaration) (name : Identifier)
    (own : List Identifier) (owner : Nat) (body : Body) : Prop where
  index : body.indexOf? (holder.label name) = some owner
  header : body.headerOf name later = own

namespace Owns

variable {holder : Holder} {later : List Declaration} {name : Identifier}
  {own : List Identifier} {owner : Nat} {body : Body}

/-- Only the type parameters can be lost. -/
theorem of_grows (h : Owns holder later name own owner body) {after : Body}
    (hgrows : body.Grows after) (hheader : after.headerOf name later = own) :
    Owns holder later name own owner after :=
  ⟨Body.indexOf?_of_prefix hgrows h.index, hheader⟩

/-- A holder that is a class has the type parameters itself. -/
theorem typeParametersOf? (h : Owns .ofClass later name own owner body) :
    body.typeParametersOf? name = some own := by
  obtain ⟨definition, hd, -⟩ := Body.class?_of_indexOf? h.index
  have hclass : body.classNamed? name = some definition := by
    rw [Body.classNamed?, show body.indexOf? ⟨.class, some name⟩ = some owner from h.index,
      Option.bind_some, hd]
  have hheader := h.header
  rw [Body.headerOf_eq, Body.typeParametersOf?_eq, hclass] at hheader
  rw [Body.typeParametersOf?_eq, hclass]
  exact congrArg some hheader

/-- Changing the class keeps its type parameters, if they were there or if the change gives
them. -/
theorem onClass (h : Owns holder later name own owner body) {change : ClassChange}
    (hchange : change.typeParameters ((body.typeParametersOf? name).getD []) = own) :
    Owns holder later name own owner ((Edit.onClass name change).apply body) := by
  refine h.of_grows (Edit.grows_apply body _) ?_
  rw [Body.headerOf_eq, Body.typeParametersOf?_onClass, hchange]
  rfl

/-- An edit of an object keeps the type parameters of the class. -/
theorem of_revision (h : Owns holder later name own owner body) {edit : Edit}
    {revision : Revision} (hrevision : edit.revision? = some revision)
    (hlabel : revision.fresh.label ≠ ⟨.class, some name⟩) :
    Owns holder later name own owner (edit.apply body) := by
  refine h.of_grows (Edit.grows_apply body _) ?_
  rw [Body.headerOf_eq, Body.typeParametersOf?_apply hrevision hlabel, ← Body.headerOf_eq]
  exact h.header

/-- The holder stays where it is when an object is opened. -/
theorem object (h : Owns holder later name own owner body) (other : Identifier) :
    Owns holder later name own owner ((Edit.object other).apply body) :=
  h.of_revision rfl (by simp [Definition.label, Definition.kind])

/-- So it does when something is entered into an object. -/
theorem inObject (h : Owns holder later name own owner body) (other : Identifier)
    (entry : Entry) :
    Owns holder later name own owner ((Edit.inObject other entry).apply body) :=
  h.of_revision rfl (by simp [Definition.label, Definition.kind])

/-- Where the class is there already, to change it without a change of its type parameters
keeps them. -/
theorem onClass_of_class (h : Owns .ofClass later name own owner body) {change : ClassChange}
    (hchange : change.typeParameters own = own) :
    Owns .ofClass later name own owner ((Edit.onClass name change).apply body) := by
  refine h.onClass ?_
  rw [h.typeParametersOf?, Option.getD_some, hchange]

/-- An interface is held by a class as well; only its members are read otherwise. -/
theorem ofClass_iff : Owns .ofInterface later name own owner body
    ↔ Owns .ofClass later name own owner body :=
  ⟨fun h => ⟨h.index, h.header⟩, fun h => ⟨h.index, h.header⟩⟩

/-- To enter something into the body of the holder keeps what is known of it. -/
theorem edit (h : Owns holder later name own owner body) (entry : Entry) :
    Owns holder later name own owner ((holder.edit name entry).apply body) := by
  cases holder with
  | ofObject => exact h.inObject name entry
  | ofInterface => exact ofClass_iff.mpr ((ofClass_iff.mp h).onClass_of_class rfl)
  | ofClass => exact h.onClass_of_class rfl

/-- The class that adopts constructors has the type parameters that it is given, or has them
already. -/
theorem adopt (h : Owns holder later name own owner body)
    (alternatives : List (List MethodParameter)) :
    Owns holder later name own owner
      ((Edit.onClass name (.adopt own alternatives)).apply body) := by
  refine h.onClass ?_
  have hheader := h.header
  rw [Body.headerOf_eq] at hheader
  cases hfound : body.typeParametersOf? name with
  | none => rfl
  | some found =>
    rw [hfound, Option.getD_some] at hheader
    subst hheader
    simp [ClassChange.typeParameters]

/-- What a member makes keeps what is known of its holder. -/
theorem makes (h : Owns holder later name own owner body) {member : Member} {edit : Edit}
    (hmakes : member.Makes holder name own edit) :
    Owns holder later name own owner (edit.apply body) := by
  have hplace : ∀ {place : Holder} (entry : Entry), place = holder ∨ place = .ofObject →
      Owns holder later name own owner ((place.edit name entry).apply body) := by
    rintro place entry (rfl | rfl)
    · exact h.edit entry
    · exact h.inObject name entry
  cases hmakes with
  | companion => exact h.object name
  | comment _ hin => exact hplace _ hin
  | call hin _ | property hin _ | method hin _ => exact hplace _ hin
  | adopt _ _ => exact h.adopt _
  | construct hholder _ | constructor hholder _ =>
    subst hholder
    exact h.onClass_of_class rfl

/-- So do all edits of members. -/
theorem applyAll (h : Owns holder later name own owner body) {edits : List Edit}
    (hedits : ∀ edit ∈ edits, ∃ member : Member, member.Makes holder name own edit) :
    Owns holder later name own owner (Edit.applyAll edits body) := by
  induction edits generalizing body with
  | nil => exact h
  | cons edit rest ih =>
    rw [List.forall_mem_cons] at hedits
    obtain ⟨⟨member, hmakes⟩, hrest⟩ := hedits
    exact ih (h.makes hmakes) hrest

/-- A class that is opened with a header owns what comes next. -/
theorem of_openClass (body : Body) {holder : Holder} (hholder : holder ≠ .ofObject)
    (name : Identifier) (later : List Declaration) (new : List Identifier)
    (parents : List ScalaType) :
    Owns holder later name
      (ClassDefinition.addMissing ((body.typeParametersOf? name).getD []) new)
      (body.openClass name).1 ((Edit.onClass name (.header new parents)).apply body) := by
  have hgrows : (body.openClass name).2.Grows
      ((Edit.onClass name (.header new parents)).apply body) :=
    Body.grows_modify fun definition _ => Edit.label_mapClass (.header new parents) definition
  have hindex := Body.indexOf?_of_prefix hgrows (body.opens_openClass name).indexOf?
  constructor
  · cases holder with
    | ofObject => exact absurd rfl hholder
    | ofInterface => exact hindex
    | ofClass => exact hindex
  · rw [Body.headerOf_eq, Body.typeParametersOf?_onClass]
    rfl

/-- So does an object that is opened. -/
theorem of_openObject (body : Body) (name : Identifier) (later : List Declaration) :
    Owns .ofObject later name (body.headerOf name later) (body.openObject name).1
      ((Edit.object name).apply body) := by
  refine ⟨(body.opens_openObject name).indexOf?, ?_⟩
  rw [Body.headerOf_eq, Body.typeParametersOf?_apply rfl
    (by simp [Definition.label, Definition.kind]), ← Body.headerOf_eq]

/-! ### To add a member is to apply its script -/

/-- The holder is there, has its name, and has a body. -/
theorem get? (h : Owns holder later name own owner body) :
    ∃ found inner, body.get? owner = some found ∧ found.name? = some name
      ∧ found.body? = some inner := by
  obtain ⟨found, hd, hl⟩ := Body.get?_of_indexOf? h.index
  cases holder <;> cases found <;>
    simp [Definition.label, Definition.kind, Holder.label] at hl <;> exact ⟨_, _, hd, hl, rfl⟩

/-- The edit that enters something into the body of the holder changes what stands at its
index. -/
theorem apply_edit (h : Owns holder later name own owner body) (entry : Entry) :
    (holder.edit name entry).apply body
      = body.modify owner (Definition.mapBody fun inner => inner.enter entry) := by
  have hclass : body.indexOf? ⟨.class, some name⟩ = some owner →
      (Edit.onClass name (.enter entry)).apply body
        = body.modify owner (Definition.mapBody fun inner => inner.enter entry) := by
    intro hindex
    obtain ⟨found, hd, -⟩ := Body.class?_of_indexOf? hindex
    rw [Edit.apply, Body.openClass_of_indexOf? hindex]
    refine Body.modify_congr fun definition hdefinition => ?_
    cases hdefinition.symm.trans (Body.get?_of_class? hd)
    rfl
  cases holder with
  | ofObject => rw [Holder.edit, Edit.apply, Body.openObject_of_indexOf? h.index]
  | ofInterface => exact hclass h.index
  | ofClass => exact hclass h.index

/-- To add something to the body of the holder is one edit. -/
theorem inBody_eq (h : Owns holder later name own owner body) {f : Body → Noted Body}
    {entry : Entry} {warnings : List Warning}
    (hf : ∀ inner, f inner = ⟨inner.enter entry, warnings⟩) :
    body.inBody owner f = Noted.applyTo body ⟨[holder.edit name entry], warnings⟩ := by
  obtain ⟨found, inner, hd, -, hinner⟩ := h.get?
  rw [Body.inBody_eq hd hinner (g := fun inner => inner.enter entry) (hf inner),
    Noted.applyTo, Edit.applyAll_cons, Edit.applyAll_nil, h.apply_edit]

/-- To keep a text in the holder is to apply the edit that keeps it. -/
theorem keep_eq (h : Owns holder later name own owner body) (text : String) :
    (body.inBody owner fun inner => inner.keep text)
      = Noted.applyTo body (holder.keep name text) :=
  h.inBody_eq fun _ => rfl

/-- To add constructors to a class that is the holder is one edit. -/
theorem addConstructors_eq (h : Owns .ofClass later name own owner body)
    (signature : Signature) :
    (body.inClass owner fun definition => definition.addConstructors signature)
      = Noted.applyTo body (do
          return [.onClass name (.constructors (← constructorAlternatives name signature))]) := by
  obtain ⟨definition, hd, hname⟩ := Body.class?_of_indexOf? h.index
  rw [Body.inClass_eq hd (.constructors _) (definition.addConstructors_eq signature), hname,
    Noted.bind_pure_eq]
  simp [Noted.applyTo, Edit.apply, Body.openClass_of_indexOf? h.index]

/-- To add constructors to the companion of an object is one edit, if they construct it. -/
theorem addCompanionConstructors?_eq (h : Owns .ofObject later name own owner body)
    (signature : Signature) :
    body.addCompanionConstructors? name signature later
      = if signature.result.any (TypeExpr.isSelfType name own) then
          some (Noted.applyTo body (do
            return [.onClass name (.adopt own (← constructorAlternatives name signature))]))
        else none := by
  rw [Body.addCompanionConstructors?_eq, h.header]

end Owns

/-- To add the methods of a signature is to enter them. -/
theorem Body.addMethods_eq (body : Body) (name : Identifier) (signature : Signature) :
    body.addMethods name signature
      = ⟨body.enter (Entry.ofSignature (some name) signature).value,
          (Entry.ofSignature (some name) signature).warnings⟩ := by
  unfold Body.addMethods Entry.ofSignature
  simp only [Body.foldl_push]
  rfl

/-- A member without a name gets one that is made up in the body of its holder. -/
theorem Body.addMethods_nameMember (body : Body) (word : String) (signature : Signature) :
    (body.nameMember word).2.addMethods (body.nameMember word).1 signature
      = ⟨body.enter (Entry.ofSignature (memberName? word) signature).value,
          (Entry.ofSignature (memberName? word) signature).warnings⟩ := by
  rw [Body.addMethods_eq]
  unfold Body.nameMember memberName?
  split <;> rfl

/-- To add a field under the name of a member is to enter it. -/
theorem Body.pushField_nameMember (body : Body) (word : String) (type : ScalaType) :
    (body.nameMember word).2.push (.field ⟨(body.nameMember word).1, type⟩)
      = body.enter (.field (memberName? word) type) := by
  unfold Body.nameMember memberName?
  split <;> rfl

namespace Member

/-- To add a member is to apply its script. -/
theorem addTo_eq {holder : Holder} {later : List Declaration} {name : Identifier}
    {own : List Identifier} {owner : Nat} {body : Body} (member : Member)
    (h : Owns holder later name own owner body) :
    member.addTo holder owner later body
      = Noted.applyTo body (member.script holder name own) := by
  cases member with
  | call signature =>
    rw [script, Noted.bind_pure_eq]
    exact h.inBody_eq fun inner => inner.addMethods_eq .apply signature
  | construct signature =>
    cases holder with
    | ofObject =>
      obtain ⟨definition, hd, hname⟩ := Body.object?_of_indexOf? h.index
      rw [addTo, hd]
      simp only [hname, h.addCompanionConstructors?_eq]
      rw [script]
      split
      · rfl
      · exact h.keep_eq _
    | ofInterface => exact h.keep_eq _
    | ofClass => exact h.addConstructors_eq signature
  | index parameter type => exact h.keep_eq _
  | property word optional type =>
    rw [addTo, script]
    split
    · rfl
    · have hfield : ∀ inner : Body,
          (pure ((inner.nameMember word).2.push
            (.field ⟨(inner.nameMember word).1, (toScalaOrAny type).value⟩)) : Noted Body)
          = ⟨inner.enter (.field (memberName? word) (toScalaOrAny type).value), []⟩ :=
        fun inner => congrArg (Noted.mk · [])
          (inner.pushField_nameMember word (toScalaOrAny type).value)
      have hentry := h.inBody_eq hfield
      exact congrArg (fun noted : Noted Body =>
        (⟨noted.value, (toScalaOrAny type).warnings ++ noted.warnings⟩ : Noted Body)) hentry
  | method word optional signature =>
    rw [addTo, script]
    split
    · rename_i hconstructor
      simp only [Bool.and_eq_true, decide_eq_true_eq] at hconstructor
      obtain ⟨rfl, -⟩ := hconstructor
      exact h.addConstructors_eq signature
    · rw [Noted.bind_pure_eq]
      exact h.inBody_eq fun inner => inner.addMethods_nameMember word signature
  | static inner =>
    rw [addTo, script]
    split
    -- The companion that is opened for the member is owned under the name of the class.
    · obtain ⟨found, _, hd, hname, -⟩ := h.get?
      have hcompanion : Owns .ofObject later name own (body.openObject name).1
          ((Edit.object name).apply body) :=
        ⟨(body.opens_openObject name).indexOf?, (h.object name).header⟩
      rw [hd, Option.bind_some, hname, Noted.bind_pure_eq]
      exact addTo_eq inner hcompanion
    · exact addTo_eq inner h

/-- The script of a member keeps what is known of its holder. -/
theorem owns_applyAll {holder : Holder} {later : List Declaration} {name : Identifier}
    {own : List Identifier} {owner : Nat} {body : Body} (member : Member)
    (h : Owns holder later name own owner body) :
    Owns holder later name own owner
      (Edit.applyAll (member.script holder name own).value body) :=
  h.applyAll fun _ hedit => ⟨member, makes_of_mem_script holder member hedit⟩

/-- So do the scripts of members. -/
theorem owns_scripts {holder : Holder} {later : List Declaration} {name : Identifier}
    {own : List Identifier} {owner : Nat} {body : Body} (members : List Member)
    (h : Owns holder later name own owner body) :
    Owns holder later name own owner
      (Edit.applyAll (scripts holder name own members).value body) :=
  h.applyAll (forall_mem_scripts fun member _ _ hmakes => ⟨member, hmakes⟩)

/-- To add members is to apply their scripts, one after the other. -/
theorem addAllTo_eq {holder : Holder} {later : List Declaration} {name : Identifier}
    {own : List Identifier} {owner : Nat} {body : Body} (members : List Member)
    (h : Owns holder later name own owner body) :
    Member.addAllTo holder owner later members body
      = Noted.applyTo body (Member.scripts holder name own members) := by
  induction members generalizing body with
  | nil => rfl
  | cons member rest ih =>
    have hrest := ih (member.owns_applyAll h)
    unfold addAllTo at hrest ⊢
    rw [List.foldlM_cons, member.addTo_eq h]
    have hboth := congrArg (fun noted : Noted Body => (⟨noted.value,
      (member.script holder name own).warnings ++ noted.warnings⟩ : Noted Body)) hrest
    refine hboth.trans ?_
    simp [Noted.applyTo, scripts]

end Member

/-! ### To add a declaration is to apply its script -/

/-- The type parameters that the construct signatures of a declaration are compared with. -/
def Declaration.ownParameters (later : List Declaration) (body : Body) :
    Declaration → List Identifier
  | .variable name _ => body.headerOf ⟨name⟩ later
  | .interface name typeParameters _ _ => ClassDefinition.addMissing
      ((body.typeParametersOf? ⟨name⟩).getD []) (TypeParameter.identifiers typeParameters)
  | .alias name typeParameters _ => ClassDefinition.addMissing
      ((body.typeParametersOf? ⟨name⟩).getD []) (TypeParameter.identifiers typeParameters)
  | .class name typeParameters _ _ _ => ClassDefinition.addMissing
      ((body.typeParametersOf? ⟨name⟩).getD []) (TypeParameter.identifiers typeParameters)
  | _ => []

/-- To open a class with the header of a declaration and to add members is to apply a script. -/
theorem Body.addClass_eq (body : Body) (holder : Holder) (hholder : holder ≠ .ofObject)
    (name : String) (typeParameters : List TypeParameter) (parents : List TypeExpr)
    (members : List Member) (later : List Declaration) :
    body.addClass holder name typeParameters parents members later
      = Noted.applyTo body (classScript holder name typeParameters parents members
          (ClassDefinition.addMissing ((body.typeParametersOf? ⟨name⟩).getD [])
            (TypeParameter.identifiers typeParameters))) := by
  have hboth := congrArg (fun noted : Noted Body => (⟨noted.value,
    (toScalaAll parents).warnings ++ noted.warnings⟩ : Noted Body))
    (Member.addAllTo_eq members (.of_openClass body hholder ⟨name⟩ later
      (TypeParameter.identifiers typeParameters) (toScalaAll parents).value))
  refine hboth.trans ?_
  simp [Noted.applyTo, classScript]

/-- To add a declaration other than a namespace is to apply its script. -/
theorem Declaration.addTo_eq (declaration : Declaration) (later : List Declaration)
    (body : Body) (hnamespace : declaration.isNamespace = false) :
    declaration.addTo later body = Noted.applyTo body
      (declaration.script (declaration.ownParameters later body)) := by
  cases declaration with
  | «variable» name type =>
    have hfield : (do return body.push (.field ⟨⟨name⟩, ← toScalaOrAny type⟩) : Noted Body)
        = Noted.applyTo body (do return [.here (.field (some ⟨name⟩) (← toScalaOrAny type))]) := by
      rw [Noted.bind_pure_eq, Noted.bind_pure_eq]
      rfl
    -- Only a variable of an object type becomes an object, any other a field.
    rcases type with - | type
    · exact hfield
    · cases type with
      | object members =>
        rw [addTo, script, Noted.bind_pure_eq]
        exact Member.addAllTo_eq members (.of_openObject body ⟨name⟩ later)
      | _ => exact hfield
  | function name signature =>
    rw [addTo, script, Noted.bind_pure_eq]
    exact body.addMethods_eq ⟨name⟩ signature
  | «interface» name typeParameters parents members =>
    rw [addTo]
    exact body.addClass_eq .ofInterface (by simp) name typeParameters parents members later
  | «alias» name typeParameters type =>
    cases type with
    | object members =>
      rw [addTo]
      exact body.addClass_eq .ofInterface (by simp) name typeParameters [] members later
    | _ => rfl
  | «class» name typeParameters parent interfaces members =>
    rw [addTo]
    exact body.addClass_eq .ofClass (by simp) name typeParameters (parent.toList ++ interfaces)
      members later
  | «namespace» path declarations => cases hnamespace
  | unsupported text =>
    rw [addTo]
    rfl

end Facade
