import Facade.Proofs.Translation.Expansion

/-!
# Constructors for the class of an object

A variable of an object type often stands for the class of its own name, and its construct
signatures then construct that class. Whether one does is a matter of its result type, which has to
be the class applied to its own type parameters (`TypeExpr.Applies`). These are known even where the
class is declared later only (`Body.Heads`).

`Body.addCompanionConstructors?` takes a signature or leaves it, and `construct_promoted` says that
there is nothing in between. A signature that is left is kept as a comment of the object. Of one
that is taken, `Body.Adopts` writes out the body that comes of it, and nothing but the class and the
link to it differs from the body before.
-/

set_option autoImplicit false

namespace Facade

/-! ### What a signature has to construct -/

/-- The type is a name applied to type parameters, each written as a bare name, with parentheses
around it or without. -/
inductive TypeExpr.Applies (name : Identifier) (typeParameters : List Identifier) :
    TypeExpr → Prop where
  | named : Applies name typeParameters
      (.named [name.raw] (typeParameters.map fun parameter => .named [parameter.raw] []))
  | parenthesized {inner : TypeExpr} :
      Applies name typeParameters inner → Applies name typeParameters (.parenthesized inner)

namespace TypeExpr

/-- A type is a bare name if it is a path of that name alone, applied to nothing. -/
theorem isBare_iff {name : Identifier} {type : TypeExpr} :
    type.isBare name = true ↔ type = .named [name.raw] [] := by
  unfold isBare
  split <;> simp_all

/-- Types are bare names if each of them is. -/
theorem areBare_iff {types : List TypeExpr} {names : List Identifier} :
    areBare types names = true ↔ types = names.map fun name => .named [name.raw] [] := by
  induction types generalizing names with
  | nil => cases names <;> simp [areBare]
  | cons type rest ih => cases names <;> simp [areBare, isBare_iff, ih]

/-- The type inside the parentheses is applied if and only if the whole type is. -/
theorem applies_unwrap {name : Identifier} {typeParameters : List Identifier} (type : TypeExpr) :
    type.unwrap.Applies name typeParameters ↔ type.Applies name typeParameters := by
  cases type with
  | parenthesized inner =>
    rw [unwrap, applies_unwrap inner]
    exact ⟨.parenthesized, fun h => by cases h; assumption⟩
  | _ => rfl

/-- There are no parentheses around what is inside the parentheses. -/
theorem unwrap_ne_parenthesized (type inner : TypeExpr) : type.unwrap ≠ .parenthesized inner := by
  cases type with
  | parenthesized type => exact unwrap_ne_parenthesized type inner
  | _ => simp [unwrap]

/-- A type is that of the class itself if it applies the name to the type parameters. -/
theorem isSelfType_iff {name : Identifier} {typeParameters : List Identifier} {type : TypeExpr} :
    type.isSelfType name typeParameters = true ↔ type.Applies name typeParameters := by
  rw [← applies_unwrap]
  unfold isSelfType
  constructor
  · intro h
    split at h
    · rename_i single arguments htype
      rw [Bool.and_eq_true, beq_iff_eq, areBare_iff] at h
      obtain ⟨rfl, rfl⟩ := h
      rw [htype]
      exact .named
    · cases h
  · intro h
    generalize htype : type.unwrap = inner at h
    cases h with
    | named => simp [areBare_iff]
    | parenthesized => exact absurd htype (unwrap_ne_parenthesized type _)

end TypeExpr

/-- The declaration makes a class or trait of a name, and gives it type parameters. -/
inductive Declaration.Gives (name : Identifier) : Declaration → List Identifier → Prop where
  | interface (typeParameters : List TypeParameter) (parents : List TypeExpr)
      (members : List Member) :
      Gives name (.interface name.raw typeParameters parents members)
        (TypeParameter.identifiers typeParameters)
  | class (typeParameters : List TypeParameter) (parent : Option TypeExpr)
      (interfaces : List TypeExpr) (members : List Member) :
      Gives name (.class name.raw typeParameters parent interfaces members)
        (TypeParameter.identifiers typeParameters)
  | alias (typeParameters : List TypeParameter) (members : List Member) :
      Gives name (.alias name.raw typeParameters (.object members))
        (TypeParameter.identifiers typeParameters)

/-- A declaration says which type parameters a class has if it gives them to it. -/
theorem Declaration.headerOf?_some_iff {name : Identifier} {declaration : Declaration}
    {header : List Identifier} :
    declaration.headerOf? name = some header ↔ declaration.Gives name header := by
  constructor
  · intro h
    unfold headerOf? at h
    split at h
    case h_4 => cases h
    all_goals
      rw [Option.ite_none_right_eq_some, Option.some_inj] at h
      obtain ⟨rfl, rfl⟩ := h
    · exact .interface _ _ _
    · exact .class _ _ _ _
    · exact .alias _ _
  · rintro (_ | _ | _) <;> exact if_pos rfl

/-- It says nothing of a class if it gives no type parameters to it. -/
theorem Declaration.headerOf?_none_iff {name : Identifier} {declaration : Declaration} :
    declaration.headerOf? name = none ↔ ∀ header, ¬ declaration.Gives name header := by
  rw [Option.eq_none_iff_forall_ne_some]
  exact forall_congr' fun header => not_congr headerOf?_some_iff

namespace Body

/-- The definition stands at the index, and none of its kind and name before it. -/
structure First (body : Body) (index : Nat) (definition : Definition) : Prop where
  here : body.get? index = some definition
  first : ∀ other < index, ∀ before, body.get? other = some before →
    before.label ≠ definition.label

/-- The body has no class of the name. -/
def Lacks (body : Body) (name : Identifier) : Prop :=
  ∀ index definition, body.class? index = some definition → definition.name ≠ name

/-- The type parameters of the class of a name: those it has, or those that it will have. -/
inductive Heads (body : Body) (name : Identifier) (later : List Declaration) :
    List Identifier → Prop where
  | present {index : Nat} {definition : ClassDefinition} : definition.name = name →
      body.First index (.class definition) → Heads body name later definition.typeParameters
  | later {front back : List Declaration} {declaration : Declaration}
      {header : List Identifier} : body.Lacks name → later = front ++ declaration :: back →
      (∀ other ∈ front, ∀ header, ¬ other.Gives name header) → declaration.Gives name header →
      Heads body name later header
  | none : body.Lacks name → (∀ other ∈ later, ∀ header, ¬ other.Gives name header) →
      Heads body name later []

/-- The first definition with a label is the one that a search for the label finds. -/
theorem first_iff {body : Body} {index : Nat} {definition : Definition} :
    body.First index definition
      ↔ body.get? index = some definition ∧ body.indexOf? definition.label = some index := by
  -- The search is on the list of labels, so what stands where is taken over from one to the other.
  rw [indexOf?, List.idxOf?, List.findIdx?_eq_some_iff_getElem]
  constructor
  · intro h
    have hlt : index < body.labels.length := by
      rw [length_labels]
      exact lt_size_of_get? h.here
    refine ⟨h.here, hlt, ?_, fun other hother => ?_⟩
    · have hlabel := body.getElem?_labels index
      rw [List.getElem?_eq_getElem hlt, h.here] at hlabel
      exact beq_iff_eq.mpr (Option.some.inj hlabel)
    · have hlabel := body.getElem?_labels other
      rw [List.getElem?_eq_getElem (hother.trans hlt)] at hlabel
      obtain ⟨before, hbefore, hlabel⟩ := Option.map_eq_some_iff.mp hlabel.symm
      rw [beq_iff_eq, ← hlabel]
      exact h.first other hother before hbefore
  · rintro ⟨here, hlt, -, hfirst⟩
    refine ⟨here, fun other hother before hbefore hlabel => hfirst other hother ?_⟩
    have hother := body.getElem?_labels other
    rw [hbefore, Option.map_some, hlabel] at hother
    exact beq_iff_eq.mpr (List.getElem?_eq_some_iff.mp hother).2

/-- A body lacks a class if a search for it finds none. -/
theorem lacks_iff {body : Body} {name : Identifier} :
    body.Lacks name ↔ body.indexOf? ⟨.class, some name⟩ = none := by
  rw [indexOf?_eq_none]
  constructor
  · intro h index definition hd hl
    cases definition with
    | «class» definition =>
      refine h index definition (by simp [class?, hd]) ?_
      simpa [Definition.label, Definition.kind, Definition.name?] using hl
    | _ => simp [Definition.label, Definition.kind] at hl
  · intro h index definition hd hname
    exact h index _ (get?_of_class? hd)
      (by simp [Definition.label, Definition.kind, Definition.name?, hname])

/-- The class of a name is the first one, if there is any. -/
theorem first_class {body : Body} {name : Identifier} {index : Nat}
    (h : body.indexOf? ⟨.class, some name⟩ = some index) :
    ∃ definition, definition.name = name ∧ body.class? index = some definition
      ∧ body.First index (.class definition) := by
  obtain ⟨definition, hd, rfl⟩ := class?_of_indexOf? h
  exact ⟨definition, rfl, hd, first_iff.mpr ⟨get?_of_class? hd, h⟩⟩

/-- The type parameters that are looked up for a class are those it has, or will have. -/
theorem heads_headerOf (body : Body) (name : Identifier) (later : List Declaration) :
    body.Heads name later (body.headerOf name later) := by
  unfold headerOf
  rw [classIndex?_eq]
  cases hindex : body.indexOf? ⟨.class, some name⟩ with
  | some index =>
    obtain ⟨definition, hname, hd, hfirst⟩ := first_class hindex
    simp only [Option.bind_some, hd]
    exact .present hname hfirst
  | none =>
    have hlacks := lacks_iff.mpr hindex
    cases hlater : later.findSome? (Declaration.headerOf? name) with
    | none =>
      exact .none hlacks fun other hother =>
        Declaration.headerOf?_none_iff.mp (List.findSome?_eq_none_iff.mp hlater other hother)
    | some header =>
      obtain ⟨front, declaration, back, hsplit, hheader, hfront⟩ :=
        List.findSome?_eq_some_iff.mp hlater
      exact .later hlacks hsplit
        (fun other hother => Declaration.headerOf?_none_iff.mp (hfront other hother))
        (Declaration.headerOf?_some_iff.mp hheader)

/-- The type parameters of the class of a name are what they are described as, and nothing else. -/
theorem heads_iff {body : Body} {name : Identifier} {later : List Declaration}
    {header : List Identifier} :
    body.Heads name later header ↔ header = body.headerOf name later := by
  refine ⟨fun h => ?_, fun h => h ▸ body.heads_headerOf name later⟩
  unfold headerOf
  rw [classIndex?_eq]
  cases h with
  | @present index definition hname hfirst =>
    obtain ⟨hd, hindex⟩ := first_iff.mp hfirst
    have hlabel : (Definition.class definition).label = ⟨.class, some name⟩ :=
      congrArg (fun name => (⟨.class, some name⟩ : Label)) hname
    rw [← hlabel, hindex]
    simp [class?, hd]
  | later hlacks hsplit hfront hheader =>
    have hlater : later.findSome? (Declaration.headerOf? name) = some header :=
      List.findSome?_eq_some_iff.mpr ⟨_, _, _, hsplit, Declaration.headerOf?_some_iff.mpr hheader,
        fun other hother => Declaration.headerOf?_none_iff.mpr (hfront other hother)⟩
    rw [lacks_iff.mp hlacks, hlater]
    rfl
  | none hlacks hlater =>
    have hnone : later.findSome? (Declaration.headerOf? name) = none :=
      List.findSome?_eq_none_iff.mpr fun other hother =>
        Declaration.headerOf?_none_iff.mpr (hlater other hother)
    rw [lacks_iff.mp hlacks, hnone]
    rfl

end Body

/-! ### What comes of it -/

/-- The class with the constructors of a signature. It is no trait any more, and where it had no
type parameters or no parents, it has some now. -/
def ClassDefinition.adopting (definition : ClassDefinition) (header : List Identifier)
    (signature : Signature) : ClassDefinition :=
  { definition with
    isTrait := false
    typeParameters :=
      if definition.typeParameters.isEmpty then header else definition.typeParameters
    parents := if definition.parents.isEmpty then [.object] else definition.parents
    body := definition.body.withMethods signature.constructors }

/-- The class of a name has taken the constructors of a signature, and nothing else has changed. If
there was no class, there is one at the end now, and the object of the name has a link to it. -/
inductive Body.Adopts (body : Body) (name : Identifier) (header : List Identifier)
    (signature : Signature) : Body → Prop where
  | present {index : Nat} {definition : ClassDefinition} : definition.name = name →
      body.First index (.class definition) →
      Adopts body name header signature
        (body.modify index fun _ => .class (definition.adopting header signature))
  | absent {index : Nat} {object : ObjectDefinition} : body.Lacks name → object.name = name →
      body.First index (.object object) →
      Adopts body name header signature
        ((body.push (.class ((ClassDefinition.named name (some index)).adopting header
          signature))).modify index fun _ => .object { object with companion := some body.size })

/-- A construct signature of an object is taken or left, where the class of the name of the object
has the given type parameters. -/
structure Body.Promotes (body : Body) (owner : Nat) (name : Identifier) (signature : Signature)
    (later : List Declaration) (header : List Identifier) : Prop where
  heads : ∀ other, body.Heads name later other ↔ other = header
  accepted : (body.addCompanionConstructors? name signature later).isSome = true
    ↔ ∃ result, signature.result = some result ∧ result.Applies name header
  /-- A signature that is left is a comment of the object, and that is all. -/
  refused : body.addCompanionConstructors? name signature later = none →
    (Member.construct signature).addTo .ofObject owner later body
      = ⟨body.modify owner (Definition.mapBody fun inner =>
            inner.push (.comment (Member.construct signature).display)),
          [.keptAsComment (Member.construct signature).display]⟩
  adopted : ∀ added, body.addCompanionConstructors? name signature later = some added →
    (Member.construct signature).addTo .ofObject owner later body = added
      ∧ added.warnings = signature.constructWarnings name
      ∧ body.Adopts name header signature added.value
  /-- Where no two objects have one name, the object that a new class is linked with is the one
  that has the signature. -/
  linked : body.WellLinked → ∀ index twin, body.First index (.object twin) → twin.name = name →
    index = owner

/-- The change that adopts constructors is the one that comes of a construct signature. -/
theorem ClassChange.adopt_eq (definition : ClassDefinition) (header : List Identifier)
    (name : Identifier) (signature : Signature) :
    (ClassChange.adopt header (constructorAlternatives name signature).value).apply definition
      = definition.adopting header signature := by
  rw [apply, ClassDefinition.withConstructors_eq]
  rfl

/-- Changes at two indices may be made in either order. -/
theorem Body.modify_comm {body : Body} {first second : Nat} (h : first ≠ second)
    (f g : Definition → Definition) :
    (body.modify first f).modify second g = (body.modify second g).modify first f := by
  simp only [modify, List.modify_modify_ne _ _ _ h]

namespace Body

/-- The edit that gives constructors to the class of a name, where there is one. -/
theorem adopt_of_class {body : Body} {index : Nat} {definition : ClassDefinition}
    (hd : body.class? index = some definition)
    (hindex : body.indexOf? ⟨.class, some definition.name⟩ = some index)
    (header : List Identifier) (signature : Signature) :
    (Edit.onClass definition.name (.adopt header
        (constructorAlternatives definition.name signature).value)).apply body
      = body.modify index fun _ => .class (definition.adopting header signature) := by
  rw [Edit.apply, openClass_of_indexOf? hindex]
  refine modify_congr fun found hfound => ?_
  cases hfound.symm.trans (get?_of_class? hd)
  exact congrArg Definition.class
    (ClassChange.adopt_eq definition header definition.name signature)

/-- The edit that gives constructors to the class of a name, where there is an object only. -/
theorem adopt_of_object {body : Body} {index : Nat} {object : ObjectDefinition}
    (hobject : body.object? index = some object)
    (hindex : body.indexOf? ⟨.object, some object.name⟩ = some index)
    (hlacks : body.indexOf? ⟨.class, some object.name⟩ = none)
    (header : List Identifier) (signature : Signature) :
    (Edit.onClass object.name (.adopt header
        (constructorAlternatives object.name signature).value)).apply body
      = (body.push (.class ((ClassDefinition.named object.name (some index)).adopting header
          signature))).modify index
            fun _ => .object { object with companion := some body.size } := by
  have hd := get?_of_object? hobject
  have hlt := lt_size_of_get? hd
  have hfresh : (Definition.class (.named object.name (some index))).label.partner?.bind
      body.indexOf? = some index := hindex
  have hadopt := ClassChange.adopt_eq (.named object.name (some index)) header object.name
    signature
  rw [Edit.apply, openClass_eq, hlacks, hindex]
  simp only [enrol, hfresh]
  -- The object learns of the class before the class is changed, which is the same as after.
  rw [modify_comm (Nat.ne_of_lt hlt), modify_push_size, Definition.mapClass, hadopt]
  refine modify_congr fun found hfound => ?_
  rw [get?_push_of_lt hlt, hd] at hfound
  cases hfound
  rfl

/-- The edit that adopts constructors leaves a body that has taken them. -/
theorem adopts_apply {body : Body} {owner : Nat} {object : ObjectDefinition}
    (hobject : body.object? owner = some object) (header : List Identifier)
    (signature : Signature) :
    body.Adopts object.name header signature ((Edit.onClass object.name
      (.adopt header (constructorAlternatives object.name signature).value)).apply body) := by
  cases hindex : body.indexOf? ⟨.class, some object.name⟩ with
  | some index =>
    obtain ⟨definition, hname, hd, hfirst⟩ := first_class hindex
    rw [← hname] at hindex ⊢
    rw [adopt_of_class hd hindex]
    exact .present rfl hfirst
  | none =>
    -- The object itself has the name, so the search for an object of the name finds one.
    obtain ⟨index, hlink⟩ := Option.ne_none_iff_exists'.mp fun hnone =>
      indexOf?_eq_none.mp hnone owner _ (get?_of_object? hobject) rfl
    obtain ⟨twin, htwin, hname⟩ := object?_of_indexOf? hlink
    rw [show (Definition.object object).label = ⟨.object, some twin.name⟩ by rw [hname]; rfl]
      at hlink
    rw [← hname] at hindex ⊢
    rw [adopt_of_object htwin hlink hindex]
    exact .absent (lacks_iff.mpr hindex) rfl (first_iff.mpr ⟨get?_of_object? htwin, hlink⟩)

end Body

/-- A construct signature of an object is given to the class of its name, or kept as a comment,
according to what it constructs. -/
theorem construct_promoted {body : Body} {owner : Nat} {object : ObjectDefinition}
    (hobject : body.object? owner = some object) (signature : Signature)
    (later : List Declaration) :
    body.Promotes owner object.name signature later (body.headerOf object.name later) where
  heads _ := Body.heads_iff
  accepted := by
    rw [Body.addCompanionConstructors?_eq]
    cases hresult : signature.result <;> simp [TypeExpr.isSelfType_iff]
  refused hnone := by
    rw [Member.addTo]
    simp only [hobject, hnone, Option.getD_none]
    exact Body.inBody_eq (Body.get?_of_object? hobject) rfl rfl
  adopted added hadded := by
    refine ⟨?_, (Body.companion_expanded hadded).1, ?_⟩
    · rw [Member.addTo]
      simp only [hobject, hadded, Option.getD_some]
    · rw [Body.addCompanionConstructors?_eq, Option.ite_none_right_eq_some] at hadded
      obtain ⟨-, hadded⟩ := hadded
      cases hadded
      exact Body.adopts_apply hobject (body.headerOf object.name later) signature
  linked hlinked index twin hfirst hname := by
    have htwin : body.object? index = some twin := by
      simp [Body.object?, hfirst.here]
    exact hlinked.object_unique index owner twin object htwin hobject hname

/-- The object of a variable `Promise`, on its own. -/
def promises : Body :=
  ⟨[.object (.named ⟨"Promise"⟩ none)], 0⟩

/-- `new (executor?: number): (Promise<T>)`. -/
def promiseConstructor : Signature where
  typeParameters := []
  parameters := [⟨"executor", true, some (.primitive .number)⟩]
  result := some (.parenthesized (.named ["Promise"] [.named ["T"] []]))

/-- The signature is taken where an interface `Promise<T>` comes later, and makes a class of it. -/
theorem construct_promoted_promise :
    promises.object? 0 = some (.named ⟨"Promise"⟩ none)
      ∧ (Member.construct promiseConstructor).addTo .ofObject 0
          [.interface "Promise" [⟨"T", none, none⟩] [] []] promises
        = ⟨⟨[.object ⟨⟨"Promise"⟩, some 1, .empty⟩,
            .class ⟨⟨"Promise"⟩, [⟨"T"⟩], [.object], false, some 0,
              ⟨[.method ⟨.constructor, [], [], .unit⟩,
                .method ⟨.constructor, [], [⟨⟨"executor"⟩, .number, true⟩], .unit⟩], 0⟩⟩], 0⟩,
          []⟩ := by
  have hobject : promises.object? 0 = some (.named ⟨"Promise"⟩ none) := rfl
  have hpromoted := construct_promoted hobject promiseConstructor
    [.interface "Promise" [⟨"T", none, none⟩] [] []]
  exact ⟨hobject, (hpromoted.adopted _ rfl).1⟩

end Facade
