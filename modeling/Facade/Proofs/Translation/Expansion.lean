import Facade.Proofs.Translation.Varargs

/-!
# One method for every number of arguments

A signature whose last parameters may be left out becomes more than one method. What these are is
said twice. `Parameter.Expands` describes lists of parameters one by one: how many there are, how
long each is, and which parameters it has. `Signature.Expanded` says where they come in: wherever a
signature is called or constructs something, its methods are entered at the end of one body, one
behind the other, and the types of the signature are mapped once, however many methods there are.

A static member of a class belongs to the companion of the class. `Member.LeadsTo` follows a member
to the place where it is added, so that nothing has to be said of static members here.
-/

set_option autoImplicit false

namespace Facade

/-! ### Parameters that may be left out -/

namespace Parameter

/-- The last parameters, so many of them, may be left out, and the one before them may not. -/
def LastOptional (parameters : List Parameter) (count : Nat) : Prop :=
  ∃ front back, parameters = front ++ back ∧ back.length = count
    ∧ (∀ parameter ∈ back, parameter.optional = true)
    ∧ ∀ last ∈ front.getLast?, last.optional = false

/-- The lists of parameters of the methods that take these parameters or leave out some of the last
ones. -/
structure Expands (parameters : List Parameter) (count : Nat)
    (lists : List (List MethodParameter)) : Prop where
  /-- There is one list of each length, the shortest first. -/
  lengths : lists.map List.length = List.range' (parameters.length - count) (count + 1)
  /-- Each has the first parameters, with the counterparts of their types. -/
  first : ∀ list ∈ lists, list.map (fun parameter => (parameter.name, parameter.type))
    = (parameters.take list.length).map
        fun parameter => (⟨parameter.name⟩, (toScalaOrAny parameter.type).value)
  /-- Where some are left out, all that are there have to be passed. -/
  short : ∀ list ∈ lists, list.length < parameters.length →
    ∀ parameter ∈ list, parameter.optional = false
  /-- Where none is left out, they are as they were declared. -/
  full : ∀ list ∈ lists, list.length = parameters.length →
    list.map (·.optional) = parameters.map (·.optional)

/-- The last parameters that may be left out are the optional tail of those of a method. -/
theorem length_takeWhile_optional {parameters : List Parameter} {count : Nat}
    (h : LastOptional parameters count) :
    MethodParameter.optionalTail (parameters.map toMethod) = count := by
  obtain ⟨front, back, rfl, rfl, hback, hfront⟩ := h
  -- Counted from the end, the run stops at the last parameter of the front.
  have hstop : (front.reverse.map toMethod).takeWhile (·.optional) = [] := by
    rcases front.eq_nil_or_concat' with rfl | ⟨front, last, rfl⟩
    · rfl
    · have hlast : last.optional = false := hfront last (by simp)
      simp [toMethod, hlast]
  rw [MethodParameter.optionalTail, ← List.map_reverse, List.reverse_append, List.map_append,
    List.takeWhile_append_of_pos, hstop, List.append_nil, List.length_map, List.length_reverse]
  refine List.forall_mem_map.mpr fun parameter hin => ?_
  exact hback parameter (List.mem_reverse.mp hin)

end Parameter

/-- The lists of parameters of a signature, where it is known how many may be left out. -/
theorem Signature.parameterLists_eq {signature : Signature} {count : Nat}
    (h : Parameter.LastOptional signature.parameters count) :
    signature.parameterLists
      = (List.range count).map (fun more =>
          (signature.parameters.take (signature.parameters.length - count + more)).map
            fun parameter => parameter.toMethod.mandatory)
        ++ [signature.parameters.map Parameter.toMethod] := by
  rw [parameterLists, Parameter.value_toMethods, MethodParameter.alternatives,
    Parameter.length_takeWhile_optional h]
  simp [← List.map_take]

/-- No more parameters may be left out than there are. -/
theorem Parameter.LastOptional.le {parameters : List Parameter} {count : Nat}
    (h : LastOptional parameters count) : count ≤ parameters.length := by
  obtain ⟨front, back, rfl, rfl, -⟩ := h
  simp

/-- The lists of parameters of a signature are what its parameters expand to. -/
theorem Signature.expands_parameterLists {signature : Signature} {count : Nat}
    (h : Parameter.LastOptional signature.parameters count) :
    Parameter.Expands signature.parameters count signature.parameterLists := by
  have hle := h.le
  -- A list leaves out some parameters, or it is the full list.
  have hcases : ∀ list ∈ signature.parameterLists,
      (∃ more < count, list =
        (signature.parameters.take (signature.parameters.length - count + more)).map
          fun parameter => parameter.toMethod.mandatory)
      ∨ list = signature.parameters.map Parameter.toMethod := by
    intro list hlist
    rw [parameterLists_eq h] at hlist
    rcases List.mem_append.mp hlist with hin | hin
    · obtain ⟨more, hmore, rfl⟩ := List.mem_map.mp hin
      exact .inl ⟨more, List.mem_range.mp hmore, rfl⟩
    · exact .inr (List.mem_singleton.mp hin)
  have htake : ∀ more < count, (signature.parameters.take
      (signature.parameters.length - count + more)).length
        = signature.parameters.length - count + more := by
    intro more hmore
    rw [List.length_take]
    omega
  refine ⟨?_, fun list hlist => ?_, fun list hlist hshort => ?_, fun list hlist hfull => ?_⟩
  · have hlengths : (List.range count).map (List.length ∘ fun more =>
        (signature.parameters.take (signature.parameters.length - count + more)).map
          fun parameter => parameter.toMethod.mandatory)
        = List.range' (signature.parameters.length - count) count := by
      rw [List.range'_eq_map_range]
      refine List.map_congr_left fun more hmore => ?_
      rw [Function.comp_apply, List.length_map, htake more (List.mem_range.mp hmore)]
    have hlast : signature.parameters.length - count + 1 * count = signature.parameters.length := by
      omega
    rw [parameterLists_eq h, List.map_append, List.map_map, hlengths, List.range'_concat, hlast,
      List.map_singleton, List.length_map]
  · rcases hcases list hlist with ⟨more, hmore, rfl⟩ | rfl
    · rw [List.length_map, htake more hmore, List.map_map]
      rfl
    · rw [List.length_map, List.take_length, List.map_map]
      rfl
  · rcases hcases list hlist with ⟨more, -, rfl⟩ | rfl
    · exact List.forall_mem_map.mpr fun _ _ => rfl
    · simp at hshort
  · rcases hcases list hlist with ⟨more, hmore, rfl⟩ | rfl
    · rw [List.length_map, htake more hmore] at hfull
      omega
    · rw [List.map_map]
      rfl

/-! ### Where a member is added -/

/-- A holder of members, at an index of a body. -/
structure Spot where
  holder : Holder
  owner : Nat
  body : Body

namespace Spot

/-- The body of the definition at the index. -/
def inner? (spot : Spot) : Option Body :=
  (spot.body.get? spot.owner).bind Definition.body?

end Spot

/-- Adds the definitions of a member at a spot. -/
def Member.addAt (spot : Spot) (later : List Declaration) (member : Member) : Noted Body :=
  member.addTo spot.holder spot.owner later spot.body

/-- To add the member at a spot is to add another at a spot that may be another one: the member
inside of a static one, at the companion if the holder is a class. -/
inductive Member.LeadsTo : Spot → Member → Spot → Member → Prop where
  | self (spot : Spot) (member : Member) : LeadsTo spot member spot member
  | companion {owner : Nat} {body : Body} {name : Identifier} {inner member : Member}
      {final : Spot} :
      (body.get? owner).bind Definition.name? = some name →
      LeadsTo ⟨.ofObject, (body.openObject name).1, (body.openObject name).2⟩ inner final member →
      LeadsTo ⟨.ofClass, owner, body⟩ (.static inner) final member
  | within {spot final : Spot} {inner member : Member} :
      spot.holder ≠ .ofClass → LeadsTo spot inner final member →
      LeadsTo spot (.static inner) final member

/-- To add a member where it leads to is to add it. -/
theorem Member.LeadsTo.addAt_eq {spot final : Spot} {member finalMember : Member}
    (h : member.LeadsTo spot final finalMember) (later : List Declaration) :
    member.addAt spot later = finalMember.addAt final later := by
  induction h with
  | self => rfl
  | companion hname _ ih =>
    rw [← ih, addAt, addTo, if_pos rfl, hname]
    rfl
  | within hholder _ ih =>
    rw [← ih, addAt, addTo, if_neg hholder]
    rfl

/-! ### The methods of a signature -/

namespace Body

/-- The body with methods at the end. -/
def withMethods (body : Body) (overloads : Overloads) : Body :=
  { body with items := body.items ++ overloads.methods.map .method }

end Body

namespace Signature

/-- The losses of the types of the parameters, in order. -/
def parameterWarnings (signature : Signature) : List Warning :=
  signature.parameters.flatMap fun parameter => (toScalaOrAny parameter.type).warnings

/-- The losses of a signature that is called. -/
def callWarnings (signature : Signature) : List Warning :=
  signature.parameterWarnings ++ (toScalaOrDynamic signature.result).warnings

/-- The losses of a signature that constructs a class of a name. -/
def constructWarnings (signature : Signature) (name : Identifier) : List Warning :=
  (if signature.typeParameters.isEmpty then [] else [.genericConstructor name])
    ++ signature.parameterWarnings

end Signature

/-- The parameters of a signature lose what their types lose, in order. -/
theorem Parameter.warnings_toMethods (parameters : List Parameter) :
    (toMethods parameters).warnings
      = parameters.flatMap fun parameter => (toScalaOrAny parameter.type).warnings := by
  induction parameters with
  | nil => rfl
  | cons parameter rest ih =>
    rw [List.flatMap_cons, ← ih, toMethods]
    simp

/-- To add the methods of a signature puts its overloads at the end, and notes its losses once. -/
theorem Body.addMethods_expanded (body : Body) (name : Identifier) (signature : Signature) :
    body.addMethods name signature
      = ⟨body.withMethods (signature.overloads name), signature.callWarnings⟩ := by
  rw [addMethods_eq, Signature.callWarnings, Signature.parameterWarnings,
    ← Parameter.warnings_toMethods]
  congr 1
  · simp [withMethods, enter, Entry.ofSignature, Entry.definitions, Entry.isNameless,
      Overloads.methods, Signature.overloads, Signature.parameterLists]
  · simp [Entry.ofSignature]

/-- The constructors of a signature are entered at the end of the class. -/
theorem ClassDefinition.withConstructors_eq (definition : ClassDefinition) (name : Identifier)
    (signature : Signature) :
    definition.withConstructors (constructorAlternatives name signature).value
      = { definition with
          isTrait := false
          body := definition.body.withMethods signature.constructors } := by
  rw [withConstructors, constructorAlternatives_eq]
  simp [Body.withMethods, Body.enter, Entry.definitions, Entry.isNameless, Overloads.methods,
    Signature.constructors]

/-- The constructors of a signature lose its type parameters and what its parameters lose. -/
theorem warnings_constructorAlternatives (name : Identifier) (signature : Signature) :
    (constructorAlternatives name signature).warnings = signature.constructWarnings name := by
  unfold constructorAlternatives
  rw [Signature.constructWarnings, Signature.parameterWarnings, ← Parameter.warnings_toMethods]
  cases signature.typeParameters.isEmpty <;> simp [Noted.warn]

/-- To add constructors puts them at the end of a class, which is no trait any more, and notes their
losses once. -/
theorem ClassDefinition.addConstructors_expanded (definition : ClassDefinition)
    (signature : Signature) :
    definition.addConstructors signature
      = ⟨{ definition with
            isTrait := false
            body := definition.body.withMethods signature.constructors },
          signature.constructWarnings definition.name⟩ := by
  rw [addConstructors_eq, withConstructors_eq, warnings_constructorAlternatives]

/-! ### Expanded signatures -/

/-- The member makes constructors of the class that holds it. -/
inductive Member.Constructs : Member → Signature → Prop where
  | construct (signature : Signature) : Constructs (.construct signature) signature
  | method (optional : Bool) (signature : Signature) :
      Constructs (.method "constructor" optional signature) signature

/-- A signature becomes one method for every number of arguments, wherever it is added: all of them
at the end of one body, and with the losses of its types once. -/
structure Signature.Expanded (signature : Signature) (count : Nat) : Prop where
  lists : Parameter.Expands signature.parameters count signature.parameterLists
  function : ∀ (name : String) (later : List Declaration) (body : Body),
    (Declaration.function name signature).addTo later body
      = ⟨body.withMethods (signature.overloads ⟨name⟩), signature.callWarnings⟩
  call : ∀ {spot final : Spot} {member : Member} (later : List Declaration),
    member.LeadsTo spot final (.call signature) → final.inner?.isSome = true →
    member.addAt spot later
      = ⟨final.body.modify final.owner (Definition.mapBody fun inner =>
            inner.withMethods (signature.overloads .apply)), signature.callWarnings⟩
  /-- A method without a name gets one that is made up, and the same for all. -/
  method : ∀ {spot final : Spot} {member : Member} {word : String} {optional : Bool}
    (later : List Declaration), member.LeadsTo spot final (.method word optional signature) →
    ¬ (final.holder = .ofClass ∧ word = "constructor") → final.inner?.isSome = true →
    member.addAt spot later
      = ⟨final.body.modify final.owner (Definition.mapBody fun inner =>
            (inner.nameMember word).2.withMethods (signature.overloads (inner.nameMember word).1)),
          signature.callWarnings⟩
  constructor : ∀ {spot final : Spot} {member made : Member} {definition : ClassDefinition}
    (later : List Declaration), member.LeadsTo spot final made → final.holder = .ofClass →
    made.Constructs signature → final.body.class? final.owner = some definition →
    member.addAt spot later
      = ⟨final.body.modify final.owner (Definition.mapClass fun _ =>
            { definition with
              isTrait := false
              body := definition.body.withMethods signature.constructors }),
          signature.constructWarnings definition.name⟩
  /-- The companion of an object that constructs it gets the constructors. -/
  companion : ∀ {spot final : Spot} {member : Member} {object : ObjectDefinition}
    {later : List Declaration} {added : Noted Body},
    member.LeadsTo spot final (.construct signature) → final.holder = .ofObject →
    final.body.object? final.owner = some object →
    final.body.addCompanionConstructors? object.name signature later = some added →
    member.addAt spot later = added
      ∧ added.warnings = signature.constructWarnings object.name
      ∧ ∃ now, added.value.class? (final.body.openClass object.name).1 = some now
        ∧ now.body = (final.body.classOrNew object.name).body.withMethods signature.constructors

/-- What is added to the body of a holder is added there, and its losses are noted once. -/
theorem Body.inBody_expanded {spot : Spot} (hinner : spot.inner?.isSome = true)
    {f : Body → Noted Body} {g : Body → Body} {warnings : List Warning}
    (hf : ∀ inner, f inner = ⟨g inner, warnings⟩) :
    spot.body.inBody spot.owner f
      = ⟨spot.body.modify spot.owner (Definition.mapBody g), warnings⟩ := by
  obtain ⟨inner, hinner⟩ := Option.isSome_iff_exists.mp hinner
  obtain ⟨found, hd, hfound⟩ := Option.bind_eq_some_iff.mp hinner
  exact inBody_eq hd hfound (hf inner)

/-- So are constructors that are added to a class. -/
theorem Body.inClass_expanded {body : Body} {owner : Nat} {definition : ClassDefinition}
    (hd : body.class? owner = some definition) (signature : Signature) :
    (body.inClass owner fun definition => definition.addConstructors signature)
      = ⟨body.modify owner (Definition.mapClass fun _ =>
            { definition with
              isTrait := false
              body := definition.body.withMethods signature.constructors }),
          signature.constructWarnings definition.name⟩ := by
  simp only [inClass, hd, ClassDefinition.addConstructors_expanded]
  simp [bind, pure]

/-- So are constructors that go to the class of an object, be it there or new. -/
theorem Body.companion_expanded {body : Body} {name : Identifier} {signature : Signature}
    {later : List Declaration} {added : Noted Body}
    (hadded : body.addCompanionConstructors? name signature later = some added) :
    added.warnings = signature.constructWarnings name
      ∧ ∃ now, added.value.class? (body.openClass name).1 = some now
        ∧ now.body = (body.classOrNew name).body.withMethods signature.constructors := by
  rw [addCompanionConstructors?_eq, Option.ite_none_right_eq_some] at hadded
  obtain ⟨-, hadded⟩ := hadded
  cases hadded
  rw [Noted.bind_pure_eq]
  refine ⟨warnings_constructorAlternatives name signature,
    (ClassChange.adopt (body.headerOf name later)
      (constructorAlternatives name signature).value).apply (body.classOrNew name), ?_, ?_⟩
  · show class? (modify _ _ _) _ = _
    rw [class?, get?_modify, if_pos rfl, get?_of_class? (body.openClass_class? name)]
    rfl
  · rw [ClassChange.apply, ClassDefinition.withConstructors_eq]
    rfl

/-- A signature of which some of the last parameters may be left out, and no more, is expanded by
so many. -/
theorem signature_expanded {signature : Signature} {count : Nat}
    (h : Parameter.LastOptional signature.parameters count) : signature.Expanded count where
  lists := Signature.expands_parameterLists h
  function name later body := by
    rw [Declaration.addTo]
    exact body.addMethods_expanded ⟨name⟩ signature
  call later hleads hinner := by
    rw [hleads.addAt_eq]
    exact Body.inBody_expanded hinner fun inner => inner.addMethods_expanded .apply signature
  method {spot final member word optional} later hleads hconstructor hinner := by
    have hcondition : (final.holder = .ofClass && word == "constructor") = false := by
      simpa using hconstructor
    rw [hleads.addAt_eq, Member.addAt, Member.addTo, hcondition, if_neg Bool.false_ne_true]
    exact Body.inBody_expanded hinner fun inner =>
      (inner.nameMember word).2.addMethods_expanded (inner.nameMember word).1 signature
  constructor later hleads hholder hmade hd := by
    rw [hleads.addAt_eq, Member.addAt, hholder]
    cases hmade with
    | construct => exact Body.inClass_expanded hd signature
    | method optional => exact Body.inClass_expanded hd signature
  companion {spot final member object later added} hleads hholder hobject hadded := by
    refine ⟨?_, Body.companion_expanded hadded⟩
    rw [hleads.addAt_eq, Member.addAt, hholder, Member.addTo]
    simp only [hobject, hadded, Option.getD_some]

/-- A signature with two parameters that may be left out at the end, and one before a parameter that
may not. -/
def twoAtTheEnd : Signature where
  typeParameters := []
  parameters := [⟨"a", true, some (.primitive .number)⟩, ⟨"b", false, some (.primitive .string)⟩,
    ⟨"c", true, some (.object [])⟩, ⟨"d", true, none⟩]
  result := some (.primitive .void)

/-- A function of that signature becomes three methods, and the type of `c` is lost once. -/
theorem signature_expanded_two :
    Parameter.LastOptional twoAtTheEnd.parameters 2
      ∧ twoAtTheEnd.parameterLists.map List.length = [2, 3, 4]
      ∧ (Declaration.function "f" twoAtTheEnd).addTo [] .empty
        = ⟨⟨[.method ⟨⟨"f"⟩, [], [⟨⟨"a"⟩, .number, false⟩, ⟨⟨"b"⟩, .string, false⟩], .unit⟩,
            .method ⟨⟨"f"⟩, [], [⟨⟨"a"⟩, .number, false⟩, ⟨⟨"b"⟩, .string, false⟩,
              ⟨⟨"c"⟩, .any, false⟩], .unit⟩,
            .method ⟨⟨"f"⟩, [], [⟨⟨"a"⟩, .number, true⟩, ⟨⟨"b"⟩, .string, false⟩,
              ⟨⟨"c"⟩, .any, true⟩, ⟨⟨"d"⟩, .any, true⟩], .unit⟩], 0⟩,
          [.widened (.object [])]⟩ := by
  have hlast : Parameter.LastOptional twoAtTheEnd.parameters 2 :=
    ⟨[_, _], [_, _], rfl, rfl, by decide, by decide⟩
  have hexpanded := signature_expanded hlast
  exact ⟨hlast, hexpanded.lists.lengths, hexpanded.function "f" [] .empty⟩

end Facade
