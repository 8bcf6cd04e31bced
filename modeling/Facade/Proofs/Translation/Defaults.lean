import Facade.Definition.Render
import Facade.Proofs.Translation.Provenance

/-!
# Defaults among overloads

Scala accepts one alternative with defaults among the methods of a name. The methods of a signature
keep to that: all but the last of them have mandatory parameters only (`eq_of_mem_alternatives`).
The methods of a name need not, because more than one signature may have that name.
`overloads_defaults` is what holds of them: they fall into the methods of one signature after the
other, and each of these groups has one method with a default at most.
-/

set_option autoImplicit false

namespace Facade

namespace MethodParameter

/-- Mandatory parameters have no default. -/
theorem any_hasDefault_mandatory (parameters : List MethodParameter) :
    (parameters.map mandatory).any hasDefault = false := by
  rw [List.any_map]
  exact List.any_eq_false.mpr fun _ _ => Bool.false_ne_true

/-- Of the alternatives, only the full list of parameters may have a default. -/
theorem eq_of_mem_alternatives {parameters alternative : List MethodParameter}
    (h : alternative ∈ alternatives parameters) (hdefault : alternative.any hasDefault = true) :
    alternative = parameters := by
  rcases List.mem_append.mp h with hin | hin
  · obtain ⟨_, -, rfl⟩ := List.mem_map.mp hin
    cases (any_hasDefault_mandatory _).symm.trans hdefault
  · exact List.mem_singleton.mp hin

/-- One list of the alternatives has a default at most. -/
theorem countP_alternatives_le_one (parameters : List MethodParameter) :
    (alternatives parameters).countP (·.any hasDefault) ≤ 1 := by
  have hshort : ∀ tail : List Nat,
      (tail.map fun more => (parameters.take
        (parameters.length - optionalTail parameters + more)).map mandatory).countP
          (·.any hasDefault) = 0 := by
    intro tail
    refine List.countP_eq_zero.mpr fun alternative halternative => ?_
    obtain ⟨_, -, rfl⟩ := List.mem_map.mp halternative
    exact Bool.eq_false_iff.mp (any_hasDefault_mandatory _)
  rw [alternatives, List.countP_append, hshort, Nat.zero_add]
  exact List.countP_le_length

end MethodParameter

/-- Whether a parameter of the method is written with a default. -/
def Method.hasDefault (method : Method) : Bool :=
  method.parameters.any MethodParameter.hasDefault

/-- The methods of overloads have one name. -/
theorem Overloads.filter_methods (overloads : Overloads) (name : Identifier) :
    overloads.methods.filter (·.name = name)
      = if overloads.name = name then overloads.methods else [] := by
  have hname : ∀ method ∈ overloads.methods, method.name = overloads.name := by
    intro method hmethod
    obtain ⟨parameters, -, rfl⟩ := List.mem_map.mp hmethod
    rfl
  split
  · rename_i heq
    exact List.filter_eq_self.mpr fun method hmethod =>
      decide_eq_true ((hname method hmethod).trans heq)
  · rename_i hne
    exact List.filter_eq_nil_iff.mpr fun method hmethod htrue =>
      hne ((hname method hmethod).symm.trans (of_decide_eq_true htrue))

/-- The methods of one name among those of overloads are those of the overloads of that name. -/
theorem Overloads.filter_flatMap_methods (all : List Overloads) (name : Identifier) :
    (all.flatMap methods).filter (·.name = name)
      = (all.filter (·.name = name)).flatMap methods := by
  induction all with
  | nil => rfl
  | cons overloads rest ih =>
    rw [List.flatMap_cons, List.filter_append, ih, filter_methods, List.filter_cons]
    by_cases heq : overloads.name = name <;> simp [heq]

/-- Of the methods of a signature of a document, one has a default at most. -/
theorem Overloads.Of.countP_hasDefault_le_one {declarations : List Declaration} {site : Site}
    {overloads : Overloads} (h : Of declarations site overloads) :
    overloads.methods.countP Method.hasDefault ≤ 1 := by
  have halternatives : ∃ parameters,
      overloads.alternatives = MethodParameter.alternatives parameters := by
    cases h <;> exact ⟨_, rfl⟩
  obtain ⟨parameters, heq⟩ := halternatives
  rw [Overloads.methods, List.countP_map, heq]
  exact MethodParameter.countP_alternatives_le_one parameters

/-- In every container of a facade, the methods of a name are those of some signatures of the
document, one signature after the other, and each signature has one method with a default at
most. -/
theorem overloads_defaults (document : Document) (path : DottedName) (container : Body)
    (hcontainer : (document.toPackage path).value.body.Contains container) (name : Identifier) :
    ∃ groups : List Overloads,
      container.methods.filter (·.name = name) = groups.flatMap Overloads.methods
        ∧ ∀ overloads ∈ groups, overloads.name = name
          ∧ (∃ site, Overloads.Of document.declarations site overloads)
          ∧ overloads.methods.countP Method.hasDefault ≤ 1 := by
  obtain ⟨site, hcomposed⟩ := hcontainer.composed (document.composed_toPackage path)
  obtain ⟨all, hmethods, hall⟩ := hcomposed.here
  refine ⟨all.filter (·.name = name), ?_, fun overloads hin => ?_⟩
  · rw [hmethods, Overloads.filter_flatMap_methods]
  · obtain ⟨hin, hname⟩ := List.mem_filter.mp hin
    have hof := hall overloads hin
    exact ⟨of_decide_eq_true hname, ⟨site, hof⟩, hof.countP_hasDefault_le_one⟩

/-- Two signatures of one name that both end in a parameter that may be left out. -/
def twoOptionals : Document where
  declarations := [.interface "I" [] []
    [.method "f" false ⟨[], [⟨"a", true, some (.primitive .number)⟩], some (.primitive .void)⟩,
      .method "f" false ⟨[], [⟨"b", true, some (.primitive .string)⟩], some (.primitive .void)⟩]]
  lost := []

/-- The body of the trait that stands for an interface with two such signatures. -/
def twoOptionalsBody : Body where
  items := [.method ⟨⟨"f"⟩, [], [], .unit⟩,
    .method ⟨⟨"f"⟩, [], [⟨⟨"a"⟩, .number, true⟩], .unit⟩,
    .method ⟨⟨"f"⟩, [], [], .unit⟩,
    .method ⟨⟨"f"⟩, [], [⟨⟨"b"⟩, .string, true⟩], .unit⟩]
  madeUp := 0

/-- The body is that of a container in the facade of that interface. -/
theorem contains_twoOptionals :
    (twoOptionals.toPackage .root).value.body.Contains twoOptionalsBody :=
  .inside (List.mem_singleton.mpr rfl) rfl (.self _)

/-- In the trait of two signatures of one name, two methods have a default. -/
theorem overloads_defaults_two :
    ∃ text document, Document.ofText text = .ok document ∧ ∃ container,
      (document.toPackage .root).value.body.Contains container
        ∧ ∃ name, (container.methods.filter (·.name = name)).countP Method.hasDefault = 2 := by
  refine ⟨"interface I \x7b f(a?: number): void; f(b?: string): void; \x7d", twoOptionals, ?_,
    twoOptionalsBody, contains_twoOptionals, ⟨"f"⟩, by decide⟩
  with_unfolding_all rfl

/-- They are in the groups of two signatures. -/
theorem overloads_defaults_groups :
    (twoOptionals.toPackage .root).value.body.Contains twoOptionalsBody
      ∧ ∃ groups : List Overloads,
        twoOptionalsBody.methods.filter (·.name = ⟨"f"⟩) = groups.flatMap Overloads.methods
          ∧ ∀ overloads ∈ groups, overloads.name = ⟨"f"⟩
            ∧ (∃ site, Overloads.Of twoOptionals.declarations site overloads)
            ∧ overloads.methods.countP Method.hasDefault ≤ 1 :=
  ⟨contains_twoOptionals,
    overloads_defaults twoOptionals .root twoOptionalsBody contains_twoOptionals ⟨"f"⟩⟩

end Facade
