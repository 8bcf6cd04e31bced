import Facade.Definition.ScalaType

/-!
# The types inside of types

`ScalaType.inner` lists the types inside of a type: its arguments, and those inside of them. What is
asked `Throughout` a type is asked of the type itself and of all of these.
-/

set_option autoImplicit false

namespace Facade

namespace ScalaType

mutual

/-- The types inside of a type, at any depth. -/
def inner : ScalaType → List ScalaType
  | ⟨_, arguments⟩ => innerOf arguments

/-- The types of a list, and those inside of them. -/
def innerOf : List ScalaType → List ScalaType
  | [] => []
  | type :: rest => type :: (type.inner ++ innerOf rest)

end

/-- A condition holds of a type and of all inside of it. -/
def Throughout (good : ScalaType → Prop) (type : ScalaType) : Prop :=
  good type ∧ ∀ part ∈ type.inner, good part

variable {good : ScalaType → Prop}

/-- What stands inside of several types is good if each of them is so throughout. -/
theorem forall_mem_innerOf {types : List ScalaType} :
    (∀ part ∈ innerOf types, good part) ↔ ∀ type ∈ types, type.Throughout good := by
  induction types with
  | nil => simp [innerOf]
  | cons type rest ih =>
    rw [innerOf, List.forall_mem_cons, List.forall_mem_append, ih, List.forall_mem_cons, Throughout,
      and_assoc]

/-- Inside of an applied path are its arguments. -/
theorem forall_mem_inner {name : DottedName} {arguments : List ScalaType}
    (h : ∀ type ∈ arguments, type.Throughout good) :
    ∀ part ∈ (⟨name, arguments⟩ : ScalaType).inner, good part := by
  rw [inner]
  exact forall_mem_innerOf.mpr h

/-- A type is good throughout if it is good and its arguments are so throughout. -/
theorem throughout_iff {type : ScalaType} :
    type.Throughout good ↔ good type ∧ ∀ argument ∈ type.arguments, argument.Throughout good := by
  obtain ⟨name, arguments⟩ := type
  rw [Throughout, inner, forall_mem_innerOf]

end ScalaType

end Facade
