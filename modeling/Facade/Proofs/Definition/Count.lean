import Facade.Proofs.Definition.Companions
import Mathlib.Algebra.BigOperators.Group.List.Basic
import Mathlib.Algebra.GroupWithZero.Nat

/-!
# How many definitions there are

`Body.count` is the number of definitions of a kind in a body and in the bodies inside it, at any
depth. It is a sum over the definitions of the body, and what holds of any such sum is said once, of
`Body.total`: adding a definition adds its measure (`total_push`), and changing a definition in
place takes away the old measure and adds the new one (`total_modify`).

Opening packages, classes and objects adds such definitions at most, so it never changes how many
comments, fields and methods there are (`Opens.count`).
-/

set_option autoImplicit false

namespace Facade

mutual

/-- The number of definitions of a kind in a definition, itself included. -/
def Definition.count (kind : Kind) : Definition → Nat
  | .comment _ => if kind = .comment then 1 else 0
  | .package definition => (if kind = .package then 1 else 0) + definition.count kind
  | .class definition => (if kind = .class then 1 else 0) + definition.count kind
  | .object definition => (if kind = .object then 1 else 0) + definition.count kind
  | .field _ => if kind = .field then 1 else 0
  | .method _ => if kind = .method then 1 else 0

/-- The number of definitions of a kind in a package. -/
def Package.count (kind : Kind) : Package → Nat
  | ⟨_, _, body⟩ => body.count kind

/-- The number of definitions of a kind in a class. -/
def ClassDefinition.count (kind : Kind) : ClassDefinition → Nat
  | ⟨_, _, _, _, _, body⟩ => body.count kind

/-- The number of definitions of a kind in an object. -/
def ObjectDefinition.count (kind : Kind) : ObjectDefinition → Nat
  | ⟨_, _, body⟩ => body.count kind

/-- The number of definitions of a kind in a body, at any depth. -/
def Body.count (kind : Kind) : Body → Nat
  | ⟨items, _⟩ => countAll kind items

/-- The number of definitions of a kind among some and in them. -/
def countAll (kind : Kind) : List Definition → Nat
  | [] => 0
  | definition :: rest => definition.count kind + countAll kind rest

end

/-- Definitions are counted one by one. -/
theorem countAll_eq (kind : Kind) (definitions : List Definition) :
    countAll kind definitions = (definitions.map (Definition.count kind)).sum := by
  induction definitions with
  | nil => rw [countAll]; rfl
  | cons definition rest ih => rw [countAll, ih, List.map_cons, List.sum_cons]

/-- A definition counts as one of its kind, and for what its body holds. -/
theorem Definition.count_eq (kind : Kind) (definition : Definition) :
    definition.count kind = (if kind = definition.kind then 1 else 0)
      + (definition.body?.map (Body.count kind)).getD 0 := by
  rcases definition with _ | ⟨_, _, _⟩ | ⟨_, _, _, _, _, _⟩ | ⟨_, _, _⟩ | _ | _
  · rw [count]; rfl
  · rw [count, Package.count]; rfl
  · rw [count, ClassDefinition.count]; rfl
  · rw [count, ObjectDefinition.count]; rfl
  · rw [count]; rfl
  · rw [count]; rfl

/-- What has the same kind and the same body counts the same. -/
theorem Definition.count_congr {first second : Definition} (hkind : first.kind = second.kind)
    (hbody : first.body? = second.body?) (kind : Kind) :
    first.count kind = second.count kind := by
  rw [count_eq, count_eq, hkind, hbody]

/-- A link is not counted. -/
theorem Definition.count_linkedTo (kind : Kind) (index : Nat) (definition : Definition) :
    (definition.linkedTo index).count kind = definition.count kind :=
  count_congr (by cases definition <;> rfl) (by cases definition <;> rfl) kind

/-- A container with an empty body counts for nothing but itself. -/
theorem Definition.count_of_empty {definition : Definition} {kind : Kind}
    (hempty : definition.body? = some .empty) (hkind : kind ≠ definition.kind) :
    definition.count kind = 0 := by
  rw [count_eq, if_neg hkind, hempty, Option.map_some, Option.getD_some, Body.empty, Body.count,
    countAll]

namespace Body

/-! ### What the definitions of a body amount to -/

section

variable {M : Type} [AddCancelCommMonoid M] {measure : Definition → M} {body : Body}

/-- What the definitions of a body amount to, each by some measure. -/
def total (measure : Definition → M) (body : Body) : M :=
  (body.items.map measure).sum

/-- A definition at the end adds its measure. -/
theorem total_push (body : Body) (definition : Definition) :
    (body.push definition).total measure = body.total measure + measure definition := by
  rw [total, total, push, List.map_append, List.sum_append, List.map_singleton,
    List.sum_singleton]

/-- A change in place takes the old measure away and adds the new one. -/
theorem total_modify {index : Nat} {definition : Definition}
    (hd : body.get? index = some definition) (f : Definition → Definition) :
    (body.modify index f).total measure + measure definition
      = body.total measure + measure (f definition) := by
  have hlist : ∀ (items : List Definition) (index : Nat), items[index]? = some definition →
      ((items.modify index f).map measure).sum + measure definition
        = (items.map measure).sum + measure (f definition) := by
    intro items
    induction items with
    | nil => intro index h; simp at h
    | cons first rest ih =>
      intro index h
      cases index with
      | zero =>
        cases h
        simp only [List.modify_zero_cons, List.map_cons, List.sum_cons]
        ac_rfl
      | succ index =>
        simp only [List.modify_succ_cons, List.map_cons, List.sum_cons]
        rw [add_assoc, ih index h, add_assoc]
  exact hlist body.items index hd

/-- A change in place that keeps the measure of the definition keeps the total. -/
theorem total_modify_of_eq {index : Nat} {f : Definition → Definition}
    (hf : ∀ definition, measure (f definition) = measure definition) :
    (body.modify index f).total measure = body.total measure := by
  cases hd : body.get? index with
  | none =>
    have hitems : (body.modify index f).items = body.items :=
      List.modify_eq_self (List.getElem?_eq_none_iff.mp hd)
    rw [total, total, hitems]
  | some definition =>
    have htotal : (body.modify index f).total measure + measure definition = _ :=
      total_modify hd f
    rw [hf definition] at htotal
    exact add_right_cancel htotal

/-- To enrol a definition adds its measure, if links do not count. -/
theorem total_enrol (hlink : ∀ index definition,
      measure (Definition.linkedTo index definition) = measure definition)
    (body : Body) (definition : Definition) :
    (body.enrol definition).total measure = body.total measure + measure definition := by
  unfold enrol
  split
  · exact body.total_push definition
  · rw [total_modify_of_eq (hlink _), total_push]

end

/-! ### Counts -/

variable {kind : Kind}

/-- The number of definitions of a kind is a sum over the definitions of the body. -/
theorem count_eq (kind : Kind) (body : Body) :
    body.count kind = body.total (Definition.count kind) := by
  cases body
  rw [count, countAll_eq]
  rfl

/-- To enrol a definition adds what is in it. -/
theorem count_enrol (body : Body) (definition : Definition) :
    (body.enrol definition).count kind = body.count kind + definition.count kind := by
  rw [count_eq, count_eq]
  exact total_enrol (fun index other => other.count_linkedTo kind index) body definition

/-- To enrol an empty container changes no count but that of its own kind. -/
theorem count_enrol_of_empty (body : Body) {definition : Definition}
    (hempty : definition.body? = some .empty) (hkind : kind ≠ definition.kind) :
    (body.enrol definition).count kind = body.count kind := by
  rw [count_enrol, Definition.count_of_empty hempty hkind, Nat.add_zero]

/-- To open something changes no count of leaves. -/
theorem Opens.count {body : Body} {fresh : Definition} {opened : Nat × Body}
    (h : body.Opens fresh opened) (hkind : kind.isLeaf = true) :
    opened.2.count kind = body.count kind := by
  cases h with
  | found _ => rfl
  | @added definition _ hempty _ _ =>
    refine body.count_enrol_of_empty hempty ?_
    rintro rfl
    cases definition <;> simp [Definition.body?] at hempty <;> cases hkind

/-- What the body of a container gains, the body around it gains. -/
theorem count_modify_body (kind : Kind) {body : Body} {index : Nat} {definition : Definition}
    {before : Body} (hd : body.get? index = some definition)
    (hbefore : definition.body? = some before) {f : Definition → Definition} {after : Body}
    (hkind : (f definition).kind = definition.kind)
    (hafter : (f definition).body? = some after) :
    (body.modify index f).count kind + before.count kind
      = body.count kind + after.count kind := by
  have hcount : (body.modify index f).total (Definition.count kind) + definition.count kind = _ :=
    total_modify hd f
  rw [← count_eq, ← count_eq, Definition.count_eq kind definition,
    Definition.count_eq kind (f definition), hkind, hbefore, hafter] at hcount
  simp only [Option.map_some, Option.getD_some] at hcount
  omega

end Body

end Facade
