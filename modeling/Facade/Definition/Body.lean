import Facade.Definition.Basic

/-!
# Bodies

A body only ever grows at its end, so an index into it means the same definition for good. Packages,
classes and objects are opened by their name: `openPackage`, `openClass` and `openObject` answer
with the index of the one that is there, or add it first. A class and an object of one name learn of
each other when the second of them is added.

`openClass_index` and its siblings say that the index leads to what was asked for.
-/

set_option autoImplicit false

namespace Facade

namespace Body

/-- The number of definitions, which is the index of the next one. -/
def size (body : Body) : Nat :=
  body.items.length

/-- The definition at an index. -/
def get? (body : Body) (index : Nat) : Option Definition :=
  body.items[index]?

/-- Adds a definition at the end. -/
def push (body : Body) (definition : Definition) : Body :=
  { body with items := body.items ++ [definition] }

/-- Changes the definition at an index. -/
def modify (body : Body) (index : Nat) (f : Definition → Definition) : Body :=
  { body with items := body.items.modify index f }

/-- The class at an index. -/
def class? (body : Body) (index : Nat) : Option ClassDefinition :=
  match body.get? index with
  | some (.class definition) => some definition
  | _ => none

/-- The object at an index. -/
def object? (body : Body) (index : Nat) : Option ObjectDefinition :=
  match body.get? index with
  | some (.object definition) => some definition
  | _ => none

/-- The index of the package of a name. -/
def packageIndex? (body : Body) (name : Identifier) : Option Nat :=
  body.items.findIdx? (Definition.isPackageNamed name)

/-- The index of the class of a name. -/
def classIndex? (body : Body) (name : Identifier) : Option Nat :=
  body.items.findIdx? (Definition.isClassNamed name)

/-- The index of the object of a name. -/
def objectIndex? (body : Body) (name : Identifier) : Option Nat :=
  body.items.findIdx? (Definition.isObjectNamed name)

/-- Makes up a name, a new one each time, from the number of names that were made up before. As
`Body.madeUp` says, that number has no bound here. -/
def makeUpName (body : Body) : Identifier × Body :=
  (⟨"anonymous$" ++ toString (body.madeUp + 1)⟩, { body with madeUp := body.madeUp + 1 })

/-- The index of the package of a name, which is added if it is not there. -/
def openPackage (body : Body) (name : Identifier) : Nat × Body :=
  match body.packageIndex? name with
  | some index => (index, body)
  | none => (body.size, body.push (.package (.named name)))

/-- The index of the class of a name, which is added if it is not there and then linked with the
object of that name. -/
def openClass (body : Body) (name : Identifier) : Nat × Body :=
  match body.classIndex? name with
  | some index => (index, body)
  | none =>
    let added := body.push (.class (.named name (body.objectIndex? name)))
    match body.objectIndex? name with
    | none => (body.size, added)
    | some object =>
      (body.size, added.modify object
        (Definition.mapObject fun definition => { definition with companion := some body.size }))

/-- The index of the object of a name, which is added if it is not there and then linked with the
class of that name. -/
def openObject (body : Body) (name : Identifier) : Nat × Body :=
  match body.objectIndex? name with
  | some index => (index, body)
  | none =>
    let added := body.push (.object (.named name (body.classIndex? name)))
    match body.classIndex? name with
    | none => (body.size, added)
    | some class_ =>
      (body.size, added.modify class_
        (Definition.mapClass fun definition => { definition with companion := some body.size }))

/-! ### What an index leads to -/

/-- What is put at the end stands there. -/
@[simp] theorem get?_push_size (body : Body) (definition : Definition) :
    (body.push definition).get? body.size = some definition := by
  simp [get?, push, size]

/-- Adding a definition leaves the others where they are. -/
theorem get?_push_of_lt {body : Body} {index : Nat} (h : index < body.size)
    (definition : Definition) : (body.push definition).get? index = body.get? index := by
  simp [get?, push, List.getElem?_append_left (show index < body.items.length from h)]

/-- Changing one definition leaves the others as they are. -/
theorem get?_modify_of_ne {body : Body} {index other : Nat} (h : other ≠ index)
    (f : Definition → Definition) : (body.modify other f).get? index = body.get? index := by
  simp [get?, modify, h]

/-- A class is found in front of the end. -/
theorem lt_size_of_classIndex? {body : Body} {name : Identifier} {index : Nat}
    (h : body.classIndex? name = some index) : index < body.size := by
  obtain ⟨hlt, _⟩ := List.findIdx?_eq_some_iff_getElem.mp h
  exact hlt

/-- So is an object. -/
theorem lt_size_of_objectIndex? {body : Body} {name : Identifier} {index : Nat}
    (h : body.objectIndex? name = some index) : index < body.size := by
  obtain ⟨hlt, _⟩ := List.findIdx?_eq_some_iff_getElem.mp h
  exact hlt

/-- A class that is opened is there, under its name. -/
theorem openClass_index (body : Body) (name : Identifier) :
    ∃ definition, (body.openClass name).2.get? (body.openClass name).1 = some (.class definition)
      ∧ definition.name = name := by
  unfold openClass
  split
  · rename_i index h
    obtain ⟨hlt, hp, _⟩ := List.findIdx?_eq_some_iff_getElem.mp h
    cases hd : body.items[index] with
    | «class» definition =>
      refine ⟨definition, ?_, ?_⟩
      · simp [get?, List.getElem?_eq_getElem hlt, hd]
      · simpa [Definition.isClassNamed, hd] using hp
    | _ => simp [Definition.isClassNamed, hd] at hp
  · dsimp only
    split
    · exact ⟨.named name _, get?_push_size _ _, rfl⟩
    · rename_i object h
      have hne : object ≠ body.size := Nat.ne_of_lt (lt_size_of_objectIndex? h)
      refine ⟨.named name (body.objectIndex? name), ?_, rfl⟩
      rw [get?_modify_of_ne hne, get?_push_size]

/-- An object that is opened is there, under its name. -/
theorem openObject_index (body : Body) (name : Identifier) :
    ∃ definition, (body.openObject name).2.get? (body.openObject name).1 = some (.object definition)
      ∧ definition.name = name := by
  unfold openObject
  split
  · rename_i index h
    obtain ⟨hlt, hp, _⟩ := List.findIdx?_eq_some_iff_getElem.mp h
    cases hd : body.items[index] with
    | object definition =>
      refine ⟨definition, ?_, ?_⟩
      · simp [get?, List.getElem?_eq_getElem hlt, hd]
      · simpa [Definition.isObjectNamed, hd] using hp
    | _ => simp [Definition.isObjectNamed, hd] at hp
  · dsimp only
    split
    · exact ⟨.named name _, get?_push_size _ _, rfl⟩
    · rename_i class_ h
      have hne : class_ ≠ body.size := Nat.ne_of_lt (lt_size_of_classIndex? h)
      refine ⟨.named name (body.classIndex? name), ?_, rfl⟩
      rw [get?_modify_of_ne hne, get?_push_size]

end Body

end Facade
