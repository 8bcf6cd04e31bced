import Facade.Proofs.Declaration.Contents
import Facade.Proofs.Translation.Imports

/-!
# Blocks of a namespace

A namespace may be opened in several blocks, and its path may be written with dots or as namespaces
inside each other. Neither matters to the facade: `namespaces_compose`.

To open packages and to fill them twice is to fill them once with both (`inPackages_bind`), and a
path may be gone down name by name (`inPackages_inside`). What is left is that a declaration sees
more of those that come later if two blocks become one. It looks there for one thing only, the
header of the class that its construct signatures make (`addTo_congr`), so `addDeclarations_append`
asks that the second block has no such class.

Both statements are about a few declarations somewhere in a document. `Interchangeable` says what
such declarations have to agree in, and `Interchangeable.fill` puts anything around them.
-/

set_option autoImplicit false

namespace Facade

namespace Noted

variable {α β γ : Type}

/-- A value in front of a computation is handed to it. -/
theorem pure_bind (value : α) (next : α → Noted β) : pure value >>= next = next value := rfl

/-- A value behind a computation is that of the computation. -/
theorem bind_pure (first : Noted α) : first >>= pure = first :=
  congrArg (Noted.mk first.value) (List.append_nil _)

/-- How computations in a row are grouped does not matter. -/
theorem bind_assoc (first : Noted α) (next : α → Noted β) (last : β → Noted γ) :
    first >>= next >>= last = first >>= fun value => next value >>= last :=
  congrArg (Noted.mk (last (next first.value).value).value) (List.append_assoc _ _ _)

end Noted

namespace Body

/-! ### Filling packages twice -/

/-- A package that was filled is found where it was opened. -/
theorem openPackage_fillPackage (body : Body) (name : Identifier) (isNamespace : Bool)
    (inner : Body) : (body.fillPackage name isNamespace inner).openPackage name
      = ((body.openPackage name).1, body.fillPackage name isNamespace inner) := by
  have hlabels : (body.fillPackage name isNamespace inner).labels
      = (body.openPackage name).2.labels :=
    labels_modify fun definition _ => label_mapPackage (by simp) definition
  have hfound : (body.fillPackage name isNamespace inner).indexOf? ⟨.package, some name⟩
      = some (body.openPackage name).1 := by
    rw [indexOf?_of_labels_eq hlabels]
    exact (body.opens_openPackage name).indexOf?
  rw [openPackage_eq, hfound]

/-- What a package is filled with last is what it has. -/
theorem fillPackage_fillPackage (body : Body) (name : Identifier) (isNamespace : Bool)
    (inner last : Body) :
    (body.fillPackage name isNamespace inner).fillPackage name isNamespace last
      = body.fillPackage name isNamespace last := by
  have hboth : ∀ definition : Definition,
      (definition.mapPackage fun package => { package with
        isNamespace := package.isNamespace || isNamespace, body := inner }).mapPackage
          (fun package => { package with
            isNamespace := package.isNamespace || isNamespace, body := last })
      = definition.mapPackage fun package => { package with
          isNamespace := package.isNamespace || isNamespace, body := last } := by
    intro definition
    cases definition <;> simp [Definition.mapPackage]
  rw [fillPackage, openPackage_fillPackage]
  show modify (modify _ _ _) _ _ = modify _ _ _
  rw [modify, modify, modify, List.modify_modify_eq, show _ ∘ _ = _ from funext hboth]

/-- To fill the packages of a path and to fill them again is to fill them with both. -/
theorem inPackages_bind (f g : Body → Noted Body) (isNamespace : Bool) (path : List Identifier)
    (body : Body) : (body.inPackages isNamespace f path >>= fun filled =>
        filled.inPackages isNamespace g path)
      = body.inPackages isNamespace (fun inner => f inner >>= g) path := by
  induction path generalizing body with
  | nil => simp only [inPackages_nil]
  | cons name rest ih =>
    -- The package is found again, with what it was filled with first.
    have hagain : ∀ inner, ((body.fillPackage name isNamespace inner).packageOrNew name).body
        = inner := by
      intro inner
      rw [packageOrNew_fillPackage, if_pos rfl]
    rw [inPackages_cons, inPackages_cons _ (fun inner => f inner >>= g), ← ih]
    show (⟨(inPackages isNamespace g (name :: rest) _).value,
      _ ++ (inPackages isNamespace g (name :: rest) _).warnings⟩ : Noted Body) = _
    rw [inPackages_cons, hagain, fillPackage_fillPackage]
    rfl

/-- To go down a path is to go to its first package, and from there down the others. -/
theorem inPackages_inside (f : Body → Noted Body) (isNamespace : Bool) (name : Identifier)
    (rest : List Identifier) (body : Body) : body.inPackages isNamespace f (name :: rest)
      = body.inPackages isNamespace (fun inner => inner.inPackages isNamespace f rest) [name] := by
  rw [inPackages_cons, inPackages_cons, inPackages_nil]

end Body

/-! ### Declarations that come later -/

/-- A declaration asks those that come later for the header of the class of an object, and for
nothing else. -/
theorem Declaration.addTo_congr (declaration : Declaration) {later later' : List Declaration}
    (h : ∀ name ∈ declaration.objectName?, later.findSome? (headerOf? ⟨name⟩)
      = later'.findSome? (headerOf? ⟨name⟩)) (body : Body) :
    declaration.addTo later body = declaration.addTo later' body := by
  cases declaration with
  | «variable» name type =>
    rcases type with - | type
    · rw [addTo, addTo] <;> simp
    · cases type with
      | object members =>
        rw [addTo_eq _ later body rfl, addTo_eq _ later' body rfl]
        simp only [ownParameters, Body.headerOf_eq, h name rfl]
      | _ => rw [addTo, addTo] <;> simp
  | «namespace» path declarations => rw [addTo, addTo]
  | _ =>
    rw [addTo_eq _ later body rfl, addTo_eq _ later' body rfl]
    simp only [ownParameters]

/-- To add declarations and then others is to add them all, if no object among the first needs the
header of a class among the others. -/
theorem addDeclarations_append {first second : List Declaration}
    (h : ∀ declaration ∈ first, ∀ name ∈ declaration.objectName?,
      ∀ other ∈ second, other.className? ≠ some name) (body : Body) :
    addDeclarations (first ++ second) body
      = addDeclarations first body >>= addDeclarations second := by
  induction first generalizing body with
  | nil =>
    rw [addDeclarations, Noted.pure_bind]
    rfl
  | cons declaration rest ih =>
    rw [List.forall_mem_cons] at h
    have hlater : ∀ name ∈ declaration.objectName?,
        (rest ++ second).findSome? (Declaration.headerOf? ⟨name⟩)
          = rest.findSome? (Declaration.headerOf? ⟨name⟩) := by
      intro name hname
      have hnone : second.findSome? (Declaration.headerOf? ⟨name⟩) = none :=
        List.findSome?_eq_none_iff.mpr fun other hother =>
          Declaration.headerOf?_eq_none (h.1 name hname other hother)
      rw [List.findSome?_append, hnone, Option.or_none]
    rw [List.cons_append, addDeclarations, addDeclarations, declaration.addTo_congr hlater,
      Noted.bind_assoc]
    exact congrArg _ (funext fun after => ih h.2 after)

/-! ### Declarations in their surroundings -/

/-- Two lists of declarations that may stand for each other, whatever comes in front of them and
behind them. -/
structure Interchangeable (block block' : List Declaration) : Prop where
  /-- They do the same to any body. -/
  effect : ∀ after body,
    addDeclarations (block ++ after) body = addDeclarations (block' ++ after) body
  /-- Those in front of them find the same headers. -/
  headers : ∀ name, block.findSome? (Declaration.headerOf? name)
    = block'.findSome? (Declaration.headerOf? name)

/-- Declarations around a place among them, in one list or inside a namespace of it, at any
depth. -/
inductive Surroundings where
  | list (before after : List Declaration)
  | inside (before : List Declaration) (path : List String) (inner : Surroundings)
      (after : List Declaration)

/-- Puts declarations into the place. -/
def Surroundings.fill : Surroundings → List Declaration → List Declaration
  | .list before after, block => before ++ (block ++ after)
  | .inside before path inner after, block =>
    before ++ ([.namespace path (inner.fill block)] ++ after)

namespace Interchangeable

variable {block block' : List Declaration}

/-- Declarations that may stand for each other may do so between others. -/
theorem between (h : Interchangeable block block') (before after : List Declaration) :
    Interchangeable (before ++ (block ++ after)) (before ++ (block' ++ after)) := by
  have hheaders : ∀ (before more : List Declaration) name,
      (before ++ (block ++ more)).findSome? (Declaration.headerOf? name)
        = (before ++ (block' ++ more)).findSome? (Declaration.headerOf? name) := by
    intro before more name
    simp only [List.findSome?_append, h.headers]
  refine ⟨fun more body => ?_, hheaders before after⟩
  simp only [List.append_assoc]
  induction before generalizing body with
  | nil => exact h.effect (after ++ more) body
  | cons declaration rest ih =>
    rw [List.cons_append, List.cons_append, addDeclarations, addDeclarations,
      declaration.addTo_congr fun name _ => hheaders rest (after ++ more) ⟨name⟩]
    exact congrArg _ (funext ih)

/-- With nothing behind them, they are added alike. -/
theorem addDeclarations_eq (h : Interchangeable block block') :
    addDeclarations block = addDeclarations block' := by
  funext body
  have heffect := h.effect [] body
  rwa [List.append_nil, List.append_nil] at heffect

/-- The contents of a namespace may be exchanged. -/
theorem inNamespace (h : Interchangeable block block') (path : List String) :
    Interchangeable [.namespace path block] [.namespace path block'] := by
  refine ⟨fun after body => ?_, fun name => rfl⟩
  simp only [List.singleton_append, addDeclarations, Declaration.addTo, h.addDeclarations_eq]

/-- They may stand for each other inside of namespaces as well. -/
theorem fill (h : Interchangeable block block') (surroundings : Surroundings) :
    Interchangeable (surroundings.fill block) (surroundings.fill block') := by
  induction surroundings with
  | list before after => exact h.between before after
  | inside before path inner after ih => exact (ih.inNamespace path).between before after

/-- Documents of one or the other have the same facade. -/
theorem toPackage_eq (h : Interchangeable block block') (lost : List LostRest) (path : DottedName) :
    Document.toPackage ⟨block, lost⟩ path = Document.toPackage ⟨block', lost⟩ path := by
  rw [Document.toPackage, Document.toPackage, h.addDeclarations_eq]

end Interchangeable

/-! ### Blocks -/

/-- Namespaces inside each other, one for each name of a path, around declarations. -/
def Declaration.nestedNamespaces (name : String) : List String → List Declaration → Declaration
  | [], inner => .namespace [name] inner
  | next :: rest, inner => .namespace [name] [nestedNamespaces next rest inner]

/-- A path with dots is a namespace for each of its names. -/
theorem addTo_nestedNamespaces (name : String) (rest : List String) (inner : List Declaration)
    (later : List Declaration) (body : Body) :
    (Declaration.nestedNamespaces name rest inner).addTo later body
      = (Declaration.namespace (name :: rest) inner).addTo later body := by
  induction rest generalizing name later body with
  | nil => rfl
  | cons next rest ih =>
    have hinner : addDeclarations [Declaration.nestedNamespaces next rest inner]
        = fun body => body.inPackages true (addDeclarations inner)
            ((next :: rest).map Identifier.mk) := by
      funext body
      rw [addDeclarations, ih next [] body, Declaration.addTo]
      exact Noted.bind_pure _
    rw [Declaration.nestedNamespaces, Declaration.addTo, Declaration.addTo, hinner]
    exact (Body.inPackages_inside _ true ⟨name⟩ _ body).symm

/-- A path of names with dots may stand for namespaces inside each other. -/
theorem interchangeable_nested (name : String) (rest : List String) (inner : List Declaration) :
    Interchangeable [.namespace (name :: rest) inner]
      [Declaration.nestedNamespaces name rest inner] := by
  refine ⟨fun after body => ?_, fun identifier => ?_⟩
  · simp only [List.singleton_append, addDeclarations, addTo_nestedNamespaces]
  · cases rest <;> rfl

/-- Two blocks of one namespace are one block, if no object of the first needs the header of a class
of the second. -/
theorem interchangeable_blocks {first second : List Declaration}
    (h : ∀ declaration ∈ first, ∀ name ∈ declaration.objectName?,
      ∀ other ∈ second, other.className? ≠ some name) (path : List String) :
    Interchangeable [.namespace path first, .namespace path second]
      [.namespace path (first ++ second)] := by
  have hboth : addDeclarations (first ++ second)
      = fun body => addDeclarations first body >>= addDeclarations second :=
    funext (addDeclarations_append h)
  refine ⟨fun after body => ?_, fun name => rfl⟩
  simp only [List.cons_append, List.nil_append, addDeclarations, Declaration.addTo]
  rw [hboth, ← Body.inPackages_bind, Noted.bind_assoc]

/-- Anywhere in a document and under any output path, a namespace whose path has dots makes the
facade and the warnings that namespaces inside each other make, and so do two consecutive blocks of
one namespace and the one block with the declarations of both. For the second, no variable of an
object type in the first block may have the name of an interface, a class or an alias of an object
type in the second. -/
theorem namespaces_compose (surroundings : Surroundings) (lost : List LostRest)
    (output : DottedName) :
    (∀ name rest inner,
      Document.toPackage ⟨surroundings.fill [.namespace (name :: rest) inner], lost⟩ output
        = Document.toPackage
            ⟨surroundings.fill [Declaration.nestedNamespaces name rest inner], lost⟩ output)
      ∧ ∀ path first second,
        (∀ declaration ∈ first, ∀ name ∈ declaration.objectName?,
          ∀ other ∈ second, other.className? ≠ some name) →
        Document.toPackage
            ⟨surroundings.fill [.namespace path first, .namespace path second], lost⟩ output
          = Document.toPackage ⟨surroundings.fill [.namespace path (first ++ second)], lost⟩
              output := by
  refine ⟨fun name rest inner => ?_, fun path first second h => ?_⟩
  · exact ((interchangeable_nested name rest inner).fill surroundings).toPackage_eq lost output
  · exact ((interchangeable_blocks h path).fill surroundings).toPackage_eq lost output

/-- A variable that constructs the class of its name, which has one type parameter. -/
def genericConstructor (name : String) : Declaration :=
  .variable name (some (.object [.construct ⟨[], [], some (.named [name] [.named ["T"] []])⟩]))

/-- An interface with one type parameter. -/
def genericInterface (name : String) : Declaration :=
  .interface name [⟨"T", none, none⟩] [] []

/-- Two blocks of a namespace inside another. The variable in the first finds its class there. -/
theorem namespaces_compose_blocks :
    (∀ declaration ∈ [genericConstructor "A", genericInterface "A"],
      ∀ name ∈ declaration.objectName?,
        ∀ other ∈ [genericInterface "B"], other.className? ≠ some name)
      ∧ Document.toPackage ⟨[.variable "v" none, .namespace ["n"] [
          .namespace ["p", "q"] [genericConstructor "A", genericInterface "A"],
          .namespace ["p", "q"] [genericInterface "B"], genericInterface "C"]], []⟩ (.ofText "out")
        = Document.toPackage ⟨[.variable "v" none, .namespace ["n"] [
          .namespace ["p", "q"]
            [genericConstructor "A", genericInterface "A", genericInterface "B"],
          genericInterface "C"]], []⟩ (.ofText "out") := by
  have h : ∀ declaration ∈ [genericConstructor "A", genericInterface "A"],
      ∀ name ∈ declaration.objectName?,
        ∀ other ∈ [genericInterface "B"], other.className? ≠ some name := by
    simp [genericConstructor, genericInterface, Declaration.objectName?, Declaration.className?]
  exact ⟨h, (namespaces_compose (.inside [.variable "v" none] ["n"]
    (.list [] [genericInterface "C"]) []) [] (.ofText "out")).2 ["p", "q"] _ _ h⟩

-- A class in the second block comes too late for a variable in the first, which becomes a comment.
example : (Document.toPackage ⟨[.namespace ["p"] [genericConstructor "A"],
      .namespace ["p"] [genericInterface "A"]], []⟩ .root).warnings.length = 1
    ∧ (Document.toPackage ⟨[.namespace ["p"] [genericConstructor "A", genericInterface "A"]], []⟩
      .root).warnings.length = 0 := by
  decide

end Facade
