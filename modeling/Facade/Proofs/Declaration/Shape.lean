import Facade.Proofs.Declaration.FormedDocument
import Facade.Proofs.Declaration.Printed.Written
import Facade.Proofs.Declaration.Unsupported
import Facade.Proofs.Definition.Identifier

/-!
# The shape of documents

What a translation may rely on in the declarations that it is given. Each clause is a check of its
own: where rest types stand, what function types lead to, how the operators of types nest, which
paths there are, and what `static` may be in front of. `Document.shaped_ofText` says that every
document that is read has this shape, at every node of every declaration.

The clauses follow from the shape that the reader keeps to while it reads (`formed`), which says
more than a translation has to know. Only the texts of statements that are kept as they are written
need the text of the file.
-/

set_option autoImplicit false

namespace Facade

open Reader

/-! ### The clauses -/

/-- The check that asks nothing. -/
def Check.nothing : Check where
  type _ := True
  signature _ := True
  typeParameter _ := True
  parameter _ := True
  member _ := True
  declaration _ := True

/-- No node but a parameter has a rest type right below it. -/
def restsAtParameters : Check where
  type
    | .named _ arguments => ∀ type ∈ arguments, type.isRepeated = false
    | .repeated element => element.isRepeated = false
    | .union types => ∀ type ∈ types, type.isRepeated = false
    | .intersection types => ∀ type ∈ types, type.isRepeated = false
    | .tuple types => ∀ type ∈ types, type.isRepeated = false
    | .parenthesized inner => inner.isRepeated = false
    | _ => True
  signature signature := NotRepeated signature.result
  typeParameter parameter := NotRepeated parameter.bound ∧ NotRepeated parameter.default
  parameter _ := True
  member
    | .index _ type => type.isRepeated = false
    | .property _ _ type => NotRepeated type
    | _ => True
  declaration
    | .variable _ type => NotRepeated type
    | .interface _ _ parents _ => ∀ type ∈ parents, type.isRepeated = false
    | .alias _ _ type => type.isRepeated = false
    | .class _ _ parent interfaces _ =>
      NotRepeated parent ∧ ∀ type ∈ interfaces, type.isRepeated = false
    | _ => True

/-- Every function type and every constructor type has a result. -/
def arrowsHaveResults : Check :=
  { Check.nothing with
    type := fun
      | .function signature => signature.result.isSome = true
      | .constructor signature => signature.result.isSome = true
      | _ => True }

/-- The operators of types join two types at least, each of which binds more tightly than the
operator, and only the last of which has an arrow. -/
def operatorsNest : Check :=
  { Check.nothing with
    type := fun
      | .union types => 2 ≤ types.length ∧ (∀ type ∈ types, type.isUnion = false)
          ∧ ∀ type ∈ types.dropLast, type.isArrow = false
      | .intersection types => 2 ≤ types.length
          ∧ (∀ type ∈ types, type.isUnion = false ∧ type.isIntersection = false)
          ∧ ∀ type ∈ types.dropLast, type.isArrow = false
      | _ => True }

/-- A path of one name at least, none of which is empty. -/
def IsPath (path : List String) : Prop :=
  path ≠ [] ∧ ∀ segment ∈ path, segment ≠ ""

/-- Types, values and namespaces are named by paths, and no path of a type starts with a reserved
word. -/
def pathsHaveNames : Check :=
  { Check.nothing with
    type := fun
      | .named path _ => IsPath path ∧ ∀ first ∈ path.head?, ∀ word : Word, first ≠ word.spelling
      | .query path => IsPath path
      | _ => True
    declaration := fun
      | .namespace path _ => IsPath path
      | _ => True }

/-- What `static` stands in front of is neither `static` again nor a call signature. -/
def staticsHaveNames : Check :=
  { Check.nothing with
    member := fun
      | .static inner => (∀ member, inner ≠ .static member) ∧ ∀ signature, inner ≠ .call signature
      | _ => True }

/-- The shape of the declarations of a document. -/
structure Document.Shaped (document : Document) : Prop where
  rests : everyDeclaration restsAtParameters document.declarations
  arrows : everyDeclaration arrowsHaveResults document.declarations
  operators : everyDeclaration operatorsNest document.declarations
  paths : everyDeclaration pathsHaveNames document.declarations
  statics : everyDeclaration staticsHaveNames document.declarations
  kept : ∀ text, .unsupported text ∈ allAtAnyDepth document.declarations → text ≠ ""

/-! ### What is formed has the shape -/

/-- Every check asks no less than nothing. -/
theorem Check.weaker_nothing (check : Check) : check.Weaker .nothing where
  type _ _ := trivial
  signature _ _ := trivial
  typeParameter _ _ := trivial
  parameter _ _ := trivial
  member _ _ := trivial
  declaration _ _ := trivial

/-- A type that does not end in an arrow type is none. -/
theorem isArrow_eq_false_of_endsInArrow {type : TypeExpr} (h : type.endsInArrow = false) :
    type.isArrow = false := by
  cases type <;> first | rfl | exact h

/-- A name is no reserved word. -/
theorem IsName.ne_spelling {text : String} (h : IsName text) (word : Word) :
    text ≠ word.spelling := by
  rintro rfl
  cases h.2.symm.trans (Word.ofText?_spelling word)

/-- A name is not empty. -/
theorem IsName.ne_empty {text : String} (h : IsName text) : text ≠ "" :=
  (show Identifier.IsWord ⟨text⟩ from h.1).nonempty

/-- Nor is the name of a parameter. -/
theorem IsBindingName.ne_empty {text : String} (h : IsBindingName text) : text ≠ "" :=
  (show Identifier.IsWord ⟨text⟩ from h.isWord).nonempty

/-- What is formed has rest types at parameters only. -/
theorem formed_weaker_restsAtParameters : formed.Weaker restsAtParameters where
  type node h := by
    cases node with
    | named => exact h.2
    | repeated | tuple | parenthesized => exact h
    | union => exact fun type hin => (h.2.1 type hin).2
    | intersection => exact fun type hin => (h.2.1 type hin).2.2
    | _ => trivial
  signature _ h := h
  typeParameter _ h := h.2
  parameter _ _ := trivial
  member node h := by
    cases node with
    | index | property => exact h.2
    | _ => trivial
  declaration node h := by
    cases node with
    | «variable» | «interface» | «alias» | «class» => exact h.2
    | _ => trivial

/-- What is formed has a result behind every arrow. -/
theorem formed_weaker_arrowsHaveResults : formed.Weaker arrowsHaveResults :=
  { Check.weaker_nothing formed with
    type := fun node h => by
      cases node with
      | function | constructor => exact h
      | _ => trivial }

/-- What is formed has operators that nest. -/
theorem formed_weaker_operatorsNest : formed.Weaker operatorsNest :=
  { Check.weaker_nothing formed with
    type := fun node h => by
      cases node with
      | union =>
        exact ⟨h.1, fun type hin => (h.2.1 type hin).1,
          fun type hin => isArrow_eq_false_of_endsInArrow (h.2.2 type hin)⟩
      | intersection =>
        exact ⟨h.1, fun type hin => ⟨(h.2.1 type hin).1, (h.2.1 type hin).2.1⟩, h.2.2⟩
      | _ => trivial }

/-- What is formed has names on all of its paths. -/
theorem formed_weaker_pathsHaveNames : formed.Weaker pathsHaveNames :=
  { Check.weaker_nothing formed with
    type := fun node h => by
      cases node with
      | named path arguments =>
        obtain ⟨⟨first, rest, rfl, hfirst, hrest⟩, -⟩ := h
        refine ⟨⟨List.cons_ne_nil first rest, List.forall_mem_cons.mpr ?_⟩, fun name hname => ?_⟩
        · exact ⟨hfirst.ne_empty, fun name hin => (hrest name hin).ne_empty⟩
        · cases Option.mem_some_iff.mp hname
          exact hfirst.ne_spelling
      | query => exact ⟨h.1, fun name hin => (h.2 name hin).ne_empty⟩
      | _ => trivial
    declaration := fun node h => by
      cases node with
      | «namespace» => exact ⟨h.1, fun name hin => (h.2 name hin).ne_empty⟩
      | _ => trivial }

/-- What is formed has `static` in front of members with names. -/
theorem formed_weaker_staticsHaveNames : formed.Weaker staticsHaveNames :=
  { Check.weaker_nothing formed with
    member := fun node h => by
      cases node with
      | static => exact h.2
      | _ => trivial }

/-! ### Documents -/

namespace Document

variable {source : String} {document : Document}

/-- A text that is read has tokens. -/
theorem exists_scan (h : ofText source = .ok document) :
    ∃ tokens, Token.scan source = .ok tokens := by
  obtain ⟨tokens, -, htokens, -⟩ := ofText_eq_ok.mp h
  exact ⟨tokens, htokens⟩

/-- A statement that is kept as it is written has a first token, so its text is not empty. -/
theorem ne_empty_of_unsupported (h : ofText source = .ok document) {kept : String}
    (hin : .unsupported kept ∈ allAtAnyDepth document.declarations) : kept ≠ "" := by
  obtain ⟨tokens, hscan⟩ := exists_scan h
  obtain ⟨run, behind, own, pairs, hrun, -⟩ := exists_isKeptRun_of_unsupported hscan h kept hin
  exact hrun.nonempty

/-- Every document that is read has the shape. -/
theorem shaped_ofText (h : ofText source = .ok document) : document.Shaped where
  rests := everyDeclaration_weaken formed_weaker_restsAtParameters (formed_ofText h)
  arrows := everyDeclaration_weaken formed_weaker_arrowsHaveResults (formed_ofText h)
  operators := everyDeclaration_weaken formed_weaker_operatorsNest (formed_ofText h)
  paths := everyDeclaration_weaken formed_weaker_pathsHaveNames (formed_ofText h)
  statics := everyDeclaration_weaken formed_weaker_staticsHaveNames (formed_ofText h)
  kept _ hin := ne_empty_of_unsupported h hin

/-- A static member of a class in a namespace, with types inside of one another. -/
def nestedTypes : Document where
  declarations := [.namespace ["N", "M"] [.class "C" [] none []
    [.static (.method "f" false ⟨[], [⟨"xs", false, some (.repeated
        (.parenthesized (.function ⟨[], [], some (.named ["A"] [])⟩)))⟩],
      some (.union [.intersection [.named ["B"] [], .query ["b", "c"]],
        .constructor ⟨[], [], some (.named ["D"] [])⟩])⟩)], .unsupported "import a;"]]
  lost := []

/-- A text with types inside of one another is read, and has the shape. -/
theorem shaped_ofText_nested :
    ofText ("namespace N.M \x7b class C \x7b "
        ++ "static f(...xs: (() => A)[]): B & typeof b.c | new () => D; \x7d import a; \x7d")
      = .ok nestedTypes ∧ nestedTypes.Shaped := by
  have hread : ofText ("namespace N.M \x7b class C \x7b "
        ++ "static f(...xs: (() => A)[]): B & typeof b.c | new () => D; \x7d import a; \x7d")
      = .ok nestedTypes := by with_unfolding_all rfl
  exact ⟨hread, shaped_ofText hread⟩

end Document

end Facade
