import Facade.Proofs.Translation.Spelling
import Facade.Translation.Text

/-!
# The names in the source of a facade

A facade whose definitions are spelled as they should be is written with such names only
(`Package.forall_names`): the object that gathers the fields and methods of a package has the name
of that package, or is called `Globals`.

So words, the names of the output path and the names of members are all that Scala gets to read.
Of these, only a member can be called something that Scala cannot read: its name may come from a
string, and a line break in that string is written as it is. `names_readable_iff` says so for every
source and every name in its facade.
-/

set_option autoImplicit false

namespace Facade

variable {package member : Identifier → Prop}

/-! ### Names of a source -/

/-- The definition is spelled as it should be, and so is all that is in it. -/
def Definition.SpelledThrough (package member : Identifier → Prop) (definition : Definition) :
    Prop :=
  definition.Spelled package member
    ∧ ∀ inner ∈ definition.body?, inner.Everywhere (Definition.Spelled package member)

/-- If everything in a body is spelled as it should be, so is each definition through and
through. -/
theorem Body.Everywhere.spelledThrough {body : Body}
    (h : body.Everywhere (Definition.Spelled package member)) :
    ∀ definition ∈ body.items, definition.SpelledThrough package member := by
  intro definition hd
  have hboth := Body.everywhere_iff.mp h definition hd
  exact ⟨Definition.spelled_front.mp hboth.1, hboth.2⟩

/-- The names in what is written inside a package, if those in its definitions are as they should
be. The object that gathers fields and methods may have the name of the package. -/
theorem forall_names_packageBlocks {header : Bool} {path : List String} {name : Identifier}
    {items : List Definition} {previous : Option Bool} {gathered : Bool}
    (hname : path ≠ [] → package name)
    (hleaves : ∀ definition ∈ items, definition.Spelled package member)
    (hblocks : ∀ definition ∈ items, ∀ block ∈ definition.blocks header path,
      ∀ found ∈ block.names, found.IsWord ∨ package found ∨ member found) :
    ∀ block ∈ packageBlocks header path name items previous gathered items,
      ∀ found ∈ block.names, found.IsWord ∨ package found ∨ member found := by
  intro block hblock
  rcases mem_packageBlocks hblock with rfl | rfl | ⟨definition, hd, -, hin⟩
  · exact fun _ hin => absurd hin List.not_mem_nil
  -- The object has a name of its own, and the names of the fields and methods.
  · rw [gatheringBlock, Block.names, List.forall_mem_append]
    constructor
    · intro found hfound
      have hfound : found = gatheringName path name := by
        simpa [gatheringHead, Head.pieces, typeParameterPieces] using hfound
      subst hfound
      unfold gatheringName
      by_cases hpath : path = []
      · rw [if_pos (by rw [hpath]; rfl)]
        exact .inl (by decide)
      · rw [if_neg (by simpa using hpath)]
        exact .inr (.inl (hname hpath))
    · rw [forall_mem_blockNames]
      intro leaf hleaf
      obtain ⟨definition, hd, hin⟩ := List.mem_flatMap.mp hleaf
      have hall := Definition.forall_names_leafBlocks (hleaves definition hd)
      exact fun found hfound => (forall_mem_blockNames.mp hall leaf hin found hfound).imp_right .inr
  · exact hblocks definition hd block hin

/-- There are no names above a facade. -/
theorem names_headerBlocks (header more : Bool) {post : Identifier → Prop} :
    ∀ block ∈ headerBlocks header more, ∀ found ∈ block.names, post found := by
  intro block hblock
  have hnone : block.names = [] := by
    cases header <;> cases more <;> simp [headerBlocks] at hblock
    · rcases hblock with rfl | rfl <;> rfl
    · rcases hblock with rfl | rfl | rfl <;> rfl
  rw [hnone]
  exact fun _ hin => absurd hin List.not_mem_nil

/-- What holds of the names in each definition holds of those in all of them. -/
theorem forall_names_itemBlocks {header : Bool} {path : List String} {items : List Definition}
    {post : Identifier → Prop} (h : ∀ definition ∈ items, ∀ block ∈ definition.blocks header path,
      ∀ found ∈ block.names, post found) :
    ∀ block ∈ itemBlocks header path items, ∀ found ∈ block.names, post found := by
  induction items with
  | nil =>
    rw [itemBlocks]
    exact fun _ hin => absurd hin List.not_mem_nil
  | cons definition rest ih =>
    rw [List.forall_mem_cons] at h
    rw [itemBlocks, List.forall_mem_append]
    exact ⟨h.1, ih h.2⟩

mutual

/-- The names in the tree of a definition that is spelled as it should be, with all in it. -/
theorem Definition.forall_names (header : Bool) (path : List String) (definition : Definition)
    (h : definition.SpelledThrough package member) :
    ∀ block ∈ definition.blocks header path, ∀ found ∈ block.names,
      found.IsWord ∨ package found ∨ member found := by
  match definition, h with
  | .comment text, _ =>
    rw [Definition.blocks]
    exact List.forall_mem_singleton.mpr fun _ hin => absurd hin List.not_mem_nil
  | .package ⟨name, isNamespace, ⟨items, madeUp⟩⟩, ⟨hname, hinside⟩ =>
    have hthrough := (hinside _ rfl).spelledThrough
    have hcontents : ∀ inner : List String, ∀ block ∈ packageBlocks header inner name items none
        false items, ∀ found ∈ block.names, found.IsWord ∨ package found ∨ member found :=
      fun inner => forall_names_packageBlocks (fun _ => hname)
        (fun other hd => (hthrough other hd).1) (forall_names_all header inner items hthrough)
    rw [Definition.blocks, Package.blocks]
    split
    -- A package without a name is written without braces.
    · rw [List.forall_mem_append]
      exact ⟨names_headerBlocks header _, hcontents path⟩
    · refine List.forall_mem_singleton.mpr ?_
      rw [Block.names, List.forall_mem_cons, forall_mem_blockNames, List.forall_mem_append,
        List.forall_mem_cons]
      refine ⟨.inr (.inl hname), ⟨fun _ hin => absurd hin List.not_mem_nil, hcontents _⟩, ?_⟩
      intro block hin
      split at hin
      · cases hin
      · cases List.mem_singleton.mp hin
        exact fun _ hin => absurd hin List.not_mem_nil
  | .class ⟨name, typeParameters, parents, isTrait, companion, ⟨items, madeUp⟩⟩,
      ⟨hfront, hinside⟩ =>
    rw [Definition.blocks]
    refine List.forall_mem_singleton.mpr ?_
    rw [Block.names, List.forall_mem_append, forall_mem_blockNames]
    refine ⟨fun found hfound => ?_, forall_names_itemBlocks ?_⟩
    · exact .inl (Head.forall_names hfront.1 hfront.2.1 hfront.2.2 found hfound)
    · exact forall_names_all header path items (hinside _ rfl).spelledThrough
  | .object ⟨name, companion, ⟨items, madeUp⟩⟩, ⟨hfront, hinside⟩ =>
    rw [Definition.blocks]
    refine List.forall_mem_singleton.mpr ?_
    rw [Block.names, List.forall_mem_append, forall_mem_blockNames]
    refine ⟨fun found hfound => ?_, forall_names_itemBlocks ?_⟩
    · refine .inl (Head.forall_names ?_ ?_ ?_ found hfound)
      · exact hfront
      · exact fun _ hin => absurd hin List.not_mem_nil
      · exact fun _ hin => absurd hin List.not_mem_nil
    · exact forall_names_all header path items (hinside _ rfl).spelledThrough
  | .field definition, ⟨hfront, _⟩ =>
    rw [Definition.blocks]
    refine List.forall_mem_singleton.mpr fun found hfound => ?_
    exact (Field.forall_names hfront found hfound).imp_right .inr
  | .method definition, ⟨hfront, _⟩ =>
    rw [Definition.blocks]
    intro block hblock found hfound
    obtain ⟨pieces, hpieces, rfl⟩ := Option.map_eq_some_iff.mp (Option.mem_toList.mp hblock)
    exact (Method.forall_names hfront hpieces found hfound).imp_right .inr

/-- The names in definitions that are spelled through are words, or names of packages or members as
they should be. -/
theorem forall_names_all (header : Bool) (path : List String) (items : List Definition)
    (h : ∀ definition ∈ items, definition.SpelledThrough package member) :
    ∀ definition ∈ items, ∀ block ∈ definition.blocks header path, ∀ found ∈ block.names,
      found.IsWord ∨ package found ∨ member found := by
  match items with
  | [] => exact fun _ hin => absurd hin List.not_mem_nil
  | definition :: rest =>
    rw [List.forall_mem_cons] at h
    exact List.forall_mem_cons.mpr ⟨definition.forall_names header path h.1,
      forall_names_all header path rest h.2⟩

end

/-- The source of a facade has words for names, and what its packages and members are called. -/
theorem Package.forall_names {facade : Package} (hroot : facade.name.isEmpty = true) (header : Bool)
    (h : facade.body.Everywhere (Definition.Spelled package member)) :
    ∀ name ∈ blockNames (facade.blocks header []), name.IsWord ∨ package name ∨ member name := by
  obtain ⟨root, isNamespace, ⟨items, madeUp⟩⟩ := facade
  have hthrough := h.spelledThrough
  rw [forall_mem_blockNames, Package.blocks, if_pos hroot, List.forall_mem_append]
  exact ⟨names_headerBlocks header _, forall_names_packageBlocks (fun hne => absurd rfl hne)
    (fun other hd => (hthrough other hd).1) (forall_names_all header [] items hthrough)⟩

/-! ### Readable names -/

/-- A property or a method of the declarations has the name. -/
def IsMemberName (declarations : List Declaration) (name : Identifier) : Prop :=
  ∃ declaration ∈ allAtAnyDepth declarations, ∃ given ∈ declaration.members,
    given.name? = some name.raw

/-- The source of a facade is the text of a tree. Under an output path without line breaks, a name
in the tree is written as an identifier that Scala reads exactly if it has no line break, and one
that has a line break is the name of a property or a method of the document. -/
theorem names_readable_iff {text : String} {document : Document}
    (htext : Document.ofText text = .ok document) {output : String}
    (houtput : ∀ c ∈ output.toList, ¬ Identifier.EndsLine c) (layout : Layout) :
    (document.translate (.ofText output) layout).code = displayBlocks layout.indent 0
        ((document.toPackage (.ofText output)).value.blocks layout.header [])
      ∧ ∀ name ∈ blockNames
          ((document.toPackage (.ofText output)).value.blocks layout.header []),
        name.display ≠ ""
          ∧ (Identifier.Readable name.display ↔ ∀ c ∈ name.raw.toList, ¬ Identifier.EndsLine c)
          ∧ ((∃ c ∈ name.raw.toList, Identifier.EndsLine c) →
            IsMemberName document.declarations name) := by
  refine ⟨Package.render_eq _ layout, fun name hname => ?_⟩
  -- A member has a name that is legible, or at least one that it was given.
  have hspelled : (document.toPackage (.ofText output)).value.body.Everywhere
      (Definition.Spelled Identifier.Legible fun name =>
        name.Legible ∨ name.raw ≠ "" ∧ IsMemberName document.declarations name) := by
    refine Document.spelled_toPackage (Document.formed_ofText htext) (fun segment hsegment => ?_)
      (fun _ hword => hword.legible) (fun _ hword => .inl hword.legible) ?_
    · have hpart := DottedName.of_mem_ofText segment hsegment
      exact ⟨hpart.1, fun c hc => houtput c (hpart.2 hc)⟩
    · intro declaration hdeclaration given hgiven word hword hne
      exact .inr ⟨hne, declaration, hdeclaration, given, hgiven, hword⟩
  have hcases : name.Legible ∨ name.raw ≠ "" ∧ IsMemberName document.declarations name := by
    rcases Package.forall_names rfl layout.header hspelled name hname with
      hword | hlegible | hmember
    · exact .inl hword.legible
    · exact .inl hlegible
    · exact hmember
  -- Whatever the name is, there is something to write.
  have hne : name.raw ≠ "" := hcases.elim Identifier.Legible.nonempty And.left
  refine ⟨Identifier.display_ne_empty hne, ?_, ?_⟩
  · rw [Identifier.readable_display_iff]
    exact ⟨Identifier.Legible.unbroken, fun hunbroken => ⟨hne, hunbroken⟩⟩
  · rintro ⟨c, hc, hends⟩
    exact (hcases.resolve_left fun hlegible => hlegible.unbroken c hc hends).2

/-- An interface with a property whose name has a line break, in a string. -/
def brokenMember : Document where
  declarations := [.interface "I" [] [] [.property "a\nb" false (some (.primitive .number))]]
  lost := []

/-- The text of that interface. -/
theorem ofText_brokenMember :
    Document.ofText "interface I \x7b \"a\\nb\": number; \x7d" = .ok brokenMember := by
  with_unfolding_all rfl

/-- The name of that property is written over two lines, and that is no identifier. -/
theorem names_readable_broken :
    (∀ c ∈ "out.put".toList, ¬ Identifier.EndsLine c)
      ∧ ⟨"a\nb"⟩ ∈ blockNames ((brokenMember.toPackage (.ofText "out.put")).value.blocks true [])
      ∧ ¬ Identifier.Readable (Identifier.display ⟨"a\nb"⟩)
      ∧ IsMemberName brokenMember.declarations ⟨"a\nb"⟩ := by
  have houtput : ∀ c ∈ "out.put".toList, ¬ Identifier.EndsLine c := by
    simp [Identifier.EndsLine]
  have hmem : ⟨"a\nb"⟩ ∈ blockNames
      ((brokenMember.toPackage (.ofText "out.put")).value.blocks true []) := by decide +kernel
  obtain ⟨-, hreadable, hmember⟩ :=
    (names_readable_iff ofText_brokenMember houtput .standard).2 _ hmem
  have hbreak : ∃ c ∈ ("a\nb" : String).toList, Identifier.EndsLine c :=
    ⟨'\n', by decide, .inl rfl⟩
  refine ⟨houtput, hmem, fun h => ?_, hmember hbreak⟩
  obtain ⟨c, hc, hends⟩ := hbreak
  exact hreadable.mp h c hc hends

end Facade
