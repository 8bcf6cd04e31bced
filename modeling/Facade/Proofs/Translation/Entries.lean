import Facade.Proofs.Translation.Everywhere
import Facade.Proofs.Translation.Imports
import Mathlib.Data.List.Induction

/-!
# What is entered into a class or an object

The body of a class or an object holds what was entered into it, one entry after the other, and
nothing else: `Document.inside_eq` says so of every facade, where the entries are those of the
imports into the package around it, in order (`entriesInto`). So all that ever stood in such a body
are the definitions of the first few of its entries, and every moment at which a name is made up is
an entry without a name.

`synthesized_names` is about these moments. The name comes from a counter of the body, so it differs
from those made up before. It does not differ from a name that the document writes in the same way,
and that is the only way in which it may stand there already.
-/

set_option autoImplicit false

namespace Facade

/-! ### Entries of an edit -/

namespace Edit

/-- What an edit enters into a class or an object, with the label of that. -/
def entered? : Edit → Option (Label × Entry)
  | .here _ => none
  | .onClass name change => change.entry?.map fun entry => (⟨.class, some name⟩, entry)
  | .object _ => none
  | .inObject name entry => some (⟨.object, some name⟩, entry)

/-- What an edit enters into the class or the object of a label. -/
def entryIn? (label : Label) (edit : Edit) : Option Entry :=
  edit.entered?.bind fun found => if found.1 = label then some found.2 else none

end Edit

namespace Body

/-- The body of what stands under a label, which is empty if nothing does. -/
def inside (body : Body) (label : Label) : Body :=
  ((body.view label).bind Definition.body?).getD .empty

/-- Bodies that show the same under a label hold the same there. -/
theorem inside_of_view {first second : Body} {label : Label}
    (h : first.view label = second.view label) : first.inside label = second.inside label := by
  rw [inside, h, inside]

/-- Under the label of an object stands an object. -/
theorem object_of_view {body : Body} {name : Identifier} {definition : Definition}
    (h : body.view ⟨.object, some name⟩ = some definition) :
    ∃ found : ObjectDefinition, definition = .object found := by
  have hl := label_of_view h
  cases definition with
  | object found => exact ⟨found, rfl⟩
  | _ => simp [Definition.label, Definition.kind] at hl

/-- An edit enters its entry where it belongs, and leaves all other classes and objects. -/
theorem inside_apply (body : Body) (edit : Edit) {label : Label}
    (hlabel : label.kind.isLeaf = false) :
    (edit.apply body).inside label
      = ((edit.entryIn? label).map (body.inside label).enter).getD (body.inside label) := by
  have hview := body.view_apply edit hlabel
  cases edit with
  | here entry => exact inside_of_view hview
  | onClass name change =>
    have hentry : (Edit.onClass name change).entryIn? label
        = if label = ⟨.class, some name⟩ then change.entry? else none := by
      rw [Edit.entryIn?, Edit.entered?, eq_comm]
      cases change.entry? <;> simp [eq_comm]
    rw [hentry]
    by_cases heq : label = ⟨.class, some name⟩
    · subst heq
      obtain ⟨found, hview, hbefore⟩ := body.view_onClass name change
      rw [if_pos rfl, inside, hview, inside]
      -- The class that is there is changed, or else a new one, which has an empty body.
      obtain hbefore | ⟨hbefore, rfl⟩ := hbefore <;> rw [hbefore] <;>
        exact change.body_apply_eq _
    · rw [if_neg heq]
      exact inside_of_view (hview.trans (if_neg heq))
  | object name =>
    by_cases heq : label = ⟨.object, some name⟩
    · subst heq
      rw [inside, hview.trans (if_pos rfl), inside]
      cases hbefore : body.view ⟨.object, some name⟩ <;> rfl
    · exact inside_of_view (hview.trans (if_neg heq))
  | inObject name entry =>
    have hentry : (Edit.inObject name entry).entryIn? label
        = if label = ⟨.object, some name⟩ then some entry else none := by
      rw [Edit.entryIn?, Edit.entered?, Option.bind_some]
      simp [eq_comm]
    rw [hentry]
    by_cases heq : label = ⟨.object, some name⟩
    · subst heq
      rw [if_pos rfl, inside, hview.trans (if_pos rfl), inside]
      cases hbefore : body.view ⟨.object, some name⟩ with
      | none => rfl
      | some definition =>
        obtain ⟨found, rfl⟩ := object_of_view hbefore
        rfl
    · rw [if_neg heq]
      exact inside_of_view (hview.trans (if_neg heq))

/-- Edits enter their entries one after the other. -/
theorem inside_applyAll (edits : List Edit) (body : Body) {label : Label}
    (hlabel : label.kind.isLeaf = false) :
    (Edit.applyAll edits body).inside label
      = (edits.filterMap (Edit.entryIn? label)).foldl enter (body.inside label) := by
  induction edits generalizing body with
  | nil => rfl
  | cons edit rest ih =>
    rw [Edit.applyAll_cons, ih, inside_apply _ _ hlabel]
    cases hentry : edit.entryIn? label with
    | none => rw [List.filterMap_cons_none hentry]; rfl
    | some entry => rw [List.filterMap_cons_some hentry]; rfl

end Body

/-! ### Entries of a document -/

/-- The edits of a declaration that was imported. -/
def Import.edits (found : Import) : List Edit :=
  (found.declaration.script found.own).value

/-- What the imports into a package enter into the class or the object of a label, in order. -/
def entriesInto (imports : List Import) (target : List Identifier) (label : Label) : List Entry :=
  ((imports.filter fun found => found.target = target).flatMap Import.edits).filterMap
    (Edit.entryIn? label)

/-- The entries of imports in a row are those of the first and then those of the others. -/
theorem entriesInto_append (front back : List Import) (target : List Identifier) (label : Label) :
    entriesInto (front ++ back) target label
      = entriesInto front target label ++ entriesInto back target label := by
  rw [entriesInto, List.filter_append, List.flatMap_append, List.filterMap_append]
  rfl

/-- Imports into other packages enter nothing. -/
theorem entriesInto_eq_nil {imports : List Import} {target : List Identifier}
    (h : ∀ found ∈ imports, found.target ≠ target) (label : Label) :
    entriesInto imports target label = [] := by
  have hnone : imports.filter (fun found => found.target = target) = [] := by
    rw [List.filter_eq_nil_iff]
    intro found hfound
    simp [h found hfound]
  rw [entriesInto, hnone]
  rfl

/-- One import enters what its own edits enter. -/
theorem entriesInto_single (found : Import) (label : Label) :
    entriesInto [found] found.target label = found.edits.filterMap (Edit.entryIn? label) := by
  simp [entriesInto]

/-- A label with a partner is that of a class or of an object. -/
theorem Label.ne_package_of_isPartner {label : Label} (h : label.partner?.isSome) :
    label.kind ≠ .package ∧ label.kind.isLeaf = false := by
  obtain ⟨kind, name⟩ := label
  cases kind <;> simp [partner?] at h <;> exact ⟨Kind.noConfusion, rfl⟩

/-- Declarations enter what their imports enter. -/
theorem tracks_inside (target : List Identifier) {label : Label} (hlabel : label.partner?.isSome) :
    Tracks target fun imports before after =>
      after.inside label = (entriesInto imports target label).foldl Body.enter (before.inside label)
    where
  still hnone hviews := by
    rw [entriesInto_eq_nil hnone, List.foldl_nil]
    exact Body.inside_of_view (hviews label (Label.ne_package_of_isPartner hlabel).1)
  append hfront hback := by
    rw [hback, hfront, entriesInto_append, List.foldl_append]
  script declaration own body := by
    rw [entriesInto_single ⟨target, declaration, own⟩]
    exact Body.inside_applyAll _ body (Label.ne_package_of_isPartner hlabel).2

/-- What stands under the label of a class or an object in a package of a facade is what was entered
into it. -/
theorem Document.inside_eq (document : Document) (path : DottedName) (target : List Identifier)
    {label : Label} (hlabel : label.partner?.isSome) :
    ((document.toPackage path).value.body.packageAt target).inside label
      = (entriesInto (document.imports path) target label).foldl Body.enter .empty :=
  (tracks_inside target hlabel).toPackage document path

/-- The body of a class or an object of a package is what is found inside its label. -/
theorem Body.Linked.inside_eq {body : Body} (h : body.Linked) {definition : Definition}
    (hin : definition ∈ body.items) {inner : Body} (hinner : definition.body? = some inner) :
    body.inside definition.label = inner := by
  obtain ⟨index, hindex⟩ := List.getElem?_of_mem hin
  have hcontainer : definition.isContainer = true := by rw [Definition.isContainer, hinner]; rfl
  have hfound := h.indexOf?_label hindex hcontainer
  have hget : body.get? index = some definition := hindex
  rw [Body.inside, Body.view, hfound, Option.bind_some, hget, Option.map_some, Option.bind_some,
    Definition.body?_unlinked, hinner]
  rfl

/-! ### Names that are made up -/

/-- The name that an entry comes with. -/
def Entry.name? : Entry → Option Identifier
  | .comment _ => none
  | .field name _ => name
  | .methods name _ _ _ => name

/-- A definition of an entry has the name of the entry, or the one that was made up for it. -/
theorem Entry.name?_of_mem_definitions {entry : Entry} {fresh : Identifier}
    {definition : Definition} (h : definition ∈ entry.definitions fresh) :
    definition.name? = if entry.isNameless then some fresh else entry.name? := by
  cases entry with
  | comment text =>
    cases List.mem_singleton.mp h
    rfl
  | field name type =>
    cases List.mem_singleton.mp h
    cases name <;> rfl
  | methods name typeParameters alternatives result =>
    obtain ⟨parameters, -, rfl⟩ := List.mem_map.mp h
    cases name <;> rfl

/-- An entry with a name needs none. -/
theorem Entry.isNameless_of_name? {entry : Entry} {name : Identifier}
    (h : entry.name? = some name) :
    entry.isNameless = false := by
  cases entry with
  | comment text => rfl
  | field given type | methods given typeParameters alternatives result =>
    cases h
    rfl

namespace Body

/-- The body of a container that some entries have been entered into. -/
def ofEntries (entries : List Entry) : Body :=
  entries.foldl enter .empty

/-- The last entry is entered behind the others. -/
theorem ofEntries_append_singleton (entries : List Entry) (entry : Entry) :
    ofEntries (entries ++ [entry]) = (ofEntries entries).enter entry :=
  List.foldl_append

/-- In a body that was filled by entries alone, a name was made up for each entry without one. -/
theorem madeUp_ofEntries (entries : List Entry) :
    (ofEntries entries).madeUp = entries.countP Entry.isNameless := by
  induction entries using List.reverseRecOn with
  | nil => rfl
  | append_singleton entries entry ih =>
    rw [ofEntries_append_singleton, List.countP_append, ← ih, enter]
    cases hnameless : entry.isNameless <;> simp [hnameless]

/-- The name that is made up behind some entries counts those of them that had none. -/
theorem makeUpName_ofEntries (entries : List Entry) :
    (ofEntries entries).makeUpName.1
      = ⟨"anonymous$" ++ toString (entries.countP Entry.isNameless + 1)⟩ := by
  rw [makeUpName, madeUp_ofEntries]

/-- Each definition was entered with one of the entries, behind those that came before it. -/
theorem mem_ofEntries {entries : List Entry} {definition : Definition} :
    definition ∈ (ofEntries entries).items ↔ ∃ front entry back, entries = front ++ entry :: back
      ∧ definition ∈ entry.definitions (ofEntries front).makeUpName.1 := by
  induction entries using List.reverseRecOn with
  | nil =>
    constructor
    · exact fun hin => absurd hin List.not_mem_nil
    · rintro ⟨front, entry, back, heq, -⟩
      cases List.append_eq_nil_iff.mp heq.symm |>.2
  | append_singleton entries last ih =>
    rw [ofEntries_append_singleton, enter, List.mem_append, ih]
    constructor
    · rintro (⟨front, entry, back, rfl, hin⟩ | hin)
      · exact ⟨front, entry, back ++ [last], by simp, hin⟩
      · exact ⟨entries, last, [], rfl, hin⟩
    · rintro ⟨front, entry, back, heq, hin⟩
      -- The entry is the last one, or one of those before it.
      rcases List.eq_nil_or_concat back with rfl | ⟨back, other, rfl⟩
      · obtain ⟨rfl, hlast⟩ := List.append_inj' heq rfl
        cases hlast
        exact .inr hin
      · rw [List.concat_eq_append, ← List.cons_append, ← List.append_assoc] at heq
        obtain ⟨rfl, -⟩ := List.append_inj' heq rfl
        exact .inl ⟨front, entry, back, rfl, hin⟩

/-- No name is made up twice. -/
theorem makeUpName_ofEntries_ne (front : List Entry) {earlier : Entry} (back : List Entry)
    (h : earlier.isNameless = true) :
    (ofEntries front).makeUpName.1 ≠ (ofEntries (front ++ earlier :: back)).makeUpName.1 := by
  intro heq
  rw [makeUpName_ofEntries, makeUpName_ofEntries] at heq
  have hdigits := congrArg String.toList ((String.append_right_inj _).mp
    (congrArg Identifier.raw heq))
  rw [Nat.toString_eq_repr, Nat.toString_eq_repr, Nat.toList_repr, Nat.toList_repr] at hdigits
  -- The digits tell the number, so the same name would be made up after as many others.
  have hcount := congrArg (Nat.ofDigitChars 10 · 0) hdigits
  simp only [Nat.ofDigitChars_ten_toDigits] at hcount
  rw [List.countP_append, List.countP_cons, if_pos h] at hcount
  omega

/-- A name that is made up stands there already exactly if an entry came with it. -/
theorem exists_makeUpName_iff {entries : List Entry}
    (hmade : ∀ entry ∈ entries, ∀ fresh, entry.definitions fresh ≠ []) :
    (∃ present ∈ (ofEntries entries).items,
        present.name? = some (ofEntries entries).makeUpName.1)
      ↔ ∃ earlier ∈ entries, earlier.name? = some (ofEntries entries).makeUpName.1 := by
  constructor
  · rintro ⟨present, hpresent, hname⟩
    -- It was entered at an earlier moment, and a name made up then was another one.
    obtain ⟨front, earlier, back, rfl, hin⟩ := mem_ofEntries.mp hpresent
    rw [Entry.name?_of_mem_definitions hin] at hname
    cases hnameless : earlier.isNameless with
    | true =>
      rw [hnameless, if_pos rfl] at hname
      exact absurd (Option.some.inj hname) (makeUpName_ofEntries_ne front back hnameless)
    | false =>
      rw [hnameless, if_neg Bool.false_ne_true] at hname
      exact ⟨earlier, List.mem_append_right _ List.mem_cons_self, hname⟩
  · rintro ⟨earlier, hearlier, hname⟩
    obtain ⟨front, back, heq⟩ := List.append_of_mem hearlier
    obtain ⟨present, hin⟩ :=
      List.exists_mem_of_ne_nil _ (hmade earlier hearlier (ofEntries front).makeUpName.1)
    refine ⟨present, mem_ofEntries.mpr ⟨front, earlier, back, heq, hin⟩, ?_⟩
    rw [Entry.name?_of_mem_definitions hin, Entry.isNameless_of_name? hname,
      if_neg Bool.false_ne_true, hname]

end Body

/-! ### Names that are written -/

/-- An entry that a document writes: it has definitions, and if it comes with a name, that is one of
some names, or the name of calls or of constructors. -/
structure Entry.Written (names : Identifier → Prop) (entry : Entry) : Prop where
  name : ∀ name, entry.name? = some name → name = .apply ∨ name = .constructor ∨ names name
  made : ∀ fresh, entry.definitions fresh ≠ []

/-- What an edit enters into a class or an object is written. -/
def Edit.Writes (names : Identifier → Prop) (edit : Edit) : Prop :=
  ∀ found ∈ edit.entered?, found.2.Written names

/-- What is written goes into a class or an object as it is. -/
theorem Holder.writes_edit {names : Identifier → Prop} {entry : Entry} (h : entry.Written names)
    (holder : Holder) (name : Identifier) : (holder.edit name entry).Writes names := by
  intro found hfound
  cases holder <;> cases hfound <;> exact h

/-- There is always a way to leave out parameters, if only that of leaving out none. -/
theorem MethodParameter.alternatives_ne_nil (parameters : List MethodParameter) :
    alternatives parameters ≠ [] := by
  rw [← List.length_pos_iff_ne_nil, length_alternatives]
  exact Nat.succ_pos _

namespace Entry

variable {names : Identifier → Prop}

/-- A comment is written. -/
theorem written_comment (text : String) : (Entry.comment text).Written names where
  name _ h := by cases h
  made _ := List.cons_ne_nil _ _

/-- Constructors are written. -/
theorem written_constructors (name : Identifier) (signature : Signature) :
    (Entry.methods (some .constructor) [] (constructorAlternatives name signature).value
      .unit).Written names where
  name found h := by
    cases h
    exact .inr (.inl rfl)
  made fresh hnil := by
    rw [constructorAlternatives_eq] at hnil
    exact MethodParameter.alternatives_ne_nil _ (List.map_eq_nil_iff.mp hnil)

/-- A signature under a name that is allowed is written. -/
theorem written_ofSignature {given : Option Identifier}
    (h : ∀ name, given = some name → name = .apply ∨ name = .constructor ∨ names name)
    (signature : Signature) : (Entry.ofSignature given signature).value.Written names where
  name := h
  made _ hnil := MethodParameter.alternatives_ne_nil _ (List.map_eq_nil_iff.mp hnil)

/-- So is a field. -/
theorem written_field {given : Option Identifier} (h : ∀ name, given = some name → names name)
    (type : ScalaType) : (Entry.field given type).Written names where
  name found hfound := .inr (.inr (h found hfound))
  made _ := List.cons_ne_nil _ _

end Entry

/-- A member that has a name in the object is called by its word. -/
theorem memberName?_eq_some {word : String} {name : Identifier} (h : memberName? word = some name) :
    name = ⟨word⟩ := by
  unfold memberName? at h
  split at h
  · cases h
  · exact (Option.some.inj h).symm

/-- What a member enters has its name, if it comes with one. -/
theorem Member.Makes.writes {names : Identifier → Prop} {holder : Holder} {name : Identifier}
    {own : List Identifier} {member : Member} {edit : Edit}
    (h : member.Makes holder name own edit)
    (hnames : ∀ word, member.bare.name? = some word → names ⟨word⟩) : edit.Writes names := by
  cases h with
  | companion => exact fun found hfound => by cases hfound
  | comment text _ => exact Holder.writes_edit (Entry.written_comment text) _ name
  | @call place signature _ _ =>
    refine Holder.writes_edit (Entry.written_ofSignature (fun found hfound => ?_) signature)
      place name
    cases hfound
    exact .inl rfl
  | @property place word _ type _ hbare =>
    refine Holder.writes_edit (Entry.written_field (fun found hfound => ?_) _) place name
    rw [memberName?_eq_some hfound]
    exact hnames word (hbare ▸ rfl)
  | @method place word _ signature _ hbare =>
    refine Holder.writes_edit (Entry.written_ofSignature (fun found hfound => ?_) signature)
      place name
    rw [memberName?_eq_some hfound]
    exact .inr (.inr (hnames word (hbare ▸ rfl)))
  | @adopt signature _ _ | @construct signature _ _ | @constructor _ signature _ _ =>
    intro found hfound
    cases hfound
    exact Entry.written_constructors name signature

/-- The name is that of a member of the declaration. -/
def Declaration.NamesMember (declaration : Declaration) (name : Identifier) : Prop :=
  ∃ member ∈ declaration.members, member.name? = some name.raw

/-- The edits of a declaration: an entry of its own, or what opens the class or the object of its
members with theirs behind it. A namespace has none. -/
inductive Declaration.Edits (own : List Identifier) (declaration : Declaration) : List Edit → Prop
    where
  | none : Edits own declaration []
  | here {entry : Entry} : entry.isNameless = false → Edits own declaration [.here entry]
  | members {first : Edit} {holder : Holder} {name : Identifier} {members : List Member} :
      first.subject? = some name → first.entered? = none →
      declaration.members = members.map Member.bare →
      Edits own declaration (first :: (Member.scripts holder name own members).value)

/-- The script of every declaration is of one of these forms. -/
theorem Declaration.edits_script (own : List Identifier) (declaration : Declaration) :
    declaration.Edits own (declaration.script own).value := by
  have hscripts := declaration.scripts_script own
  generalize declaration.script own = script at hscripts ⊢
  cases hscripts with
  | field | function | comment => exact .here rfl
  | object => exact .members rfl rfl rfl
  | «class» hclass => exact .members rfl rfl hclass.members_eq
  | «namespace» => exact .none

/-- Every edit of a declaration writes names of its members only, or those of calls and of
constructors. -/
theorem Declaration.writes_script (own : List Identifier) (declaration : Declaration) :
    ∀ edit ∈ (declaration.script own).value, edit.Writes declaration.NamesMember := by
  have hedits := declaration.edits_script own
  generalize (declaration.script own).value = edits at hedits ⊢
  cases hedits with
  | none => exact List.forall_mem_nil _
  | here _ => exact List.forall_mem_singleton.mpr fun found hfound => by cases hfound
  | members _ hfirst heq =>
    -- What opens the class or the object enters nothing, and the members enter their own.
    refine List.forall_mem_cons.mpr ⟨fun found hfound => ?_, ?_⟩
    · rw [hfirst] at hfound
      cases hfound
    · refine Member.forall_mem_scripts fun member hmember edit hmakes => ?_
      have hbare : member.bare ∈ declaration.members := heq ▸ List.mem_map_of_mem hmember
      exact hmakes.writes fun word hword => ⟨member.bare, hbare, hword⟩

/-- What goes into a class or an object of a package is written in one of the imports into the
package. -/
theorem written_of_mem_entriesInto {imports : List Import} {target : List Identifier}
    {label : Label} {entry : Entry} (h : entry ∈ entriesInto imports target label) :
    ∃ found ∈ imports, found.target = target ∧ entry.Written found.declaration.NamesMember := by
  obtain ⟨edit, hedit, hentry⟩ := List.mem_filterMap.mp h
  obtain ⟨found, hfound, hin⟩ := List.mem_flatMap.mp hedit
  obtain ⟨himport, htarget⟩ := List.mem_filter.mp hfound
  obtain ⟨entered, hentered, hlabel⟩ := Option.bind_eq_some_iff.mp hentry
  refine ⟨found, himport, of_decide_eq_true htarget, ?_⟩
  have hwritten := found.declaration.writes_script found.own edit hin entered hentered
  split at hlabel
  · cases hlabel
    exact hwritten
  · cases hlabel

/-! ### Packages make up no names -/

/-- What an edit enters into the body itself comes with a name. -/
def Edit.IsNamedHere : Edit → Prop
  | .here entry => entry.isNameless = false
  | _ => True

/-- A declaration enters nothing without a name into the body around it. -/
theorem Declaration.isNamedHere_script (own : List Identifier) (declaration : Declaration) :
    ∀ edit ∈ (declaration.script own).value, edit.IsNamedHere := by
  have hsubject : ∀ (edit : Edit) (name : Identifier), edit.subject? = some name →
      edit.IsNamedHere := by
    intro edit name hsome
    cases edit with
    | here entry => cases hsome
    | _ => trivial
  have hedits := declaration.edits_script own
  generalize (declaration.script own).value = edits at hedits ⊢
  cases hedits with
  | none => exact List.forall_mem_nil _
  | here hnamed => exact List.forall_mem_singleton.mpr hnamed
  | @members first holder name members hfirst _ _ =>
    refine List.forall_mem_cons.mpr ⟨hsubject first name hfirst, fun edit hedit => ?_⟩
    exact hsubject edit name (Member.subject_scripts holder name own members edit hedit)

namespace Body

/-- To enrol a definition makes up no name. -/
theorem madeUp_enrol (body : Body) (definition : Definition) :
    (body.enrol definition).madeUp = body.madeUp := by
  unfold enrol
  split <;> rfl

/-- To open a container makes up no name. -/
theorem Opens.madeUp {body : Body} {fresh : Definition} {opened : Nat × Body}
    (h : body.Opens fresh opened) : opened.2.madeUp = body.madeUp := by
  cases h with
  | found _ => rfl
  | added _ _ _ _ => exact body.madeUp_enrol _

/-- Nor does an edit of a declaration, in the body around its class or object. -/
theorem madeUp_apply (body : Body) {edit : Edit} (h : edit.IsNamedHere) :
    (edit.apply body).madeUp = body.madeUp := by
  cases edit with
  | here entry =>
    have hnamed : entry.isNameless = false := h
    simp [Edit.apply, enter, hnamed]
  | onClass name change => exact (body.opens_openClass name).madeUp
  | object name => exact (body.opens_openObject name).madeUp
  | inObject name entry => exact (body.opens_openObject name).madeUp

/-- Where what goes into packages themselves comes with a name, packages make up none. -/
theorem Reaches.madeUp {before after : Body} (h : before.Reaches Edit.IsNamedHere after)
    (hbefore : ∀ path, (before.packageAt path).madeUp = 0) (path : List Identifier) :
    (after.packageAt path).madeUp = 0 := by
  induction h generalizing path with
  | refl => exact hbefore path
  | @edit first second edit hedit _ ih =>
    cases path with
    | nil => exact (second.madeUp_apply hedit).trans (ih hbefore [])
    | cons name rest =>
      rw [packageAt_cons, packageOrNew_of_view (second.view_package edit name), ← packageAt_cons]
      exact ih hbefore (name :: rest)
  | @package first second inner name isNamespace _ _ ih ihinner =>
    cases path with
    | nil => exact ((second.opens_openPackage name).madeUp).trans (ih hbefore [])
    | cons other rest =>
      rw [packageAt_cons, packageOrNew_fillPackage]
      split
      · exact ihinner (fun more => ih hbefore (name :: more)) rest
      · exact ih hbefore (other :: rest)

end Body

/-! ### The names of a facade -/

/-- What is known of the name that is made up in a body behind some entries: it counts the names
made up before, it is none of these, and it stands there already exactly if an entry came with it,
which a member in one of some declarations is then called. -/
structure Body.MakesUp (declared : List Declaration) (before : List Entry) (name : Identifier) :
    Prop where
  counted : name = ⟨"anonymous$" ++ toString (before.countP Entry.isNameless + 1)⟩
  distinct : ∀ front earlier back, before = front ++ earlier :: back →
    earlier.isNameless = true → (Body.ofEntries front).makeUpName.1 ≠ name
  clash : (∃ present ∈ (Body.ofEntries before).items, present.name? = some name)
    ↔ ∃ earlier ∈ before, earlier.name? = some name
  written : (∃ present ∈ (Body.ofEntries before).items, present.name? = some name) →
    ∃ declaration ∈ declared, declaration.NamesMember name

/-- The name that is made up behind the entries of some imports is what is known of it: the count
says how it is written, so it is none of those made up before, and it stands there already only if
one of the members is called so. -/
theorem Body.makesUp {imports : List Import} {target : List Identifier} {before : List Entry}
    (hwritten : ∀ entry ∈ before, ∃ found ∈ imports, found.target = target
      ∧ entry.Written found.declaration.NamesMember) :
    Body.MakesUp ((imports.filter fun found => found.target = target).map Import.declaration) before
      (Body.ofEntries before).makeUpName.1 := by
  have hmade : ∀ entry ∈ before, ∀ fresh, entry.definitions fresh ≠ [] := by
    intro entry hentry
    obtain ⟨_, _, _, hentry⟩ := hwritten entry hentry
    exact hentry.made
  have hclash := Body.exists_makeUpName_iff hmade
  refine ⟨Body.makeUpName_ofEntries before, ?_, hclash, fun hpresent => ?_⟩
  · rintro front earlier back rfl hnameless
    exact Body.makeUpName_ofEntries_ne front back hnameless
  · obtain ⟨earlier, hearlier, hname⟩ := hclash.mp hpresent
    obtain ⟨found, hfound, htarget, hentry⟩ := hwritten earlier hearlier
    -- Neither calls nor constructors have a name like that.
    have hne : ∀ word : String, word.toList.head? ≠ some 'a' ∨ word.toList[1]? ≠ some 'n' →
        (Body.ofEntries before).makeUpName.1 ≠ ⟨word⟩ := by
      intro word hword heq
      have hraw := congrArg (fun name : Identifier => name.raw.toList) heq
      simp only [Body.makeUpName, String.toList_append] at hraw
      rw [← hraw] at hword
      simp at hword
    rcases hentry.name _ hname with happly | hconstructor | hmember
    · exact absurd happly (hne "apply" (by decide))
    · exact absurd hconstructor (hne "<init>" (by decide))
    · exact ⟨found.declaration, List.mem_map_of_mem (List.mem_filter.mpr
        ⟨hfound, decide_eq_true htarget⟩), hmember⟩

/-- Packages make up no names for what is in them. The body of a class or an object in a package is
what was entered into it, and whenever an entry came without a name, the name made up for it was new
among those made up there before; it stood there already exactly if an earlier entry came with it.
Then a member is called that, in one of the declarations that were imported into the package. -/
theorem synthesized_names (document : Document) (path : DottedName) :
    ∀ trail package, (document.toPackage path).value.Leads trail package →
      package.body.madeUp = 0 ∧
      ∀ definition ∈ package.body.items, definition.label.partner?.isSome →
        let imports := document.imports path
        let target := trail.map Package.name
        let entries := entriesInto imports target definition.label
        definition.body? = some (Body.ofEntries entries) ∧
        ∀ before entry after, entries = before ++ entry :: after → entry.isNameless = true →
          (Body.MakesUp ((imports.filter fun found => found.target = target).map Import.declaration)
            before (Body.ofEntries before).makeUpName.1) := by
  intro trail package hleads
  have hsound := document.sound_toPackage path
  have hbody := hleads.packageAt hsound
  constructor
  · have hnone : ∀ names : List Identifier, (Body.empty.packageAt names).madeUp = 0 := by
      intro names
      rw [Body.packageAt_empty]
      rfl
    -- No declaration enters anything into a package without a name.
    have hnamed : ∀ edit : Edit, edit.StemsFrom document.declarations → edit.IsNamedHere := by
      rintro edit ⟨declaration, -, own, hedit⟩
      exact declaration.isNamedHere_script own edit hedit
    rw [← hbody]
    exact ((document.reaches_toPackage path).mono hnamed).madeUp hnone _
  · intro definition hin hlabel imports target entries
    obtain ⟨inner, hinner⟩ : ∃ inner, definition.body? = some inner := by
      cases definition <;> first | exact ⟨_, rfl⟩ | cases hlabel
    -- What was entered under the label makes up the body that is found there.
    have hentries := document.inside_eq path target hlabel
    rw [hbody, (hleads.contains.sound hsound).linked.inside_eq hin hinner] at hentries
    refine ⟨hinner.trans (congrArg some hentries), fun before entry after hsplit _ => ?_⟩
    refine Body.makesUp fun earlier hearlier => ?_
    have hin : earlier ∈ entries := hsplit ▸ List.mem_append_left _ hearlier
    exact written_of_mem_entriesInto hin

/-- An interface with a member that is called like the first name that is made up, in front of a
member without a name. -/
def anonymousInterface : Document where
  declarations := [.interface "I" [] [] [
    .property "anonymous$1" false (some (.primitive .number)),
    .property "" false (some (.primitive .number))]]
  lost := []

/-- Here the name that is made up stands in the trait already. -/
theorem synthesized_names_clash :
    Document.ofText "interface I \x7b \"anonymous$1\": number; \"\": number; \x7d"
        = .ok anonymousInterface
      ∧ ∃ trail package, (anonymousInterface.toPackage .root).value.Leads trail package
      ∧ package.body.madeUp = 0
      ∧ ∃ definition ∈ package.body.items, ∃ before entry after,
        entriesInto (anonymousInterface.imports .root) (trail.map Package.name) definition.label
            = before ++ entry :: after
          ∧ definition.body? = some (Body.ofEntries (before ++ entry :: after))
          ∧ entry.isNameless = true
          ∧ (∃ present ∈ (Body.ofEntries before).items,
            present.name? = some (Body.ofEntries before).makeUpName.1)
          ∧ ∃ declaration ∈ anonymousInterface.declarations,
            declaration.NamesMember (Body.ofEntries before).makeUpName.1 := by
  let definition : ClassDefinition :=
    ⟨⟨"I"⟩, [], [.object], true, none,
      ⟨[.field ⟨⟨"anonymous$1"⟩, .number⟩, .field ⟨⟨"anonymous$1"⟩, .number⟩], 1⟩⟩
  obtain ⟨hnone, hall⟩ := synthesized_names anonymousInterface .root [] _ (.here _)
  have hin : .class definition ∈ (anonymousInterface.toPackage .root).value.body.items :=
    List.mem_singleton.mpr rfl
  obtain ⟨hbody, hnames⟩ := hall _ hin rfl
  have hmade := hnames [.field (some ⟨"anonymous$1"⟩) .number] (.field none .number) [] rfl rfl
  have hclash := hmade.clash.mpr ⟨_, List.mem_singleton.mpr rfl, rfl⟩
  exact ⟨by with_unfolding_all rfl, [], _, .here _, hnone, _, hin, _, _, _, rfl, hbody, rfl, hclash,
    hmade.written hclash⟩

end Facade
