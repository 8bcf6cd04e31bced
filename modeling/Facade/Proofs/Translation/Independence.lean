import Facade.Proofs.Declaration.Ensures
import Facade.Proofs.Translation.Order

/-!
# Independence of the order of declarations

`alike_applyAll` is about steps; this module is about declarations. `Unambiguous` says what a list
of declarations has to keep to, so that its steps are coherent: no two of its declarations give
type parameters to one class, no list of type parameters repeats a name, no two namespaces start
with the same package, and every member has a name. The steps of any permutation of the list are
then a permutation of its steps, by one and the same table of type parameters.
-/

set_option autoImplicit false

namespace Facade

/-- What makes the outcome of a translation independent of the order of declarations. -/
structure Unambiguous (declarations : List Declaration) : Prop where
  /-- No two interfaces, classes or aliases of object types have the same name. -/
  classes : (declarations.filterMap Declaration.className?).Nodup
  /-- None of them has two type parameters of the same name. -/
  typeParameters : ∀ declaration ∈ declarations, declaration.className?.isSome = true →
    (declaration.typeParameters.map TypeParameter.name).Nodup
  /-- No two namespaces start with the same name. -/
  namespaces : (declarations.filterMap Declaration.firstSegment?).Nodup
  /-- No member has an empty name. -/
  members : ∀ declaration ∈ declarations, ∀ member ∈ declaration.members, member.name? ≠ some ""

/-- Whether declarations are unambiguous does not depend on their order. -/
theorem Unambiguous.perm {declarations declarations' : List Declaration}
    (h : Unambiguous declarations) (hperm : declarations.Perm declarations') :
    Unambiguous declarations' where
  classes := (hperm.filterMap _).nodup_iff.mp h.classes
  typeParameters declaration hd := h.typeParameters declaration (hperm.mem_iff.mpr hd)
  namespaces := (hperm.filterMap _).nodup_iff.mp h.namespaces
  members declaration hd := h.members declaration (hperm.mem_iff.mpr hd)

/-! ### The table of a list -/

/-- The type parameters that the classes of declarations are declared with. -/
def tableOf (declarations : List Declaration) (name : Identifier) : List Identifier :=
  (declarations.findSome? (Declaration.headerOf? name)).getD []

/-- What gives type parameters to a name is a declaration of that name. -/
theorem Declaration.className?_of_headerOf? {declaration : Declaration} {name : Identifier}
    {own : List Identifier} (h : declaration.headerOf? name = some own) :
    declaration.className? = some name.raw
      ∧ own = TypeParameter.identifiers declaration.typeParameters := by
  by_cases hclass : declaration.className? = some name.raw
  · obtain ⟨_, _, _, _, hdeclares⟩ := exists_declaresClass hclass
    cases hdeclares.headerOf?_eq.symm.trans h
    exact ⟨hclass, by cases hdeclares <;> rfl⟩
  · cases (headerOf?_eq_none hclass).symm.trans h

/-- Where results do not repeat, what has a result is known by it. -/
theorem eq_of_nodup_filterMap {α β : Type} {f : α → Option β} {list : List α}
    (h : (list.filterMap f).Nodup) {first second : α} {b : β} (hfirst : first ∈ list)
    (hsecond : second ∈ list) (hf : f first = some b) (hs : f second = some b) :
    first = second := by
  induction list with
  | nil => cases hfirst
  | cons a rest ih =>
    cases ha : f a with
    | none =>
      rw [List.filterMap_cons_none ha] at h
      rcases List.mem_cons.mp hfirst with rfl | hfirst
      · cases ha.symm.trans hf
      rcases List.mem_cons.mp hsecond with rfl | hsecond
      · cases ha.symm.trans hs
      exact ih h hfirst hsecond
    | some c =>
      rw [List.filterMap_cons_some ha, List.nodup_cons] at h
      -- The first one's result does not come again, so neither of the two can be behind it alone.
      have hnot : ∀ other ∈ rest, f other ≠ some c := fun other hother hc =>
        h.1 (List.mem_filterMap.mpr ⟨other, hother, hc⟩)
      rcases List.mem_cons.mp hfirst with rfl | hin
      · rcases List.mem_cons.mp hsecond with rfl | hin'
        · rfl
        · cases ha.symm.trans hf
          exact absurd hs (hnot second hin')
      · rcases List.mem_cons.mp hsecond with rfl | hin'
        · cases ha.symm.trans hs
          exact absurd hf (hnot first hin)
        · exact ih h.2 hin hin'

/-- The table of an unambiguous list has all its headers. -/
theorem Unambiguous.headed {declarations : List Declaration} (h : Unambiguous declarations) :
    Headed (tableOf declarations) declarations := by
  intro declaration hd name own hown
  obtain ⟨hname, rfl⟩ := Declaration.className?_of_headerOf? hown
  constructor
  · rw [tableOf]
    cases hfound : declarations.findSome? (Declaration.headerOf? name) with
    | none => cases (List.findSome?_eq_none_iff.mp hfound declaration hd).symm.trans hown
    | some found =>
      obtain ⟨other, hother, hheader⟩ := List.exists_of_findSome?_eq_some hfound
      obtain ⟨hsame, -⟩ := Declaration.className?_of_headerOf? hheader
      cases eq_of_nodup_filterMap h.classes hd hother hname hsame
      exact Option.some.inj (hheader.symm.trans hown)
  · have hnames := h.typeParameters declaration hd (by rw [hname]; rfl)
    have hmap : TypeParameter.identifiers declaration.typeParameters
        = (declaration.typeParameters.map TypeParameter.name).map Identifier.mk := by
      rw [List.map_map]
      rfl
    rw [hmap, List.Nodup, List.pairwise_map]
    exact hnames.imp fun hne heq => hne (congrArg Identifier.raw heq)

/-- Whether a table gives their type parameters does not depend on their order either. -/
theorem Headed.perm {table : Identifier → List Identifier}
    {declarations declarations' : List Declaration} (h : Headed table declarations)
    (hperm : declarations.Perm declarations') : Headed table declarations' :=
  fun declaration hd => h declaration (hperm.mem_iff.mpr hd)

/-- An empty body is ready for a permutation of the list that the table comes from. -/
theorem ready_empty {declarations declarations' : List Declaration}
    (h : Unambiguous declarations) (hperm : declarations.Perm declarations') :
    Ready (tableOf declarations) declarations' .empty where
  header name := by
    rw [Body.headerOf_eq]
    show ((declarations'.findSome? (Declaration.headerOf? name)).getD []) = _
    cases hfound : declarations'.findSome? (Declaration.headerOf? name) with
    | none =>
      have hnone : declarations.findSome? (Declaration.headerOf? name) = none :=
        List.findSome?_eq_none_iff.mpr fun declaration hd =>
          List.findSome?_eq_none_iff.mp hfound declaration (hperm.mem_iff.mp hd)
      rw [tableOf, hnone]
    | some own =>
      obtain ⟨declaration, hd, hheader⟩ := List.exists_of_findSome?_eq_some hfound
      exact (h.headed.perm hperm declaration hd name own hheader).1.symm
  package _ _ _ _ := rfl

/-! ### Coherence of the steps of declarations -/

/-- The type parameters that an edit brings to a class, with the name of the class. -/
def Edit.brought? : Edit → Option (Identifier × List Identifier)
  | .onClass name change => change.own?.map fun own => (name, own)
  | _ => none

/-- The name of the class that an edit gives a header to. -/
def Edit.headed? : Edit → Option Identifier
  | .onClass name (.header _ _) => some name
  | _ => none

/-- What the edits of a member bring are the type parameters that it is compared with, they bring no
header, and none of them needs a made-up name if the member has one. -/
structure Member.Faithful (name : Identifier) (own : List Identifier) (edits : List Edit) :
    Prop where
  brought : ∀ edit ∈ edits, ∀ pair, edit.brought? = some pair → pair = (name, own)
  headed : ∀ edit ∈ edits, edit.headed? = none
  named : ∀ edit ∈ edits, edit.isNameless = false

/-- A member that is called something is not nameless. -/
theorem isNameless_memberName? {word : String} (h : some word ≠ some "") :
    (memberName? word).isNone = false := by
  have hword : (word == "") = false := by
    rw [beq_eq_false_iff_ne]
    exact fun heq => h (congrArg some heq)
  rw [memberName?, hword]
  rfl

/-- What a member makes is faithful. -/
theorem Member.Makes.faithful {holder : Holder} {name : Identifier} {own : List Identifier}
    {member : Member} {edit : Edit} (h : member.Makes holder name own edit)
    (hname : member.bare.name? ≠ some "") :
    (∀ pair, edit.brought? = some pair → pair = (name, own)) ∧ edit.headed? = none
      ∧ edit.isNameless = false := by
  -- To enter something that has a name brings nothing.
  have hentry : ∀ {place : Holder} {entry : Entry}, entry.isNameless = false →
      (∀ pair, (place.edit name entry).brought? = some pair → pair = (name, own))
        ∧ (place.edit name entry).headed? = none
        ∧ (place.edit name entry).isNameless = false := by
    intro place entry hnamed
    cases place <;> exact ⟨fun pair hpair => (by cases hpair), rfl, hnamed⟩
  cases h with
  | companion => exact ⟨fun pair hpair => (by cases hpair), rfl, rfl⟩
  | comment _ _ | call _ _ => exact hentry rfl
  | property _ hbare | method _ hbare =>
    rw [hbare] at hname
    exact hentry (isNameless_memberName? hname)
  | adopt _ _ => exact ⟨fun pair hpair => (Option.some.inj hpair).symm, rfl, rfl⟩
  | construct _ _ | constructor _ _ => exact ⟨fun pair hpair => (by cases hpair), rfl, rfl⟩

/-- So are the scripts of members. -/
theorem Member.faithful_scripts (holder : Holder) (name : Identifier) (own : List Identifier)
    {members : List Member} (h : ∀ member ∈ members.map bare, member.name? ≠ some "") :
    Faithful name own (scripts holder name own members).value := by
  have hall := forall_mem_scripts fun member hmember edit
      (hmakes : member.Makes holder name own edit) =>
    hmakes.faithful (h member.bare (List.mem_map_of_mem hmember))
  exact ⟨fun edit hedit => (hall edit hedit).1, fun edit hedit => (hall edit hedit).2.1,
    fun edit hedit => (hall edit hedit).2.2⟩

/-- What a declaration brings to classes agrees with a table, it gives a header to the class that it
declares and to no other, and no edit of it needs a made-up name. -/
structure Declaration.Faithful (table : Identifier → List Identifier) (className : Option String)
    (edits : List Edit) : Prop where
  brought : ∀ edit ∈ edits, ∀ pair, edit.brought? = some pair → pair.2 = table pair.1
  headed : edits.filterMap Edit.headed? = (className.map Identifier.mk).toList
  named : ∀ edit ∈ edits, edit.isNameless = false

/-- An edit of the body itself brings nothing to classes. -/
theorem Declaration.faithful_here {table : Identifier → List Identifier} {entry : Entry}
    (h : entry.isNameless = false) : Faithful table none [.here entry] where
  brought edit hedit := by cases List.mem_singleton.mp hedit; exact fun _ hpair => by cases hpair
  headed := rfl
  named edit hedit := by cases List.mem_singleton.mp hedit; exact h

/-- The edits of the members follow an edit of their holder. -/
theorem Declaration.faithful_cons {table : Identifier → List Identifier} {name : Identifier}
    {edit : Edit} {edits : List Edit} {className : Option String}
    (hedits : Member.Faithful name (table name) edits)
    (hbrought : ∀ pair, edit.brought? = some pair → pair.2 = table pair.1)
    (hheaded : edit.headed? = className.map Identifier.mk) (hnamed : edit.isNameless = false) :
    Faithful table className (edit :: edits) where
  brought other hother := by
    rcases List.mem_cons.mp hother with rfl | hin
    · exact hbrought
    · intro pair hpair
      cases hedits.brought other hin pair hpair
      rfl
  headed := by
    have hnone : edits.filterMap Edit.headed? = [] :=
      List.filterMap_eq_nil_iff.mpr hedits.headed
    cases className with
    | none => rw [List.filterMap_cons_none hheaded, hnone]; rfl
    | some declared => rw [List.filterMap_cons_some hheaded, hnone]; rfl
  named other hother := by
    rcases List.mem_cons.mp hother with rfl | hin
    · exact hnamed
    · exact hedits.named other hin

/-- The script of a declaration is faithful. -/
theorem Declaration.faithful_script {table : Identifier → List Identifier}
    {declaration : Declaration}
    (hheader : ∀ name own, declaration.headerOf? name = some own → table name = own)
    (hmembers : ∀ member ∈ declaration.members, member.name? ≠ some "") :
    Faithful table declaration.className?
      (declaration.script (declaration.ownIn table)).value := by
  have hscripts := declaration.scripts_script (declaration.ownIn table)
  generalize declaration.script (declaration.ownIn table) = script at hscripts ⊢
  cases hscripts with
  | field | function => exact faithful_here rfl
  | comment text hkept =>
    rw [className?_of_isComment hkept]
    exact faithful_here rfl
  | object name members =>
    exact faithful_cons (Member.faithful_scripts .ofObject ⟨name⟩ _ hmembers)
      (fun _ hpair => by cases hpair) rfl rfl
  | «class» hclass =>
    rw [hclass.className?_eq, Declaration.ownIn, hclass.subject?_eq]
    refine faithful_cons (Member.faithful_scripts _ _ _ (hclass.members_eq ▸ hmembers)) ?_ rfl rfl
    intro pair hpair
    cases hpair
    exact (hheader _ _ hclass.headerOf?_eq).symm
  | «namespace» =>
    exact ⟨List.forall_mem_nil _, rfl, List.forall_mem_nil _⟩

/-! ### The steps of a list -/

/-- The name of the class that a step gives a header to. -/
def Step.headed? : Step → Option Identifier
  | .edit made => made.headed?
  | .package _ => none

/-- A step of a declaration is a package, or an edit of its script. -/
theorem Step.mem_steps {table : Identifier → List Identifier} {declaration : Declaration}
    {step : Step} (h : step ∈ (declaration.steps table).value) :
    (∃ definition, step = .package definition)
      ∨ ∃ edit ∈ (declaration.script (declaration.ownIn table)).value, step = .edit edit := by
  cases hnamespace : declaration.isNamespace with
  | false =>
    rw [Declaration.steps_of_script hnamespace] at h
    obtain ⟨edit, hedit, rfl⟩ := List.mem_map.mp h
    exact .inr ⟨edit, hedit, rfl⟩
  | true =>
    cases declaration with
    | «namespace» path declarations =>
      cases path with
      | nil => cases h
      | cons segment rest => exact .inl ⟨_, List.mem_singleton.mp h⟩
    | _ => cases hnamespace

/-- The headers among the steps of a declaration: that of the class that it declares. -/
theorem Declaration.headed_steps {table : Identifier → List Identifier} {declaration : Declaration}
    (h : Faithful table declaration.className?
      (declaration.script (declaration.ownIn table)).value) :
    (declaration.steps table).value.filterMap Step.headed?
      = (declaration.className?.map Identifier.mk).toList := by
  cases hnamespace : declaration.isNamespace with
  | false =>
    rw [steps_of_script hnamespace, List.filterMap_map]
    exact h.headed
  | true =>
    cases declaration with
    | «namespace» path declarations => cases path <;> rfl
    | _ => cases hnamespace

/-- The headers among the steps of declarations: one for each class that is declared. -/
theorem headed_allSteps {table : Identifier → List Identifier} {declarations : List Declaration}
    (h : ∀ declaration ∈ declarations, Declaration.Faithful table declaration.className?
      (declaration.script (declaration.ownIn table)).value) :
    (Declaration.allSteps table declarations).value.filterMap Step.headed?
      = (declarations.filterMap Declaration.className?).map Identifier.mk := by
  induction declarations with
  | nil => rfl
  | cons declaration rest ih =>
    have hrest := ih fun other hother => h other (List.mem_cons_of_mem _ hother)
    simp only [Declaration.allSteps] at hrest ⊢
    rw [List.flatMap_cons, List.filterMap_append, hrest,
      Declaration.headed_steps (h declaration List.mem_cons_self)]
    cases hname : declaration.className? with
    | none => rw [List.filterMap_cons_none hname]; rfl
    | some name => rw [List.filterMap_cons_some hname]; rfl

/-- A class is given as many headers as there are steps that give it one. -/
theorem length_headers (steps : List Step) (name : Identifier) :
    ((steps.filterMap (Step.change? name)).filterMap ClassChange.header?).length
      = (steps.filterMap Step.headed?).count name := by
  induction steps with
  | nil => rfl
  | cons step rest ih =>
    cases step with
    | package definition => exact ih
    | edit made =>
      cases made with
      | onClass other change =>
        -- A change of another class counts on neither side.
        by_cases heq : other = name
        · subst heq
          rw [List.filterMap_cons_some
            (show Step.change? other (.edit (.onClass other change)) = some change from
              if_pos rfl)]
          cases change with
          | header new parents =>
            rw [List.filterMap_cons_some (show ClassChange.header? _ = some parents from rfl),
              List.filterMap_cons_some (show Step.headed? _ = some other from rfl),
              List.count_cons_self, List.length_cons, ih]
          | _ => exact ih
        · rw [List.filterMap_cons_none
            (show Step.change? name (.edit (.onClass other change)) = none from if_neg heq), ih]
          cases change with
          | header new parents =>
            rw [List.filterMap_cons_some (show Step.headed? _ = some other from rfl),
              List.count_cons_of_ne heq]
          | _ => rfl
      | _ => exact ih

/-- The steps of an unambiguous list are coherent. -/
theorem Unambiguous.coherent {declarations : List Declaration} (h : Unambiguous declarations) :
    Step.Coherent (tableOf declarations)
      (Declaration.allSteps (tableOf declarations) declarations).value := by
  have hfaithful : ∀ declaration ∈ declarations, Declaration.Faithful (tableOf declarations)
      declaration.className?
      (declaration.script (declaration.ownIn (tableOf declarations))).value :=
    fun declaration hd => Declaration.faithful_script
      (fun name own hown => (h.headed declaration hd name own hown).1) (h.members declaration hd)
  have hnodup : ∀ name, (tableOf declarations name).Nodup := by
    intro name
    rw [tableOf]
    cases hfound : declarations.findSome? (Declaration.headerOf? name) with
    | none => exact List.nodup_nil
    | some own =>
      obtain ⟨declaration, hd, hheader⟩ := List.exists_of_findSome?_eq_some hfound
      exact (h.headed declaration hd name own hheader).2
  -- Every step of the list is an edit of one of its declarations, or a package.
  have hstep : ∀ step ∈ (Declaration.allSteps (tableOf declarations) declarations).value,
      step.isNameless = false ∧ ∀ name change, step.change? name = some change →
        ∀ brought, change.own? = some brought → brought = tableOf declarations name := by
    intro step hstep
    obtain ⟨declaration, hd, hin⟩ := List.mem_flatMap.mp hstep
    rcases Step.mem_steps hin with ⟨definition, rfl⟩ | ⟨edit, hedit, rfl⟩
    · exact ⟨rfl, fun _ _ hchange => by cases hchange⟩
    · refine ⟨(hfaithful declaration hd).named edit hedit,
        fun name change hchange brought hown => ?_⟩
      cases edit with
      | onClass other made =>
        rw [Step.change?] at hchange
        split at hchange
        · rename_i heq
          cases hchange
          subst heq
          exact (hfaithful declaration hd).brought _ hedit (other, brought)
            (by rw [Edit.brought?, hown]; rfl)
        · cases hchange
      | _ => cases hchange
  refine ⟨fun name => ⟨hnodup name, ?_, ?_, ?_⟩, fun step hin => (hstep step hin).1⟩
  · intro change hchange
    obtain ⟨step, hin, hsome⟩ := List.mem_filterMap.mp hchange
    exact (hstep step hin).2 name change hsome
  · rw [length_headers, headed_allSteps hfaithful]
    have hnames : ((declarations.filterMap Declaration.className?).map Identifier.mk).Nodup := by
      rw [List.Nodup, List.pairwise_map]
      exact h.classes.imp fun hne heq => hne (congrArg Identifier.raw heq)
    exact List.nodup_iff_count.mp hnames name
  · intro change hchange
    obtain ⟨step, hin, hsome⟩ := List.mem_filterMap.mp hchange
    have hnamed := (hstep step hin).1
    cases step with
    | package definition => cases hsome
    | edit made =>
      cases made with
      | onClass other made =>
        rw [Step.change?] at hsome
        split at hsome <;> cases hsome
        exact hnamed
      | _ => cases hsome

/-! ### Documents -/

/-- An unambiguous list and any permutation of it make alike of an empty body, and with the same
warnings. -/
theorem Unambiguous.alike_addDeclarations {declarations declarations' : List Declaration}
    (h : Unambiguous declarations) (hperm : declarations.Perm declarations')
    (hpaths : ∀ declaration ∈ declarations,
      declaration.isNamespace = true → declaration.firstSegment?.isSome = true) :
    Body.Alike (addDeclarations declarations .empty).value
      (addDeclarations declarations' .empty).value
      ∧ (addDeclarations declarations .empty).warnings.Perm
        (addDeclarations declarations' .empty).warnings := by
  have hlinked : ∀ list, (addDeclarations list .empty).value.Linked := fun list =>
    ((reaches_addDeclarations list .empty).sound Body.sound_empty).linked
  have hfirst := addDeclarations_eq (ready_empty h (.refl _)) h.headed hpaths h.namespaces
  have hsecond := addDeclarations_eq (ready_empty h hperm) (h.headed.perm hperm)
    (fun declaration hd => hpaths declaration (hperm.mem_iff.mpr hd)) (h.perm hperm).namespaces
  have hlinked₁ := hlinked declarations
  have hlinked₂ := hlinked declarations'
  rw [hfirst] at hlinked₁ ⊢
  rw [hsecond] at hlinked₂ ⊢
  exact ⟨Step.alike_applyAll h.coherent (hperm.flatMap_right _) hlinked₁ hlinked₂,
    hperm.flatMap_right _⟩

/-- What is done in the innermost of the packages of a path shows in the outermost as it is. -/
theorem Body.alike_inPackages {f g : Body → Noted Body}
    (hvalue : Body.Alike (f .empty).value (g .empty).value)
    (hwarnings : (f .empty).warnings.Perm (g .empty).warnings) (isNamespace : Bool)
    (path : List Identifier) :
    Body.Alike (Body.empty.inPackages isNamespace f path).value
        (Body.empty.inPackages isNamespace g path).value
      ∧ (Body.empty.inPackages isNamespace f path).warnings.Perm
        (Body.empty.inPackages isNamespace g path).warnings := by
  induction path with
  | nil =>
    rw [inPackages_nil, inPackages_nil]
    exact ⟨hvalue, hwarnings⟩
  | cons name rest ih =>
    have hnew : Body.empty.view ⟨.package, some name⟩ = none := rfl
    have hempty : (Body.empty.packageOrNew name).body = .empty := rfl
    rw [inPackages_cons, inPackages_cons, hempty, fillPackage_of_new hnew, fillPackage_of_new hnew]
    refine ⟨.intro [(_, _)] (.refl _) (.refl _) fun pair hpair => ?_, ih.2⟩
    cases List.mem_singleton.mp hpair
    exact .package _ _ rfl rfl ih.1

/-- The warnings of a facade are those of its declarations, in order. -/
theorem Document.warnings_toPackage (document : Document) (path : DottedName) :
    (document.toPackage path).warnings
      = (Body.empty.inPackages false (addDeclarations document.declarations)
          path.segments).warnings :=
  List.append_nil _

/-- The order of the declarations of a file does not matter to its facade. If they are unambiguous,
any permutation of them makes the same packages under any output path, up to the order of the
definitions in each, and the same warnings, up to theirs. -/
theorem toPackage_alike_of_perm {text : String} {document : Document}
    (hparsed : Document.ofText text = .ok document) (h : Unambiguous document.declarations)
    {declarations : List Declaration} (hperm : document.declarations.Perm declarations)
    (lost : List LostRest) (path : DottedName) :
    Body.Alike (document.toPackage path).value.body
        (Document.toPackage ⟨declarations, lost⟩ path).value.body
      ∧ (document.toPackage path).warnings.Perm
        (Document.toPackage ⟨declarations, lost⟩ path).warnings := by
  obtain ⟨hvalue, hwarnings⟩ :=
    h.alike_addDeclarations hperm (Document.firstSegment?_ofText hparsed)
  obtain ⟨hbody, hnoted⟩ := Body.alike_inPackages hvalue hwarnings false path.segments
  refine ⟨hbody, ?_⟩
  rw [Document.warnings_toPackage, Document.warnings_toPackage]
  exact hnoted

/-- An interface and the variable that constructs it, in the two orders. -/
theorem toPackage_alike_of_perm_pair :
    Document.ofText "interface A {} var A: { new (): A };"
        = .ok ⟨[.interface "A" [] [] [],
            .variable "A" (some (.object [.construct ⟨[], [], some (.named ["A"] [])⟩]))], []⟩
      ∧ Body.Alike
        (Document.toPackage ⟨[.interface "A" [] [] [],
          .variable "A" (some (.object [.construct ⟨[], [], some (.named ["A"] [])⟩]))], []⟩
          ⟨[⟨"p"⟩]⟩).value.body
        (Document.toPackage ⟨[
          .variable "A" (some (.object [.construct ⟨[], [], some (.named ["A"] [])⟩])),
          .interface "A" [] [] []], []⟩ ⟨[⟨"p"⟩]⟩).value.body := by
  have hparsed : Document.ofText "interface A {} var A: { new (): A };"
      = .ok ⟨[.interface "A" [] [] [],
          .variable "A" (some (.object [.construct ⟨[], [], some (.named ["A"] [])⟩]))], []⟩ := by
    with_unfolding_all rfl
  refine ⟨hparsed, (toPackage_alike_of_perm hparsed ⟨?_, ?_, ?_, ?_⟩ (.swap _ _ _) [] _).1⟩
  · show ["A"].Nodup
    simp
  · simp [Declaration.className?, Declaration.typeParameters]
  · exact List.nodup_nil
  · simp [Declaration.members, Member.bare, Member.name?]

end Facade
