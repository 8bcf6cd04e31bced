import Facade.Proofs.Translation.Steps

/-!
# What a declaration leaves alone

A declaration is added to a body that may hold anything. Of what is there, it changes the class and
the object of its own name at most, and a namespace the package of its first name. Everything else
stays as it is, at the same index, and nothing that was in a class or an object gets lost or moved.

`Body.KeepsBut` is the relation between two bodies that says so, with what may be changed left open.
Every edit keeps all but the class and the object that it is about (`Edit.keepsBut_apply`), and
`KeepsBut.trans` follows the edits of a script. A namespace changes a package by adding declarations
to the body inside, so the statement about it, `Declaration.Frame`, goes on inside.
-/

set_option autoImplicit false

namespace Facade

namespace Body

/-- What stands at an index still stands there, or something else does that may take its place. -/
def KeepsBut (allowed : Definition → Definition → Prop) (before after : Body) : Prop :=
  ∀ index old, before.get? index = some old →
    ∃ now, after.get? index = some now ∧ (now = old ∨ allowed old now)

end Body

namespace Definition

/-- A class or an object of a name, with more in its body. -/
inductive Extends (name : Option Identifier) : Definition → Definition → Prop where
  | class {old now : ClassDefinition} : name = some old.name → now.name = old.name →
      old.body.items <+: now.body.items → Extends name (.class old) (.class now)
  | object {old now : ObjectDefinition} : name = some old.name → now.name = old.name →
      old.body.items <+: now.body.items → Extends name (.object old) (.object now)

/-- A package of a name, with another body that is related to the old one. -/
inductive Refills (name : Identifier) (inner : Body → Body → Prop) :
    Definition → Definition → Prop where
  | package {old now : Package} : old.name = name → now.name = name →
      inner old.body now.body → Refills name inner (.package old) (.package now)

/-- What extends something that extends another extends that. -/
theorem extends_trans {name : Option Identifier} (first second third : Definition)
    (h : first.Extends name second) (h' : second.Extends name third) :
    first.Extends name third := by
  cases h with
  | «class» hname hsame hitems =>
    cases h' with
    | «class» _ hsame' hitems' => exact .class hname (hsame'.trans hsame) (hitems.trans hitems')
  | object hname hsame hitems =>
    cases h' with
    | object _ hsame' hitems' => exact .object hname (hsame'.trans hsame) (hitems.trans hitems')

end Definition

namespace Body

/-- The body inside the packages of a path is related to what it was before, if these packages were
there, and everything outside of them is as it was. -/
def KeepsAround (inner : Body → Body → Prop) : List Identifier → Body → Body → Prop
  | [] => inner
  | name :: rest => KeepsBut (Definition.Refills name (KeepsAround inner rest))

end Body

mutual

/-- What adding a declaration may do to a body. -/
def Declaration.Frame : Declaration → Body → Body → Prop
  | .namespace path declarations =>
    Body.KeepsAround (frameAll declarations) (path.map Identifier.mk)
  | declaration => Body.KeepsBut (Definition.Extends declaration.subject?)

/-- What adding declarations may do to a body, one after the other. -/
def frameAll : List Declaration → Body → Body → Prop
  | [] => fun before after => after = before
  | declaration :: rest => fun before after =>
    ∃ between, declaration.Frame before between ∧ frameAll rest between after

end

/-- A declaration other than a namespace extends the class and the object of its name at most. -/
theorem Declaration.frame_eq {declaration : Declaration}
    (hnamespace : declaration.isNamespace = false) :
    declaration.Frame = Body.KeepsBut (Definition.Extends declaration.subject?) := by
  cases declaration with
  | «namespace» path declarations => cases hnamespace
  | _ => simp only [Frame]

/-! ### Keeping all but some -/

namespace Body

variable {allowed : Definition → Definition → Prop}

namespace KeepsBut

/-- Everything stays in a body that is left as it is. -/
theorem refl (body : Body) : body.KeepsBut allowed body :=
  fun _ old h => ⟨old, h, .inl rfl⟩

/-- What stays twice stays. -/
theorem trans (htrans : ∀ first second third, allowed first second → allowed second third →
      allowed first third) {first second third : Body} (h : first.KeepsBut allowed second)
    (h' : second.KeepsBut allowed third) : first.KeepsBut allowed third := by
  intro index old hold
  obtain ⟨middle, hmiddle, hchange⟩ := h index old hold
  obtain ⟨now, hnow, hchange'⟩ := h' index middle hmiddle
  refine ⟨now, hnow, ?_⟩
  rcases hchange with rfl | hchange
  · exact hchange'
  · rcases hchange' with rfl | hchange'
    · exact .inr hchange
    · exact .inr (htrans old middle now hchange hchange')

/-- Less stays if more may take the place of something. -/
theorem mono {wider : Definition → Definition → Prop}
    (hwider : ∀ old now, allowed old now → wider old now) {before after : Body}
    (h : before.KeepsBut allowed after) : before.KeepsBut wider after := by
  intro index old hold
  obtain ⟨now, hnow, hchange⟩ := h index old hold
  exact ⟨now, hnow, hchange.imp_right (hwider old now)⟩

end KeepsBut

/-- What is added at the end changes nothing that is there. -/
theorem keepsBut_of_prefix {before after : Body} (h : before.items <+: after.items) :
    before.KeepsBut allowed after := by
  obtain ⟨more, hmore⟩ := h
  intro index old hold
  refine ⟨old, ?_, .inl rfl⟩
  rw [get?, ← hmore, List.getElem?_append_left (lt_size_of_get? hold)]
  exact hold

/-- A change at one index keeps everything else. -/
theorem keepsBut_modify {body : Body} {index : Nat} {f : Definition → Definition}
    (hf : ∀ definition, body.get? index = some definition →
      f definition = definition ∨ allowed definition (f definition)) :
    body.KeepsBut allowed (body.modify index f) := by
  intro position old hold
  rw [get?_modify, hold]
  by_cases hi : index = position
  · subst hi
    exact ⟨f old, if_pos rfl, hf old hold⟩
  · exact ⟨old, if_neg hi, .inl rfl⟩

/-- To open a class or an object changes its companion at most, and this only by a link. -/
theorem Opens.keepsBut {body : Body} {fresh : Definition} {opened : Nat × Body}
    (h : body.Opens fresh opened)
    (hallowed : ∀ old, fresh.label.partner? = some old.label →
      allowed old (old.linkedTo body.size)) : body.KeepsBut allowed opened.2 := by
  cases h with
  | found _ => exact .refl body
  | @added definition hfresh _ _ _ =>
    intro index old hold
    obtain ⟨now, hnow, -⟩ := (body.grows_enrol definition).get? hold
    refine ⟨now, hnow, ?_⟩
    -- What stands there now is new, or the partner with its link, or what it was.
    rcases get?_enrol hnow with ⟨rfl, -⟩ | ⟨found, hfound, hpartner, rfl⟩ | ⟨hsame, -⟩
    · exact absurd (lt_size_of_get? hold) (Nat.lt_irrefl _)
    · cases hold.symm.trans hfound
      obtain ⟨label, hlabel, hindex⟩ := Option.bind_eq_some_iff.mp hpartner
      obtain ⟨other, hother, rfl⟩ := get?_of_indexOf? hindex
      cases hold.symm.trans hother
      rw [← Definition.label_unlinked, hfresh] at hlabel
      exact .inr (hallowed old hlabel)
    · exact .inl (Option.some.inj (hsame.symm.trans hold))

end Body

/-! ### Edits and scripts -/

/-- A link takes nothing out of a class or an object. -/
theorem Definition.extends_linkedTo {name : Identifier} {label : Label} {old : Definition}
    (hlabel : label.name = some name) (hpartner : label.partner? = some old.label)
    (index : Nat) : old.Extends (some name) (old.linkedTo index) := by
  obtain ⟨kind, _⟩ := label
  cases hlabel
  cases old <;> cases kind <;> simp [label, Definition.kind, Label.partner?, name?] at hpartner
  · exact .class (congrArg some hpartner) rfl (List.prefix_refl _)
  · exact .object (congrArg some hpartner) rfl (List.prefix_refl _)

/-- An edit extends what it is about at most. -/
theorem Edit.keepsBut_apply (body : Body) (edit : Edit) :
    body.KeepsBut (Definition.Extends edit.subject?) (edit.apply body) := by
  cases edit with
  | here entry => exact Body.keepsBut_of_prefix (List.prefix_append _ _)
  | onClass name change =>
    -- To open the class may give a link to the object of its name; then the class is changed.
    have hopen : body.KeepsBut (Definition.Extends (some name)) (body.openClass name).2 :=
      (body.opens_openClass name).keepsBut fun old hold =>
        Definition.extends_linkedTo rfl hold body.size
    refine hopen.trans Definition.extends_trans (Body.keepsBut_modify fun definition hd => ?_)
    obtain ⟨found, hfound, rfl⟩ := body.openClass_index name
    cases hd.symm.trans hfound
    refine .inr (.class rfl (change.name_apply found) ?_)
    rcases change.body_apply found with hbody | ⟨entry, hbody⟩
    · exact hbody ▸ List.prefix_refl found.body.items
    · rw [hbody]
      exact List.prefix_append _ _
  | object name =>
    exact (body.opens_openObject name).keepsBut fun old hold =>
      Definition.extends_linkedTo rfl hold body.size
  | inObject name entry =>
    have hopen : body.KeepsBut (Definition.Extends (some name)) (body.openObject name).2 :=
      (body.opens_openObject name).keepsBut fun old hold =>
        Definition.extends_linkedTo rfl hold body.size
    refine hopen.trans Definition.extends_trans (Body.keepsBut_modify fun definition hd => ?_)
    obtain ⟨found, hfound, rfl⟩ := body.openObject_index name
    cases hd.symm.trans hfound
    exact .inr (.object rfl rfl (List.prefix_append _ _))

/-- Edits that are about a name, or about none, keep all but the class and object of that name. -/
theorem Edit.keepsBut_applyAll {name : Option Identifier} {edits : List Edit}
    (h : ∀ edit ∈ edits, edit.subject? = none ∨ edit.subject? = name) (body : Body) :
    body.KeepsBut (Definition.Extends name) (Edit.applyAll edits body) := by
  induction edits generalizing body with
  | nil => exact .refl body
  | cons edit rest ih =>
    rw [List.forall_mem_cons] at h
    have hstep : body.KeepsBut (Definition.Extends name) (edit.apply body) := by
      rcases h.1 with hsubject | hsubject
      -- Nothing extends what has no name, so an edit about none keeps everything.
      · refine (edit.keepsBut_apply body).mono fun old now hextends => ?_
        rw [hsubject] at hextends
        cases hextends <;> contradiction
      · exact hsubject ▸ edit.keepsBut_apply body
    exact hstep.trans Definition.extends_trans (ih h.2 (edit.apply body))

/-- Edits that are about no class or object add to the end. -/
theorem Edit.prefix_applyAll {edits : List Edit} (h : ∀ edit ∈ edits, edit.subject? = none)
    (body : Body) : body.items <+: (Edit.applyAll edits body).items := by
  induction edits generalizing body with
  | nil => exact List.prefix_refl _
  | cons edit rest ih =>
    rw [List.forall_mem_cons] at h
    have hstep : body.items <+: (edit.apply body).items := by
      cases edit with
      | here entry => exact List.prefix_append _ _
      | onClass | object | inObject => cases h.1
    exact hstep.trans (ih h.2 (edit.apply body))

/-! ### Packages -/

namespace Body

/-- To fill a package changes no other definition. -/
theorem keepsBut_fillPackage {body : Body} {name : Identifier} (isNamespace : Bool)
    {filling : Body} {inner : Body → Body → Prop}
    (h : inner (body.packageOrNew name).body filling) :
    body.KeepsBut (Definition.Refills name inner) (body.fillPackage name isNamespace filling) := by
  -- A package has no companion, so to open one changes nothing that is there.
  have hopen : body.KeepsBut (fun _ _ => False) (body.openPackage name).2 :=
    (body.opens_openPackage name).keepsBut fun old hold => by
      simp [Definition.label, Definition.kind, Label.partner?] at hold
  have hfill : (body.openPackage name).2.KeepsBut (Definition.Refills name inner)
      (body.fillPackage name isNamespace filling) := by
    refine keepsBut_modify fun definition hd => ?_
    cases hd.symm.trans (get?_of_package? (body.openPackage_package? name))
    exact .inr (.package (body.name_packageOrNew name) (body.name_packageOrNew name) h)
  intro index old hold
  obtain ⟨middle, hmiddle, rfl | hnone⟩ := hopen index old hold
  · exact hfill index middle hmiddle
  · exact hnone.elim

/-- What is done inside the packages of a path stays inside. -/
theorem keepsAround_inPackages {f : Body → Noted Body} {inner : Body → Body → Prop}
    (hf : ∀ body, inner body (f body).value) (isNamespace : Bool) (path : List Identifier)
    (body : Body) : body.KeepsAround inner path (body.inPackages isNamespace f path).value := by
  induction path generalizing body with
  | nil =>
    rw [inPackages_nil]
    exact hf body
  | cons name rest ih =>
    rw [inPackages_cons]
    exact keepsBut_fillPackage isNamespace (ih (body.packageOrNew name).body)

end Body

/-- One declaration does what adding it may do. -/
theorem frameAll_singleton {declaration : Declaration} {before after : Body} :
    frameAll [declaration] before after ↔ declaration.Frame before after := by
  rw [frameAll]
  constructor
  · rintro ⟨_, hframe, heq⟩
    rw [frameAll] at heq
    exact heq ▸ hframe
  · exact fun hframe => ⟨after, hframe, by rw [frameAll]⟩

/-- Declarations frame what they do, each its own part. -/
theorem along_frame : Along fun declarations before after =>
    frameAll declarations before after.value where
  nil body := by
    rw [frameAll]
    rfl
  cons hfirst hrest := by
    rw [frameAll]
    exact ⟨_, frameAll_singleton.mp hfirst, hrest⟩
  script {declaration} hnamespace own body := by
    rw [frameAll_singleton, declaration.frame_eq hnamespace]
    exact Edit.keepsBut_applyAll (declaration.subject_script own) body
  inside path declarations _ hinner body := by
    rw [frameAll_singleton, Declaration.Frame]
    exact Body.keepsAround_inPackages hinner true _ body

/-- A declaration changes nothing but what has its name, and adds to that only. One that is about no
class or object adds to the end of the body, unless it is a namespace. -/
theorem declaration_framed (declaration : Declaration) (later : List Declaration) (body : Body) :
    declaration.Frame body (declaration.addTo later body).value
      ∧ (declaration.isNamespace = false → declaration.subject? = none →
        body.items <+: (declaration.addTo later body).value.items) := by
  refine ⟨frameAll_singleton.mp (along_frame.addTo later declaration body),
    fun hnamespace hsubject => ?_⟩
  rw [declaration.addTo_eq later body hnamespace]
  refine Edit.prefix_applyAll (fun edit hedit => ?_) body
  rcases declaration.subject_script _ edit hedit with hnone | hsame
  · exact hnone
  · exact hsame.trans hsubject

end Facade
