import Facade.Proofs.Translation.Conservation
import Facade.Proofs.Translation.Everywhere
import Mathlib.Algebra.Order.Group.Multiset

/-!
# Comments are reported

What has no counterpart in a facade is kept there as a comment, and a warning says so. The two are
made in different places: a comment stands in the body of whatever holds the declaration or the
member, and the warning goes to the end of the others. `comments_reported` compares both at the end
of a translation: the warnings of this kind are those of the comments, each as often as it is there,
and no other.

`Body.comments` is the multiset of the texts of all comments in a body, at any depth, and
`Edit.texts` the list of those that an edit adds (`Body.comments_apply`). A script reports the texts
of its edits in their order (`Declaration.reports_script`); `Reports` carries both from declaration
to declaration.
-/

set_option autoImplicit false

namespace Facade

/-! ### The comments of a facade -/

mutual

/-- The texts of the comments in a definition, itself included. -/
def Definition.comments : Definition → Multiset String
  | .comment text => {text}
  | .package definition => definition.comments
  | .class definition => definition.comments
  | .object definition => definition.comments
  | .field _ => 0
  | .method _ => 0

/-- The texts of the comments in a package. -/
def Package.comments : Package → Multiset String
  | ⟨_, _, body⟩ => body.comments

/-- The texts of the comments in a class. -/
def ClassDefinition.comments : ClassDefinition → Multiset String
  | ⟨_, _, _, _, _, body⟩ => body.comments

/-- The texts of the comments in an object. -/
def ObjectDefinition.comments : ObjectDefinition → Multiset String
  | ⟨_, _, body⟩ => body.comments

/-- The texts of the comments in a body, at any depth. -/
def Body.comments : Body → Multiset String
  | ⟨items, _⟩ => commentsOf items

/-- The texts of the comments in definitions, at any depth. -/
def commentsOf : List Definition → Multiset String
  | [] => 0
  | definition :: rest => definition.comments + commentsOf rest

end

/-- The comments in definitions are those of each of them. -/
theorem commentsOf_eq (definitions : List Definition) :
    commentsOf definitions = (definitions.map Definition.comments).sum := by
  induction definitions with
  | nil => rw [commentsOf]; rfl
  | cons definition rest ih => rw [commentsOf, ih, List.map_cons, List.sum_cons]

/-- The comments of a definition with a body are those of the body. -/
theorem Definition.comments_of_body? {definition : Definition} {body : Body}
    (h : definition.body? = some body) : definition.comments = body.comments := by
  rcases definition with _ | ⟨_, _, _⟩ | ⟨_, _, _, _, _, _⟩ | ⟨_, _, _⟩ | _ | _ <;> cases h
  · rw [comments, Package.comments]
  · rw [comments, ClassDefinition.comments]
  · rw [comments, ObjectDefinition.comments]

/-- A link holds no comment. -/
theorem Definition.comments_linkedTo (index : Nat) (definition : Definition) :
    (definition.linkedTo index).comments = definition.comments := by
  rcases definition with _ | _ | ⟨_, _, _, _, _, _⟩ | ⟨_, _, _⟩ | _ | _
  · rfl
  · rfl
  · rw [comments_of_body? rfl, comments_of_body? rfl]
  · rw [comments_of_body? rfl, comments_of_body? rfl]
  · rfl
  · rfl

/-- The comments in a package are those of its body. -/
theorem Package.comments_eq (package : Package) : package.comments = package.body.comments := by
  obtain ⟨_, _, _⟩ := package
  rw [comments]

namespace Body

/-- The comments in a body are a sum over its definitions. -/
theorem comments_eq (body : Body) : body.comments = body.total Definition.comments := by
  cases body
  rw [comments, commentsOf_eq]
  rfl

/-- There are no comments in an empty body. -/
@[simp] theorem comments_empty : empty.comments = 0 := by
  rw [comments_eq]
  rfl

/-- To open something adds no comment. -/
theorem Opens.comments {body : Body} {fresh : Definition} {opened : Nat × Body}
    (h : body.Opens fresh opened) : opened.2.comments = body.comments := by
  cases h with
  | found _ => rfl
  | @added definition _ hempty _ _ =>
    have hnone : definition.comments = 0 := by
      rw [Definition.comments_of_body? hempty, comments_empty]
    rw [comments_eq, comments_eq,
      total_enrol (fun index other => other.comments_linkedTo index), hnone, add_zero]

/-- What the body of a container gains, the body around it gains. -/
theorem comments_modify_body {body : Body} {index : Nat} {definition : Definition}
    {before after : Body} {texts : Multiset String} (hd : body.get? index = some definition)
    (hbefore : definition.body? = some before) {f : Definition → Definition}
    (hafter : (f definition).body? = some after)
    (hgain : after.comments = before.comments + texts) :
    (body.modify index f).comments = body.comments + texts := by
  have hcomments : (body.modify index f).total Definition.comments + definition.comments = _ :=
    total_modify hd f
  rw [← comments_eq, ← comments_eq, Definition.comments_of_body? hbefore,
    Definition.comments_of_body? hafter, hgain, add_comm before.comments,
    ← add_assoc] at hcomments
  exact add_right_cancel hcomments

end Body

/-! ### The comments that edits add -/

/-- The text of a comment. -/
def Entry.texts : Entry → List String
  | .comment text => [text]
  | _ => []

/-- The texts of the comments that an edit adds, in order. -/
def Edit.texts : Edit → List String
  | .here entry => entry.texts
  | .onClass _ change => (change.entry?.map Entry.texts).getD []
  | .object _ => []
  | .inObject _ entry => entry.texts

namespace Body

/-- An entry adds the comment that it is, if it is one. -/
theorem comments_enter (body : Body) (entry : Entry) :
    (body.enter entry).comments = body.comments + entry.texts := by
  have hentry : ((entry.definitions body.makeUpName.1).map Definition.comments).sum
      = (entry.texts : Multiset String) := by
    cases entry with
    | comment text => simp [Entry.definitions, Entry.texts, Definition.comments]
    | field name type => simp [Entry.definitions, Entry.texts, Definition.comments]
    | methods name typeParameters alternatives result =>
      simp [Entry.definitions, Entry.texts, Definition.comments, Function.comp_def]
  rw [comments_eq, comments_eq, total, total, enter, List.map_append, List.sum_append, hentry]

/-- An edit adds the comments with its texts, and no other. -/
theorem comments_apply (body : Body) (edit : Edit) :
    (edit.apply body).comments = body.comments + edit.texts := by
  cases edit with
  | here entry => exact body.comments_enter entry
  | onClass name change =>
    have hgain : (change.apply (body.classOrNew name)).body.comments
        = (body.classOrNew name).body.comments + (Edit.onClass name change).texts := by
      rw [change.body_apply_eq, Edit.texts]
      cases change.entry? with
      | none => simp
      | some entry => exact comments_enter _ entry
    rw [Edit.apply,
      comments_modify_body (get?_of_class? (body.openClass_class? name)) rfl rfl hgain,
      (body.opens_openClass name).comments]
  | object name => simp [Edit.apply, Edit.texts, (body.opens_openObject name).comments]
  | inObject name entry =>
    rw [Edit.apply, comments_modify_body (get?_of_object? (body.openObject_object? name)) rfl rfl
      (comments_enter _ entry), (body.opens_openObject name).comments, Edit.texts]

/-- Edits add the comments of each of them. -/
theorem comments_applyAll (edits : List Edit) (body : Body) :
    (Edit.applyAll edits body).comments
      = body.comments + (edits.flatMap Edit.texts : List String) := by
  induction edits generalizing body with
  | nil => simp
  | cons edit rest ih =>
    rw [Edit.applyAll_cons, ih, comments_apply, List.flatMap_cons, ← Multiset.coe_add, add_assoc]

/-- A body gains what a package in it gains. -/
theorem comments_fillPackage (body : Body) (name : Identifier) (isNamespace : Bool) {inner : Body}
    {texts : Multiset String}
    (hgain : inner.comments = (body.packageOrNew name).body.comments + texts) :
    (body.fillPackage name isNamespace inner).comments = body.comments + texts := by
  rw [fillPackage, comments_modify_body (get?_of_package? (body.openPackage_package? name)) rfl rfl
    hgain, (body.opens_openPackage name).comments]

end Body

/-! ### The comments that scripts report -/

namespace Noted

variable {α β : Type}

/-- The warnings of what could only be kept as a comment are those of the texts, in order. -/
def Reports (noted : Noted α) (texts : List String) : Prop :=
  noted.warnings.filter (·.kind = .unsupported) = texts.map Warning.keptAsComment

namespace Reports

/-- Two computations in a row report the comments of both. -/
theorem bind {first : Noted α} {next : α → Noted β} {front back : List String}
    (hfirst : first.Reports front) (hnext : (next first.value).Reports back) :
    (first >>= next).Reports (front ++ back) := by
  rw [Reports, warnings_bind, List.filter_append, hfirst, hnext, List.map_append]

/-- What follows from a value reports no more. -/
theorem map {noted : Noted α} {texts : List String} (h : noted.Reports texts) (f : α → β) :
    (do return f (← noted) : Noted β).Reports texts := by
  rw [bind_pure_eq]
  exact h

/-- Whatever is said less exactly is no comment. -/
theorem of_simplifies {noted : Noted α} (h : noted.Simplifies) : noted.Reports [] := by
  rw [Reports, List.map_nil, List.filter_eq_nil_iff]
  intro warning hin
  simp [h warning hin]

end Reports

end Noted

/-- A script reports the comments that its edits add. -/
def Noted.ReportsEdits (script : Noted (List Edit)) : Prop :=
  script.Reports (script.value.flatMap Edit.texts)

namespace Noted.ReportsEdits

/-- A script without edits reports no comments. -/
theorem nil : (Pure.pure [] : Noted (List Edit)).ReportsEdits := rfl

/-- An edit that adds no comment, from a value that cost no comment. -/
theorem single {α : Type} {noted : Noted α} (h : noted.Simplifies) {f : α → Edit}
    (hf : (f noted.value).texts = []) :
    (do return [f (← noted)] : Noted (List Edit)).ReportsEdits := by
  have htexts : [f noted.value].flatMap Edit.texts = [] := by simp [hf]
  rw [ReportsEdits, bind_pure_eq]
  show Reports _ ([f noted.value].flatMap Edit.texts)
  rw [htexts]
  exact .of_simplifies h

end Noted.ReportsEdits

/-- An edit of a holder adds the comments of its entry. -/
theorem Holder.texts_edit (holder : Holder) (name : Identifier) (entry : Entry) :
    (holder.edit name entry).texts = entry.texts := by
  cases holder <;> rfl

/-- What a holder keeps as a comment is reported. -/
theorem Holder.reports_keep (holder : Holder) (name : Identifier) (text : String) :
    (holder.keep name text).ReportsEdits := by
  cases holder <;> rfl

namespace Member

/-- The script of a member reports the comments that it adds, whoever holds it. -/
theorem reports_script (holder : Holder) (name : Identifier) (own : List Identifier)
    (member : Member) : (member.script holder name own).ReportsEdits := by
  cases member with
  | call signature =>
    exact .single (Entry.simplifies_ofSignature _ signature) (holder.texts_edit name _)
  | construct signature =>
    cases holder with
    | ofObject =>
      rw [script]
      split
      · exact .single (simplifies_constructorAlternatives name signature) rfl
      · exact Holder.ofObject.reports_keep name _
    | ofInterface => exact Holder.ofInterface.reports_keep name _
    | ofClass => exact .single (simplifies_constructorAlternatives name signature) rfl
  | index parameter type => exact holder.reports_keep name _
  | property word optional type =>
    rw [script]
    split
    -- The warning of a property that is skipped is of another kind.
    · rfl
    · exact .single (simplifies_toScalaOrAny type) (holder.texts_edit name _)
  | method word optional signature =>
    rw [script]
    split
    · exact .single (simplifies_constructorAlternatives name signature) rfl
    · exact .single (Entry.simplifies_ofSignature _ signature) (holder.texts_edit name _)
  | static inner =>
    rw [script]
    split
    -- To open the object adds no comment of its own.
    · exact (reports_script .ofObject name own inner).map (.object name :: ·)
    · exact reports_script holder name own inner

/-- The scripts of members report the comments that they add. -/
theorem reports_scripts (holder : Holder) (name : Identifier) (own : List Identifier)
    (members : List Member) : (scripts holder name own members).ReportsEdits := by
  induction members with
  | nil => exact .nil
  | cons member rest ih =>
    rw [scripts, Noted.ReportsEdits]
    show Noted.Reports _ ((_ ++ (scripts holder name own rest).value).flatMap Edit.texts)
    rw [List.flatMap_append]
    exact (reports_script holder name own member).bind (ih.map _)

end Member

/-- So does the script of a declaration of a class. -/
theorem reports_classScript (holder : Holder) (name : String) (typeParameters : List TypeParameter)
    (parents : List TypeExpr) (members : List Member) (own : List Identifier) :
    (classScript holder name typeParameters parents members own).ReportsEdits :=
  (Noted.Reports.of_simplifies (simplifies_toScalaAll parents)).bind
    ((Member.reports_scripts holder ⟨name⟩ own members).map _)

/-- The script of a declaration reports the comments that it adds. -/
theorem Declaration.reports_script (own : List Identifier) (declaration : Declaration) :
    (declaration.script own).ReportsEdits := by
  have hscripts := declaration.scripts_script own
  generalize declaration.script own = script at hscripts ⊢
  cases hscripts with
  | @field _ type _ => exact .single (simplifies_toScalaOrAny type) rfl
  | object name members => exact (Member.reports_scripts .ofObject ⟨name⟩ own members).map _
  | function name signature => exact .single (Entry.simplifies_ofSignature _ signature) rfl
  | «class» => exact reports_classScript _ _ _ _ _ own
  | comment => rfl
  | «namespace» => exact .nil

/-! ### Whole documents -/

/-- A computation adds comments to a body, and reports those. -/
def Reports (body : Body) (after : Noted Body) : Prop :=
  ∃ texts : List String, after.value.comments = body.comments + texts ∧ after.Reports texts

namespace Reports

/-- To do nothing adds no comments. -/
theorem refl (body : Body) : Reports body (pure body) :=
  ⟨[], (add_zero _).symm, rfl⟩

/-- Two computations in a row add the comments of both, and report them. -/
theorem trans {body : Body} {middle after : Noted Body} (h : Reports body middle)
    (h' : Reports middle.value after) :
    Reports body ⟨after.value, middle.warnings ++ after.warnings⟩ := by
  obtain ⟨front, hfront, hreported⟩ := h
  obtain ⟨back, hback, hreported'⟩ := h'
  refine ⟨front ++ back, ?_, ?_⟩
  · rw [hback, hfront, ← Multiset.coe_add, add_assoc]
  · show Noted.Reports (middle >>= fun _ => after) (front ++ back)
    exact hreported.bind hreported'

/-- What is reported inside the packages of a path is reported outside, too. -/
theorem inPackages {f : Body → Noted Body} (hf : ∀ body, Reports body (f body))
    (isNamespace : Bool) (path : List Identifier) (body : Body) :
    Reports body (body.inPackages isNamespace f path) := by
  induction path generalizing body with
  | nil =>
    rw [Body.inPackages_nil]
    exact hf body
  | cons name rest ih =>
    obtain ⟨texts, hgain, hreported⟩ := ih (body.packageOrNew name).body
    rw [Body.inPackages_cons]
    exact ⟨texts, body.comments_fillPackage name isNamespace hgain, hreported⟩

end Reports

/-- Declarations report the comments that they add. -/
theorem along_reports : Along fun _ body after => Reports body after where
  nil body := .refl body
  cons hfirst hrest := hfirst.trans hrest
  script {declaration} _ own body :=
    ⟨_, body.comments_applyAll _, declaration.reports_script own⟩
  inside _ _ _ hinner body := .inPackages hinner true _ body

/-- The warnings of what could only be kept as a comment are, one by one and each as often as it is
there, those of the comments of the facade: the warning of a comment quotes its text. -/
theorem comments_reported (document : Document) (path : DottedName) :
    ∃ texts : List String,
      ((document.toPackage path).warnings.filter (·.kind = .unsupported)).map Warning.message
          = texts.map (fun text => "`" ++ text ++ "` kept as a comment")
        ∧ (document.toPackage path).value.comments = texts := by
  obtain ⟨texts, hcomments, hreported⟩ :=
    Reports.inPackages (along_reports.addDeclarations document.declarations) false path.segments
      .empty
  have hwarnings : (document.toPackage path).Reports texts := hreported.map _
  refine ⟨texts, ?_, ?_⟩
  · rw [hwarnings, List.map_map]
    rfl
  · rw [Body.comments_empty, zero_add] at hcomments
    rw [Package.comments_eq]
    exact hcomments

end Facade
