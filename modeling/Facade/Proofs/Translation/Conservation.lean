import Facade.Proofs.Declaration.Contents
import Facade.Proofs.Definition.Count
import Facade.Proofs.Translation.Reach

/-!
# Nothing is lost and nothing is doubled

Every member of a document goes somewhere: into a class, an object, the class that an object is the
companion of, or a comment. `facade_accounts` compares what a document declares with what its facade
has, by counting both: fields, skipped properties, methods and comments come out as the declarations
say, at any depth of namespaces and whatever output path is chosen.

On the side of the facade, every edit adds what it weighs (`Edit.weight`) and nothing else
(`count_apply`); an edit that could not find its class or object would add less. On the side of the
document, `Declaration.atAnyDepth` and `Declaration.members` say what there is to translate. The
scripts are in between, and `Accounts` is the balance of a script: its three fields are the balances
of fields, of skipped properties, and of methods and comments together, because a construct
signature ends as either of those two. Balances add up (`Accounts.append`), so each is proved for
one member and for one declaration only.
-/

set_option autoImplicit false

namespace Facade

/-! ### What an edit adds -/

/-- The number of definitions of a kind in an entry. -/
def Entry.weight (kind : Kind) : Entry → Nat
  | .comment _ => if kind = .comment then 1 else 0
  | .field _ _ => if kind = .field then 1 else 0
  | .methods _ _ alternatives _ => if kind = .method then alternatives.length else 0

/-- The number of definitions of a kind that a change adds to a class. -/
def ClassChange.weight (kind : Kind) : ClassChange → Nat
  | .enter entry => entry.weight kind
  | .header _ _ => 0
  | .constructors alternatives => if kind = .method then alternatives.length else 0
  | .adopt _ alternatives => if kind = .method then alternatives.length else 0

/-- The number of definitions of a kind that an edit adds. -/
def Edit.weight (kind : Kind) : Edit → Nat
  | .here entry => entry.weight kind
  | .onClass _ change => change.weight kind
  | .object _ => 0
  | .inObject _ entry => entry.weight kind

/-- The number of definitions of a kind that edits add. -/
def Edit.totalWeight (kind : Kind) (edits : List Edit) : Nat :=
  (edits.map (Edit.weight kind)).sum

namespace Body

variable {kind : Kind}

/-- An entry adds as many definitions of a kind as it weighs. -/
theorem count_enter (body : Body) (entry : Entry) :
    (body.enter entry).count kind = body.count kind + entry.weight kind := by
  have hentry : ((entry.definitions body.makeUpName.1).map (Definition.count kind)).sum
      = entry.weight kind := by
    cases entry with
    | comment text => simp [Entry.definitions, Entry.weight, Definition.count]
    | field name type => simp [Entry.definitions, Entry.weight, Definition.count]
    | methods name typeParameters alternatives result =>
      induction alternatives with
      | nil => simp [Entry.definitions, Entry.weight]
      | cons parameters rest ih =>
        simp only [Entry.definitions, Entry.weight, List.map_cons, List.map_map, List.sum_cons,
          List.length_cons, Definition.count] at ih ⊢
        split <;> simp_all [Nat.add_comm]
  rw [count_eq, count_eq, total, total, enter, List.map_append, List.sum_append, hentry]

/-- A class gains what the change of it weighs. -/
theorem count_body_apply (change : ClassChange) (definition : ClassDefinition) :
    (change.apply definition).body.count kind
      = definition.body.count kind + change.weight kind := by
  cases change with
  | enter entry => exact count_enter definition.body entry
  | header typeParameters parents => rfl
  | constructors alternatives => exact count_enter definition.body _
  | adopt own alternatives => exact count_enter definition.body _

/-- An edit adds what it weighs, and nothing else. -/
theorem count_apply (hkind : kind.isLeaf = true) (body : Body) (edit : Edit) :
    (edit.apply body).count kind = body.count kind + edit.weight kind := by
  cases edit with
  | here entry => exact count_enter body entry
  | onClass name change =>
    have hcount := count_modify_body kind
      (get?_of_class? (body.openClass_class? name)) rfl (f := Definition.mapClass change.apply)
      rfl rfl
    -- The class gains what the change weighs, and to open it counts for nothing: it is no leaf.
    rw [count_body_apply, (body.opens_openClass name).count hkind] at hcount
    have hgain : (((Edit.onClass name change).apply body).count kind)
        + (body.classOrNew name).body.count kind = body.count kind
          + ((body.classOrNew name).body.count kind + change.weight kind) := hcount
    rw [Edit.weight]
    omega
  | object name => exact (body.opens_openObject name).count hkind
  | inObject name entry =>
    have hcount := count_modify_body kind
      (get?_of_object? (body.openObject_object? name)) rfl
      (f := Definition.mapBody fun inner => inner.enter entry) rfl rfl
    rw [count_enter, (body.opens_openObject name).count hkind] at hcount
    -- Subtraction is avoided: both sides count the old body of the object once.
    have hgain : (((Edit.inObject name entry).apply body).count kind)
        + (body.objectOrNew name).body.count kind = body.count kind
          + ((body.objectOrNew name).body.count kind + entry.weight kind) := hcount
    rw [Edit.weight]
    omega

/-- Edits add what they weigh together. -/
theorem count_applyAll (hkind : kind.isLeaf = true) (edits : List Edit) (body : Body) :
    (Edit.applyAll edits body).count kind = body.count kind + Edit.totalWeight kind edits := by
  induction edits generalizing body with
  | nil => rfl
  | cons edit rest ih =>
    rw [Edit.applyAll_cons, ih, count_apply hkind, Edit.totalWeight, Edit.totalWeight,
      List.map_cons, List.sum_cons, Nat.add_assoc]

/-- A body gains what the package it holds gains. -/
theorem count_fillPackage (hkind : kind.isLeaf = true) (body : Body) (name : Identifier)
    (isNamespace : Bool) (inner : Body) :
    (body.fillPackage name isNamespace inner).count kind
        + (body.packageOrNew name).body.count kind = body.count kind + inner.count kind := by
  rw [← (body.opens_openPackage name).count hkind]
  exact count_modify_body kind (get?_of_package? (body.openPackage_package? name)) rfl
    (f := Definition.mapPackage fun definition =>
      { definition with isNamespace := definition.isNamespace || isNamespace, body := inner })
    rfl rfl

end Body

/-! ### Warnings of types -/

/-- Whether all that is noted is said less exactly. -/
def Noted.Simplifies {α : Type} (noted : Noted α) : Prop :=
  ∀ warning ∈ noted.warnings, warning.kind = .simplified

namespace Noted.Simplifies

variable {α β : Type}

/-- A value by itself notes nothing. -/
theorem pure (a : α) : (Pure.pure a : Noted α).Simplifies := by
  simp [Simplifies]

/-- If both parts of a computation only simplify, so does the whole. -/
theorem bind {first : Noted α} {next : α → Noted β} (hfirst : first.Simplifies)
    (hnext : ∀ a, (next a).Simplifies) : (first >>= next).Simplifies := by
  intro warning hwarning
  rcases List.mem_append.mp hwarning with hin | hin
  · exact hfirst warning hin
  · exact hnext _ warning hin

/-- To note one simplification only simplifies. -/
theorem warn {warning : Warning} (h : warning.kind = .simplified) :
    (Noted.warn warning).Simplifies := by
  simpa [Simplifies, Noted.warn] using h

/-- A computation that only simplifies reports nothing as skipped. -/
theorem countP_skipped {noted : Noted α} (h : noted.Simplifies) :
    noted.warnings.countP (·.kind = .skipped) = 0 := by
  rw [List.countP_eq_zero]
  intro warning hwarning
  simp [h warning hwarning]

end Noted.Simplifies

/-- To widen a type only simplifies it. -/
theorem simplifies_widened (type : TypeExpr) : (widened type).Simplifies :=
  .bind (.warn rfl) fun _ => .pure _

mutual

/-- The translation of a type only simplifies. -/
theorem TypeExpr.simplifies_toScala (anyIsDynamic : Bool) (type : TypeExpr) :
    (type.toScala anyIsDynamic).Simplifies := by
  match type with
  | .primitive type => rw [TypeExpr.toScala]; exact .pure _
  | .named path arguments =>
    rw [TypeExpr.toScala]
    exact .bind (simplifies_toScalaAll arguments) fun _ => .pure _
  | .function ⟨typeParameters, parameters, result⟩ =>
    rw [TypeExpr.toScala]
    refine .bind (simplifies_parametersToScala parameters) fun types => ?_
    split
    · exact .bind (simplifies_toScalaOrAny result) fun _ => .pure _
    · exact .bind (.warn rfl) fun _ => .pure _
  | .repeated element =>
    rw [TypeExpr.toScala]
    exact .bind (element.simplifies_toScala false) fun _ => .pure _
  | .parenthesized inner => rw [TypeExpr.toScala]; exact inner.simplifies_toScala anyIsDynamic
  | .object members => rw [TypeExpr.toScala]; exact simplifies_widened _
  | .constructor signature => rw [TypeExpr.toScala]; exact simplifies_widened _
  | .union types => rw [TypeExpr.toScala]; exact simplifies_widened _
  | .intersection types => rw [TypeExpr.toScala]; exact simplifies_widened _
  | .tuple types => rw [TypeExpr.toScala]; exact simplifies_widened _
  | .literal text => rw [TypeExpr.toScala]; exact simplifies_widened _
  | .query path => rw [TypeExpr.toScala]; exact simplifies_widened _

/-- So does that of several types. -/
theorem simplifies_toScalaAll (types : List TypeExpr) : (toScalaAll types).Simplifies := by
  match types with
  | [] => rw [toScalaAll]; exact .pure _
  | type :: rest =>
    rw [toScalaAll]
    exact .bind (type.simplifies_toScala false) fun _ =>
      .bind (simplifies_toScalaAll rest) fun _ => .pure _

/-- So does that of a type that may be left out. -/
theorem simplifies_toScalaOrAny (type : Option TypeExpr) : (toScalaOrAny type).Simplifies := by
  match type with
  | none => rw [toScalaOrAny]; exact .pure _
  | some type => rw [toScalaOrAny]; exact type.simplifies_toScala false

/-- So does that of the parameters of a function type. -/
theorem simplifies_parametersToScala (parameters : List Parameter) :
    (parametersToScala parameters).Simplifies := by
  match parameters with
  | [] => rw [parametersToScala]; exact .pure _
  | ⟨_, _, type⟩ :: rest =>
    rw [parametersToScala]
    exact .bind (simplifies_toScalaOrAny type) fun _ =>
      .bind (simplifies_parametersToScala rest) fun _ => .pure _

end

/-- So does that of the type of a result. -/
theorem simplifies_toScalaOrDynamic (type : Option TypeExpr) :
    (toScalaOrDynamic type).Simplifies := by
  cases type with
  | none => exact .pure _
  | some type => exact type.simplifies_toScala true

/-- So does that of the parameters of a method. -/
theorem Parameter.simplifies_toMethods (parameters : List Parameter) :
    (Parameter.toMethods parameters).Simplifies := by
  induction parameters with
  | nil => exact .pure _
  | cons parameter rest ih =>
    exact .bind (simplifies_toScalaOrAny parameter.type) fun _ => .bind ih fun _ => .pure _

/-- So does that of a signature. -/
theorem Entry.simplifies_ofSignature (name : Option Identifier) (signature : Signature) :
    (Entry.ofSignature name signature).Simplifies :=
  .bind (Parameter.simplifies_toMethods signature.parameters) fun _ =>
    .bind (simplifies_toScalaOrDynamic signature.result) fun _ => .pure _

/-- So does that of the signature of a constructor. -/
theorem simplifies_constructorAlternatives (name : Identifier) (signature : Signature) :
    (constructorAlternatives name signature).Simplifies := by
  have hrest : (do return MethodParameter.alternatives (← Parameter.toMethods
      signature.parameters) : Noted _).Simplifies :=
    .bind (Parameter.simplifies_toMethods _) fun _ => .pure _
  unfold constructorAlternatives
  split
  · exact hrest
  · exact .bind (.warn rfl) fun _ => hrest

/-! ### Overloads -/

/-- A parameter of a method may be left out if it could in the signature. -/
theorem Parameter.optional_toMethods (parameters : List Parameter) :
    (Parameter.toMethods parameters).value.map (·.optional) = parameters.map (·.optional) := by
  induction parameters with
  | nil => rfl
  | cons parameter rest ih =>
    show _ :: (Parameter.toMethods rest).value.map (·.optional) = _
    rw [ih]
    rfl

/-- A signature becomes one method for each number of arguments that may be passed. -/
theorem Signature.length_alternatives (signature : Signature) :
    (MethodParameter.alternatives
      (Parameter.toMethods signature.parameters).value).length = signature.arities := by
  have htail : ∀ {α : Type} (optional : α → Bool) (parameters : List α),
      (parameters.reverse.takeWhile optional).length
        = ((parameters.map optional).reverse.takeWhile id).length := by
    intro α optional parameters
    rw [← List.map_reverse, List.takeWhile_map, List.length_map]
    rfl
  rw [MethodParameter.length_alternatives, MethodParameter.optionalTail, htail,
    Parameter.optional_toMethods, ← htail, Signature.arities, Nat.add_comm]

/-! ### Balances -/

/-- What declarations and members amount to is what a script adds and notes. -/
structure Accounts (declarations : List Declaration) (members : List Member)
    (weight : Kind → Nat) (warnings : List Warning) : Prop where
  fields : weight .field
    = declarations.countP Declaration.isPlainVariable + members.countP Member.isField
  skipped : warnings.countP (·.kind = .skipped) = members.countP Member.isPrototype
  constructs : ∃ accepted refused : List Signature,
    (accepted ++ refused).Perm (members.filterMap Member.construct?)
      ∧ weight .method = ((declarations.filterMap Declaration.function?
          ++ members.filterMap Member.callable? ++ accepted).map Signature.arities).sum
      ∧ weight .comment = declarations.countP Declaration.isPlainAlias
          + declarations.countP Declaration.isUnsupported + members.countP Member.isIndex
          + refused.length

namespace Accounts

/-- Nothing amounts to nothing. -/
theorem nil : Accounts [] [] (fun _ => 0) [] :=
  ⟨rfl, rfl, [], [], .refl _, rfl, rfl⟩

/-- Balances add up. -/
theorem append {first second : List Declaration} {front back : List Member}
    {weight weight' : Kind → Nat} {warnings warnings' : List Warning}
    (h : Accounts first front weight warnings) (h' : Accounts second back weight' warnings') :
    Accounts (first ++ second) (front ++ back) (fun kind => weight kind + weight' kind)
      (warnings ++ warnings') := by
  obtain ⟨accepted, refused, hperm, hmethods, hcomments⟩ := h.constructs
  obtain ⟨accepted', refused', hperm', hmethods', hcomments'⟩ := h'.constructs
  refine ⟨?_, ?_, accepted ++ accepted', refused ++ refused', ?_, ?_, ?_⟩
  · rw [h.fields, h'.fields, List.countP_append, List.countP_append]
    omega
  · rw [List.countP_append, h.skipped, h'.skipped, List.countP_append]
  · rw [List.filterMap_append]
    refine List.Perm.trans ?_ (hperm.append hperm')
    rw [List.append_assoc, List.append_assoc]
    refine List.Perm.append_left accepted ?_
    rw [← List.append_assoc, ← List.append_assoc]
    exact List.perm_append_comm.append_right refused'
  · simp only [hmethods, hmethods', List.filterMap_append, List.map_append, List.sum_append]
    omega
  · simp only [hcomments, hcomments', List.countP_append, List.length_append]
    omega

end Accounts

/-- The balance of a script. -/
def Noted.Accounts (declarations : List Declaration) (members : List Member)
    (script : Noted (List Edit)) : Prop :=
  Facade.Accounts declarations members (fun kind => Edit.totalWeight kind script.value)
    script.warnings

/-- An entry weighs the same in a class and in an object. -/
theorem Holder.weight_edit (kind : Kind) (holder : Holder) (name : Identifier) (entry : Entry) :
    (holder.edit name entry).weight kind = entry.weight kind := by
  cases holder <;> rfl

/-- A script of one edit. -/
theorem Noted.accounts_single {declarations : List Declaration} {members : List Member}
    {edit : Edit} {warnings : List Warning}
    (h : Facade.Accounts declarations members (edit.weight ·) warnings) :
    Noted.Accounts declarations members ⟨[edit], warnings⟩ := by
  have hweight : (fun kind => Edit.totalWeight kind [edit]) = (edit.weight ·) := by
    funext kind
    simp [Edit.totalWeight]
  rw [Noted.Accounts, hweight]
  exact h

/-- One script after the other. -/
theorem Noted.accounts_append {first second : List Declaration} {front back : List Member}
    {script script' : Noted (List Edit)} (h : script.Accounts first front)
    (h' : script'.Accounts second back) :
    Noted.Accounts (first ++ second) (front ++ back)
      ⟨script.value ++ script'.value, script.warnings ++ script'.warnings⟩ := by
  have hweight : (fun kind => Edit.totalWeight kind (script.value ++ script'.value))
      = fun kind => Edit.totalWeight kind script.value + Edit.totalWeight kind script'.value := by
    funext kind
    simp [Edit.totalWeight]
  rw [Noted.Accounts, hweight]
  exact h.append h'

/-! ### Members -/

/-- A signature weighs a method for each number of parameters it may be called with. -/
theorem Entry.weight_ofSignature (kind : Kind) (word : Option Identifier)
    (signature : Signature) : (Entry.ofSignature word signature).value.weight kind
      = if kind = .method then signature.arities else 0 := by
  rw [← signature.length_alternatives]
  rfl

/-- A constructor comes with an alternative for each number of parameters. -/
theorem length_constructorAlternatives (name : Identifier) (signature : Signature) :
    (constructorAlternatives name signature).value.length = signature.arities := by
  rw [← signature.length_alternatives]
  unfold constructorAlternatives
  cases signature.typeParameters.isEmpty <;> rfl

namespace Member

/-- A method or a call becomes methods. -/
theorem accounts_callable {member : Member} {signature : Signature}
    (h : member.callable? = some signature) (holder : Holder) (name : Identifier)
    (word : Option Identifier) :
    Noted.Accounts [] [member] (do
      return [holder.edit name (← Entry.ofSignature word signature)]) := by
  have hother : member.isField = false ∧ member.isPrototype = false ∧ member.isIndex = false
      ∧ member.construct? = none := by
    cases member <;> simp [callable?] at h <;> simp [isField, isPrototype, isIndex, construct?]
  obtain ⟨hfield, hprototype, hindex, hconstruct⟩ := hother
  rw [Noted.bind_pure_eq]
  refine Noted.accounts_single ⟨?_, ?_, [], [], ?_, ?_, ?_⟩
  · simp [Holder.weight_edit, Entry.weight_ofSignature, hfield]
  · rw [(Entry.simplifies_ofSignature word signature).countP_skipped]
    simp [hprototype]
  · simp [hconstruct]
  · simp [Holder.weight_edit, Entry.weight_ofSignature, h]
  · simp [Holder.weight_edit, Entry.weight_ofSignature, hindex]

/-- Constructors come of a construct signature that is accepted, or of a method. -/
theorem accounts_constructors {member : Member} {signature : Signature}
    (h : member = .construct signature ∨ member.callable? = some signature)
    {name : Identifier} {change : List (List MethodParameter) → ClassChange}
    (hchange : ∀ kind alternatives, (change alternatives).weight kind
      = if kind = .method then alternatives.length else 0) :
    Noted.Accounts [] [member] (do
      return [.onClass name (change (← constructorAlternatives name signature))]) := by
  have hother : member.isField = false ∧ member.isPrototype = false ∧ member.isIndex = false := by
    rcases h with rfl | h
    · exact ⟨rfl, rfl, rfl⟩
    · cases member <;> simp [callable?] at h <;> simp [isField, isPrototype, isIndex]
  obtain ⟨hfield, hprototype, hindex⟩ := hother
  have haccepted : ∃ accepted : List Signature,
      accepted.Perm ([member].filterMap construct?)
        ∧ signature.arities
          = (([member].filterMap callable? ++ accepted).map Signature.arities).sum := by
    rcases h with rfl | h
    · exact ⟨[signature], .refl _, rfl⟩
    · refine ⟨[], ?_, by simp [h]⟩
      cases member <;> simp [callable?] at h <;> exact .refl _
  -- Nothing is refused here, so the second list of construct signatures is empty.
  obtain ⟨accepted, hperm, hmethods⟩ := haccepted
  rw [Noted.bind_pure_eq]
  refine Noted.accounts_single ⟨?_, ?_, accepted, [], ?_, ?_, ?_⟩
  · simp [Edit.weight, hchange, hfield]
  · rw [(simplifies_constructorAlternatives name signature).countP_skipped]
    simp [hprototype]
  · rwa [List.append_nil]
  · simp only [Edit.weight, hchange, length_constructorAlternatives, if_true, hmethods]
    rfl
  · simp [Edit.weight, hchange, hindex]

/-- A construct signature that is refused becomes a comment, and so does an index. -/
theorem accounts_keep {member : Member} (h : (∃ signature, member = .construct signature)
      ∨ ∃ parameter type, member = .index parameter type)
    (holder : Holder) (name : Identifier) (text : String) :
    Noted.Accounts [] [member] (holder.keep name text) := by
  show Noted.Accounts [] [member] ⟨[holder.edit name (.comment text)], [.keptAsComment text]⟩
  refine Noted.accounts_single ?_
  rcases h with ⟨signature, rfl⟩ | ⟨parameter, type, rfl⟩
  · exact ⟨by simp [Holder.weight_edit, Entry.weight, isField], rfl, [], [signature],
      .refl _, by simp [Holder.weight_edit, Entry.weight]; rfl,
      by simp [Holder.weight_edit, Entry.weight, isIndex]⟩
  · exact ⟨by simp [Holder.weight_edit, Entry.weight, isField], rfl, [], [],
      .refl _, by simp [Holder.weight_edit, Entry.weight]; rfl,
      by simp [Holder.weight_edit, Entry.weight, isIndex]⟩

/-- The property that is skipped is noted and adds nothing. -/
theorem accounts_prototype (optional : Bool) (type : Option TypeExpr) (text : String)
    (h : (text == "prototype") = true) :
    Noted.Accounts [] [.property text optional type]
      ⟨[], [.skippedProperty (.property text optional type)]⟩ := by
  refine ⟨?_, ?_, [], [], .refl _, rfl, rfl⟩
  · simp [Edit.totalWeight, isField, bne, h]
  · simp [isPrototype, h, Warning.kind]

/-- Any other property becomes a field. -/
theorem accounts_property (optional : Bool) (type : Option TypeExpr) (text : String)
    (h : (text == "prototype") = false) (holder : Holder) (name : Identifier)
    (word : Option Identifier) :
    Noted.Accounts [] [.property text optional type] (do
      return [holder.edit name (.field word (← toScalaOrAny type))]) := by
  rw [Noted.bind_pure_eq]
  refine Noted.accounts_single ⟨?_, ?_, [], [], .refl _, ?_, ?_⟩
  · simp [Holder.weight_edit, Entry.weight, isField, bne, h]
  · rw [(simplifies_toScalaOrAny type).countP_skipped]
    simp [isPrototype, h]
  · simp [Holder.weight_edit, Entry.weight]
    rfl
  · simp [Holder.weight_edit, Entry.weight, isIndex]

/-- The script of a member accounts for the member, whoever holds it. -/
theorem accounts_script (holder : Holder) (name : Identifier) (own : List Identifier)
    (member : Member) : (member.script holder name own).Accounts [] [member.bare] := by
  cases member with
  | call signature => exact accounts_callable rfl holder name _
  -- An object type takes the signature over only if it makes the type of the same name; what is
  -- not taken over is kept as a comment.
  | construct signature =>
    cases holder with
    | ofObject =>
      rw [script]
      split
      · exact accounts_constructors (.inl rfl) fun _ _ => rfl
      · exact accounts_keep (.inl ⟨signature, rfl⟩) .ofObject name _
    | ofInterface => exact accounts_keep (.inl ⟨signature, rfl⟩) .ofInterface name _
    | ofClass => exact accounts_constructors (.inl rfl) fun _ _ => rfl
  | index parameter type => exact accounts_keep (.inr ⟨parameter, type, rfl⟩) holder name _
  | property word optional type =>
    rw [script]
    cases hskipped : word == "prototype" with
    | true => exact accounts_prototype optional type word hskipped
    | false => exact accounts_property optional type word hskipped holder name _
  | method word optional signature =>
    rw [script]
    split
    · exact accounts_constructors (.inr rfl) fun _ _ => rfl
    · exact accounts_callable rfl holder name _
  | static inner =>
    rw [script]
    split
    · rw [Noted.bind_pure_eq]
      have hinner := accounts_script .ofObject name own inner
      have hobject : Noted.Accounts [] [] ⟨[.object name], []⟩ := .nil
      exact Noted.accounts_append hobject hinner
    · exact accounts_script holder name own inner

/-- The scripts of members account for all of them. -/
theorem accounts_scripts (holder : Holder) (name : Identifier) (own : List Identifier)
    (members : List Member) :
    (scripts holder name own members).Accounts [] (members.map bare) := by
  induction members with
  | nil => exact .nil
  | cons member rest ih =>
    have hboth := Noted.accounts_append (accounts_script holder name own member) ih
    rw [scripts]
    show Noted.Accounts [] _ ⟨_, _ ++ (_ ++ [])⟩
    rw [List.append_nil]
    exact hboth

end Member

/-! ### Declarations -/

/-- A declaration that is none of those that are counted one by one. -/
theorem accounts_classScript {declaration : Declaration} {holder : Holder} {name : String}
    {typeParameters : List TypeParameter} {parents : List TypeExpr} {members : List Member}
    (h : declaration.DeclaresClass holder name typeParameters parents members)
    (own : List Identifier) :
    (classScript holder name typeParameters parents members own).Accounts [declaration]
      declaration.members := by
  obtain ⟨hvariable, halias, hunsupported, hfunction⟩ :
      declaration.isPlainVariable = false ∧ declaration.isPlainAlias = false
        ∧ declaration.isUnsupported = false ∧ declaration.function? = none := by
    cases h <;> exact ⟨rfl, rfl, rfl, rfl⟩
  have hheader : Noted.Accounts [declaration] [] ⟨[.onClass ⟨name⟩ (.header
      (TypeParameter.identifiers typeParameters) (toScalaAll parents).value)],
      (toScalaAll parents).warnings⟩ := by
    refine ⟨?_, (simplifies_toScalaAll parents).countP_skipped, [], [], .refl _, ?_, ?_⟩
    · simp [Edit.totalWeight, Edit.weight, ClassChange.weight, hvariable]
    · simp [Edit.totalWeight, Edit.weight, ClassChange.weight, hfunction]
    · simp [Edit.totalWeight, Edit.weight, ClassChange.weight, halias, hunsupported]
  have hboth := Noted.accounts_append hheader
    (Member.accounts_scripts holder ⟨name⟩ own members)
  rw [h.members_eq]
  unfold classScript
  show Noted.Accounts _ _ ⟨_, _ ++ (_ ++ [])⟩
  rw [List.append_nil]
  exact hboth

/-- An alias or an unsupported statement that is kept as a comment. -/
theorem accounts_comment {declaration : Declaration} (text : String)
    (h : declaration.isComment = true) : Noted.Accounts [declaration] declaration.members
      ⟨[.here (.comment text)], [.keptAsComment text]⟩ := by
  obtain ⟨hmembers, hvariable, hfunction, hkept⟩ :
      declaration.members = [] ∧ declaration.isPlainVariable = false
        ∧ declaration.function? = none
        ∧ declaration.isPlainAlias = !declaration.isUnsupported := by
    cases declaration with
    | «alias» name typeParameters type =>
      cases type <;> first | exact ⟨rfl, rfl, rfl, rfl⟩ | cases h
    | unsupported text => exact ⟨rfl, rfl, rfl, rfl⟩
    | _ => cases h
  rw [hmembers]
  refine Noted.accounts_single ⟨?_, rfl, [], [], .refl _, ?_, ?_⟩
  · simp [Edit.weight, Entry.weight, hvariable]
  · simp [Edit.weight, Entry.weight, hfunction]
  · cases hunsupported : declaration.isUnsupported <;>
      simp [Edit.weight, Entry.weight, hkept, hunsupported]

/-- A variable that becomes a field. -/
theorem accounts_variable {name : String} {type : Option TypeExpr}
    (hvariable : (Declaration.variable name type).isPlainVariable = true) :
    Noted.Accounts [.variable name type] (Declaration.variable name type).members (do
      return [.here (.field (some ⟨name⟩) (← toScalaOrAny type))]) := by
  have hmembers : (Declaration.variable name type).members = [] := by
    rcases type with - | type
    · rfl
    · cases type <;> first | rfl | cases hvariable
  rw [Noted.bind_pure_eq, hmembers]
  refine Noted.accounts_single
    ⟨?_, (simplifies_toScalaOrAny type).countP_skipped, [], [], .refl _, rfl, rfl⟩
  simp [Edit.weight, Entry.weight, hvariable]

/-- A function amounts to the methods of its signature. -/
theorem accounts_function (name : String) (signature : Signature) :
    Noted.Accounts [.function name signature] [] (do
      return [.here (← Entry.ofSignature (some ⟨name⟩) signature)]) := by
  rw [Noted.bind_pure_eq]
  refine Noted.accounts_single ⟨?_, (Entry.simplifies_ofSignature _ signature).countP_skipped,
    [], [], .refl _, ?_, ?_⟩
  · simp [Edit.weight, Entry.weight_ofSignature, Declaration.isPlainVariable]
  · simp [Edit.weight, Entry.weight_ofSignature, Declaration.function?]
  · simp [Edit.weight, Entry.weight_ofSignature, Declaration.isPlainAlias,
      Declaration.isUnsupported]

/-- A variable of an object type: the object is opened, and its members are accounted for. -/
theorem accounts_object (name : String) (members : List Member) (own : List Identifier) :
    ((Declaration.variable name (some (.object members))).script own).Accounts
      [.variable name (some (.object members))] (members.map Member.bare) := by
  rw [Declaration.script, Noted.bind_pure_eq]
  have hobject : Noted.Accounts [.variable name (some (.object members))] []
      ⟨[.object ⟨name⟩], []⟩ :=
    ⟨rfl, rfl, [], [], .refl _, rfl, rfl⟩
  exact Noted.accounts_append hobject (Member.accounts_scripts .ofObject ⟨name⟩ own members)

/-- The script of a declaration accounts for it and its members. -/
theorem Declaration.accounts_script (own : List Identifier) (declaration : Declaration)
    (hnamespace : declaration.isNamespace = false) :
    (declaration.script own).Accounts [declaration] declaration.members := by
  have hscripts := declaration.scripts_script own
  generalize declaration.script own = script at hscripts ⊢
  cases hscripts with
  | field hvariable => exact accounts_variable hvariable
  | object name members => exact accounts_object name members own
  | function name signature => exact accounts_function name signature
  | «class» hclass => exact accounts_classScript hclass own
  | comment text hkept => exact accounts_comment text hkept
  | «namespace» => cases hnamespace

/-! ### Whole documents -/

/-- What a computation adds to a body, and what it notes, is what declarations and members amount
to. -/
def Gains (declarations : List Declaration) (members : List Member) (body : Body)
    (after : Noted Body) : Prop :=
  ∃ weight : Kind → Nat,
    (∀ kind : Kind, kind.isLeaf = true → after.value.count kind = body.count kind + weight kind)
      ∧ Accounts declarations members weight after.warnings

/-- To do nothing gains nothing. -/
theorem Gains.refl (body : Body) : Gains [] [] body (pure body) :=
  ⟨fun _ => 0, fun _ _ => rfl, .nil⟩

/-- Two computations in a row gain what both gain. -/
theorem Gains.trans {first second : List Declaration} {front back : List Member} {body : Body}
    {middle after : Noted Body} (h : Gains first front body middle)
    (h' : Gains second back middle.value after) :
    Gains (first ++ second) (front ++ back) body
      ⟨after.value, middle.warnings ++ after.warnings⟩ := by
  obtain ⟨weight, hcount, haccounts⟩ := h
  obtain ⟨weight', hcount', haccounts'⟩ := h'
  refine ⟨fun kind => weight kind + weight' kind, fun kind hkind => ?_,
    haccounts.append haccounts'⟩
  rw [hcount' kind hkind, hcount kind hkind, Nat.add_assoc]

/-- What is gained inside the packages of a path is gained outside, too. -/
theorem Gains.inPackages {declarations : List Declaration} {members : List Member}
    {f : Body → Noted Body} (hf : ∀ body, Gains declarations members body (f body))
    (isNamespace : Bool) (path : List Identifier) (body : Body) :
    Gains declarations members body (body.inPackages isNamespace f path) := by
  induction path generalizing body with
  | nil =>
    rw [Body.inPackages_nil]
    exact hf body
  | cons name rest ih =>
    obtain ⟨weight, hcount, haccounts⟩ := ih (body.packageOrNew name).body
    rw [Body.inPackages_cons]
    refine ⟨weight, fun kind hkind => ?_, haccounts⟩
    have hfill := Body.count_fillPackage hkind body name isNamespace
      ((body.packageOrNew name).body.inPackages isNamespace f rest).value
    rw [hcount kind hkind] at hfill
    show (body.fillPackage name isNamespace _).count kind = _
    omega

/-- What declarations gain is what they and their members amount to, at any depth. -/
theorem along_gains : Along fun declarations body after =>
    Gains (allAtAnyDepth declarations)
      ((allAtAnyDepth declarations).flatMap Declaration.members) body after where
  nil body := .refl body
  cons hfirst hrest := by
    rw [allAtAnyDepth_cons, List.flatMap_append]
    exact hfirst.trans hrest
  script {declaration} hnamespace own body := by
    rw [allAtAnyDepth_singleton, Declaration.atAnyDepth_eq hnamespace, List.flatMap_singleton]
    exact ⟨fun kind => Edit.totalWeight kind _,
      fun kind hkind => Body.count_applyAll hkind _ body,
      declaration.accounts_script own hnamespace⟩
  inside path declarations _ hinner body := by
    rw [allAtAnyDepth_singleton, Declaration.atAnyDepth]
    exact .inPackages hinner true _ body

/-- The facade of a document has as many fields, methods and comments, and its translation skips as
many properties, as the declarations of the document and their members amount to. Of the construct
signatures, those that are accepted become methods and the others comments. -/
theorem facade_accounts (document : Document) (path : DottedName) :
    let declared := allAtAnyDepth document.declarations
    let members := declared.flatMap Declaration.members
    let facade := document.toPackage path
    facade.value.count .field
        = declared.countP Declaration.isPlainVariable + members.countP Member.isField
      ∧ facade.warnings.countP (·.kind = .skipped) = members.countP Member.isPrototype
      ∧ ∃ accepted refused : List Signature,
        (accepted ++ refused).Perm (members.filterMap Member.construct?)
          ∧ facade.value.count .method = ((declared.filterMap Declaration.function?
              ++ members.filterMap Member.callable? ++ accepted).map Signature.arities).sum
          ∧ facade.value.count .comment = declared.countP Declaration.isPlainAlias
              + declared.countP Declaration.isUnsupported + members.countP Member.isIndex
              + refused.length := by
  intro declared members facade
  obtain ⟨weight, hcount, haccounts⟩ := Gains.inPackages
    (along_gains.addDeclarations document.declarations) false path.segments .empty
  -- The facade is the root package of what was filled into an empty body.
  have hfacade : ∀ kind : Kind, kind.isLeaf = true → facade.value.count kind = weight kind := by
    intro kind hkind
    have hempty : Body.empty.count kind = 0 := by
      rw [Body.count_eq]
      rfl
    have hroot : ∀ root : Package, root.count kind = root.body.count kind := by
      rintro ⟨name, isNamespace, body⟩
      rw [Package.count]
    rw [hroot, ← Nat.zero_add (weight kind), ← hempty]
    exact hcount kind hkind
  have hwarnings : facade.warnings = _ := List.append_nil _
  rw [hfacade .field rfl, hfacade .method rfl, hfacade .comment rfl, hwarnings]
  exact ⟨haccounts.fields, haccounts.skipped, haccounts.constructs⟩

end Facade
