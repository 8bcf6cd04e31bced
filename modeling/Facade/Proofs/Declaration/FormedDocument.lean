import Facade.Proofs.Declaration.Contents
import Facade.Proofs.Declaration.Formed
import Facade.Proofs.Declaration.Respect.Declarations

/-!
# Documents as they are read

The shape of types and members goes on at declarations: their names are names, and none of the types
that they mention by themselves is a rest type. `Document.formed_ofText` says that every declaration
of a document that is read has this shape, and so has what is inside its namespaces
(`formed_allAtAnyDepth`).
-/

set_option autoImplicit false

namespace Facade

namespace Reader

/-- Nothing is asked of a semicolon. -/
theorem makes_optionalSemicolon : optionalSemicolon.Makes fun _ _ => True :=
  makes_bind (makes_accept _) fun _ _ _ => makes_pure fun _ => trivial

/-- The types behind a word keep to the shape, and none of them is a rest type. -/
theorem makes_typesAfter (w : Word) :
    (typesAfter w).Makes fun types _ =>
      everyType formed types ∧ ∀ type ∈ types, type.isRepeated = false :=
  makes_bind (makes_accept _) fun _ _ _ => makes_ite
    (fun _ => (makes_separated rfl readsTypes_typeReader.regular readsTypes_typeReader.makes).imp
      fun _ _ htypes => ⟨everyType_iff.mpr (htypes.forall fun _ _ htype => htype.every),
        htypes.forall fun _ _ htype => htype.isRepeated⟩)
    fun _ => makes_pure fun _ => ⟨trivial, fun _ hin => absurd hin List.not_mem_nil⟩

/-- A reader of declarations that keep to the shape. -/
def MakesFormed (reader : Reader Declaration) : Prop :=
  reader.Makes fun declaration _ => declaration.Every formed

/-- A variable keeps to the shape. -/
theorem makesFormed_variableBody : MakesFormed variableBody :=
  makes_bind makes_bindingName fun _ _ hname =>
    makes_bind (makes_typeAfter readsTypes_typeReader _) fun _ _ htype =>
      makes_bind makes_optionalSemicolon fun _ _ _ => makes_pure fun _ =>
        ⟨⟨hname, htype.2⟩, htype.1⟩

/-- So does a function. -/
theorem makesFormed_functionBody : MakesFormed functionBody :=
  makes_bind makes_bindingName fun _ _ hname =>
    makes_bind (makes_signature readsTypes_typeReader) fun _ _ hsignature =>
      makes_bind makes_optionalSemicolon fun _ _ _ => makes_pure fun _ => ⟨hname, hsignature⟩

/-- So does an interface. -/
theorem makesFormed_interfaceBody : MakesFormed interfaceBody :=
  makes_bind makes_bindingName fun _ _ hname =>
    makes_bind (makes_typeParameters readsTypes_typeReader) fun _ _ htypeParameters =>
      makes_bind (makes_typesAfter _) fun _ _ hparents =>
        makes_bind (makes_members readsTypes_typeReader) fun _ _ hmembers => makes_pure fun _ =>
          ⟨⟨hname, hparents.2⟩, htypeParameters, hparents.1, hmembers⟩

/-- So does a class. -/
theorem makesFormed_classBody : MakesFormed classBody :=
  makes_bind makes_bindingName fun _ _ hname =>
    makes_bind (makes_typeParameters readsTypes_typeReader) fun _ _ htypeParameters =>
      makes_bind (makes_typeAfter readsTypes_typeReader _) fun _ _ hparent =>
        makes_bind (makes_typesAfter _) fun _ _ hinterfaces =>
          makes_bind (makes_members readsTypes_typeReader) fun _ _ hmembers => makes_pure fun _ =>
            ⟨⟨hname, hparent.2, hinterfaces.2⟩, htypeParameters, hparent.1, hinterfaces.1, hmembers⟩

/-- So does an alias. -/
theorem makesFormed_aliasBody : MakesFormed aliasBody :=
  makes_bind makes_bindingName fun _ _ hname =>
    makes_bind (makes_typeParameters readsTypes_typeReader) fun _ _ htypeParameters =>
      makes_bind (makes_expect _) fun _ _ _ =>
        makes_bind readsTypes_typeReader.makes fun _ _ htype =>
          makes_bind makes_optionalSemicolon fun _ _ _ => makes_pure fun _ =>
            ⟨⟨hname, htype.isRepeated⟩, htypeParameters, htype.every⟩

/-- Declarations keep to the shape if each does. -/
theorem makes_declarations (stops : Option Lexeme → Bool) {declaration : Reader Declaration}
    (h : MakesFormed declaration) :
    (declarations stops declaration).Makes fun all _ => everyDeclaration formed all :=
  makes_recursive (makes_pure fun _ => trivial) fun _ hmore =>
    makes_bind (makes_look _) fun _ _ _ =>
      makes_ite (fun _ => makes_pure fun _ => trivial) fun _ =>
        makes_bind (makes_accept _) fun _ _ _ => makes_ite (fun _ => hmore) fun _ =>
          makes_bind h fun _ _ hfirst => makes_bind hmore fun _ _ hrest =>
            makes_pure fun _ => ⟨hfirst, hrest⟩

/-- So does a namespace, if its declarations do. -/
theorem makesFormed_namespaceBody {declaration : Reader Declaration} (h : MakesFormed declaration) :
    MakesFormed (namespaceBody declaration) := by
  refine makes_bind (makes_separated rfl (fun _ => Simulation.takes_bindingName.alike)
    makes_bindingName) fun path _ hpath => makes_bind (makes_expect _) fun _ _ _ =>
      makes_bind (makes_declarations _ h) fun _ _ hinner => makes_bind (makes_expect _) fun _ _ _ =>
        makes_pure fun _ => ⟨⟨?_, hpath.forall fun _ _ hname => hname⟩, hinner⟩
  obtain ⟨front, last, rfl, -⟩ := hpath
  exact List.append_ne_nil_of_right_ne_nil _ (List.cons_ne_nil last [])

/-- So does what stands behind modifiers. -/
theorem makesFormed_declarationBody {declaration : Reader Declaration}
    (h : MakesFormed declaration) : MakesFormed (declarationBody declaration) := by
  refine makes_bind (makes_look _) fun next _ _ => ?_
  split
  · exact makes_skip_bind makesFormed_variableBody
  · exact makes_skip_bind makesFormed_variableBody
  · exact makes_skip_bind makesFormed_variableBody
  · exact makes_skip_bind makesFormed_functionBody
  · exact makes_skip_bind makesFormed_interfaceBody
  · exact makes_skip_bind makesFormed_classBody
  · exact makes_bind (makes_look _) fun _ _ _ => makes_ite
      (fun _ => makes_skip_bind makesFormed_aliasBody) fun _ => makes_fail _ _
  · exact makes_skip_bind (makesFormed_namespaceBody h)
  · exact makes_skip_bind (makesFormed_namespaceBody h)
  · exact makes_fail _ _

/-- So does a statement that is kept as it is written. -/
theorem makesFormed_statement (text : List Char) (position : Nat) :
    MakesFormed (statement text position) := by
  intro stream hs reading hread
  obtain ⟨stop, rest, hsplit, rfl⟩ := statement_eq_ok.mp hread
  have hevery : (Declaration.unsupported (String.ofList (Text.slice text position stop))).Every
      formed := trivial
  exact ⟨hevery, hs.of_subset (Simulation.suffix_splitStatement hsplit).subset⟩

/-- Every declaration that is read keeps to the shape. -/
theorem makesFormed_declaration (text : List Char) : MakesFormed (declaration text) := by
  have hwords : Makes (take splitModifierWords) fun _ _ => True :=
    fun _ hs => ensures_take ⟨trivial, hs.of_subset (Simulation.suffix_splitModifierWords _).subset⟩
  exact makes_recursive (makes_fail _ _) fun _ hmore => makes_bind (makes_look _) fun _ _ _ =>
    makes_bind hwords fun _ _ _ => makes_ite (fun _ => makesFormed_statement _ _) fun _ =>
      makesFormed_declarationBody hmore

end Reader

/-- Every declaration of a document that is read is in shape. -/
theorem Document.formed_ofText {text : String} {document : Document}
    (h : Document.ofText text = .ok document) : everyDeclaration formed document.declarations := by
  obtain ⟨tokens, reading, htokens, hread, rfl⟩ := ofText_eq_ok.mp h
  have hscanned : Stream.Scanned ⟨tokens, text.utf8ByteSize⟩ := Token.scanned_scan htokens
  exact (Reader.makes_declarations _ (Reader.makesFormed_declaration _) _ hscanned reading hread).1

/-! ### The parts of a declaration -/

mutual

/-- What is asked of every node of declarations is asked of those inside namespaces. -/
theorem Declaration.every_atAnyDepth {check : Check} {declaration : Declaration}
    (h : declaration.Every check) : ∀ found ∈ declaration.atAnyDepth, found.Every check := by
  match declaration, h with
  | .namespace path declarations, h =>
    rw [Declaration.atAnyDepth]
    exact every_allAtAnyDepth h.2
  | .variable _ _, h | .function _ _, h | .interface _ _ _ _, h | .alias _ _ _, h
  | .class _ _ _ _ _, h | .unsupported _, h =>
    rw [Declaration.atAnyDepth]
    · exact List.forall_mem_singleton.mpr h
    · exact fun _ _ => Declaration.noConfusion

/-- If every declaration keeps to a check, so does every one inside of their namespaces. -/
theorem every_allAtAnyDepth {check : Check} {declarations : List Declaration}
    (h : everyDeclaration check declarations) :
    ∀ found ∈ allAtAnyDepth declarations, found.Every check := by
  match declarations, h with
  | [], _ => exact fun _ hin => absurd hin List.not_mem_nil
  | _ :: _, h =>
    rw [allAtAnyDepth, List.forall_mem_append]
    exact ⟨Declaration.every_atAnyDepth h.1, every_allAtAnyDepth h.2⟩

end

/-- If a member keeps to a check, so does the member without what marks it as static. -/
theorem Member.every_bare {check : Check} (member : Member) (h : member.Every check) :
    member.bare.Every check := by
  match member, h with
  | .static inner, h => exact inner.every_bare h.2
  | .call _, h | .construct _, h | .index _ _, h | .property _ _ _, h | .method _ _ _, h => exact h

/-- What is asked of every node of a declaration is asked of those in its members. -/
theorem Declaration.every_members {check : Check} {declaration : Declaration}
    (h : declaration.Every check) : ∀ member ∈ declaration.members, member.Every check := by
  have hall : ∀ {members : List Member}, everyMember check members →
      ∀ member ∈ members.map Member.bare, member.Every check := by
    intro members hmembers member hin
    obtain ⟨given, hgiven, rfl⟩ := List.mem_map.mp hin
    exact given.every_bare (everyMember_iff.mp hmembers given hgiven)
  cases declaration with
  | «variable» name type =>
    rcases type with - | type
    · exact fun _ hin => absurd hin List.not_mem_nil
    · cases type with
      | object members => exact hall h.2.2
      | _ => exact fun _ hin => absurd hin List.not_mem_nil
  | «interface» name typeParameters parents members => exact hall h.2.2.2
  | «alias» name typeParameters type =>
    cases type with
    | object members => exact hall h.2.2.2
    | _ => exact fun _ hin => absurd hin List.not_mem_nil
  | «class» name typeParameters parent interfaces members => exact hall h.2.2.2.2
  | function name signature => exact fun _ hin => absurd hin List.not_mem_nil
  | «namespace» path declarations => exact fun _ hin => absurd hin List.not_mem_nil
  | unsupported text => exact fun _ hin => absurd hin List.not_mem_nil

end Facade
