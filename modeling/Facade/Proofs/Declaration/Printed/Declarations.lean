import Facade.Proofs.Declaration.Printed.Kept
import Facade.Proofs.Declaration.Printed.Types

/-!
# Printed declarations are read back

A declaration that is neither a namespace nor a statement that is kept as it is written is printed
on one line, and ends by itself. It is written for lexemes that are read as the declaration again,
in any text and whatever comes behind (`Declaration.Readable`). There is one theorem for each sort
of declarations, put together from what is known of types, signatures and members.
-/

set_option autoImplicit false

namespace Facade

open Reader

/-! ### The word in front -/

/-- The words that printed declarations start with. -/
def declarationWords : List Word :=
  [.varWord, .functionWord, .interfaceWord, .classWord, .typeWord, .namespaceWord]

/-- None of them starts a statement that is kept as it is written. -/
theorem declaration_of_word (text : List Char) {word : Word} (hword : word ∈ declarationWords)
    {stream : Stream} (hnext : stream.next? = some (.word word)) :
    declaration text stream = declarationBody (declaration text) stream := by
  have hwords : ∀ second, Simulation.opensStatement (some (.word word)) second = false
      ∧ ¬ Simulation.isPlainModifier (.word word) := by
    intro second
    simp only [declarationWords, List.mem_cons, List.not_mem_nil, or_false] at hword
    rcases hword with rfl | rfl | rfl | rfl | rfl | rfl <;>
      exact ⟨rfl, fun h => by rcases h with h | h <;> cases h⟩
  have hstarts : startsStatement stream.tokens = false := by
    rw [Simulation.startsStatement_eq_opensStatement, hnext]
    exact (hwords _).1
  have hmiss : ∀ lexeme, stream.next? = some lexeme → ¬ Simulation.isPlainModifier lexeme := by
    intro lexeme hlexeme
    cases hnext.symm.trans hlexeme
    exact (hwords none).2
  have htake : take splitModifierWords stream = .ok ⟨false, [], stream⟩ := by
    rw [take, Simulation.splitModifierWords_miss hmiss hstarts]
  rw [declaration_eq, declarationOrStatement, bind_of_ok rfl, bind_of_ok htake,
    if_neg Bool.false_ne_true]

/-- What is read behind the words that change nothing is read as a declaration. -/
theorem reads_declaration (text : List Char) {word : Word} (hword : word ∈ declarationWords)
    {lexemes : List Lexeme} {value : Declaration} {follow : Option Lexeme → Prop}
    (h : Reads (declarationBody (declaration text)) (.word word :: lexemes) value follow) :
    Reads (declaration text) (.word word :: lexemes) value follow := by
  intro tokens rest htokens hrest
  rw [declaration_of_word text hword (by rw [Stream.next?_prepend, htokens]; rfl)]
  exact h tokens rest htokens hrest

/-! ### Parts of declarations -/

/-- A semicolon that may be left out is read if it is there. -/
theorem reads_optionalSemicolon : Reads optionalSemicolon [.mark .semicolon] () fun _ => True :=
  (reads_accept (.mark .semicolon)).bind (reads_pure () fun _ => True) fun _ _ => trivial

/-- The lexemes of types behind a word, if there are any. -/
def typesClauseLexemes (word : Word) : List TypeExpr → List Lexeme
  | [] => []
  | type :: rest => [.word word] ++ commaLexemes (typeLexemes (type :: rest))

/-- Types behind a word are written for their lexemes. -/
theorem writes_typesClause {types : List TypeExpr} {text : String} (word : Word)
    (htext : Writes text.toList [.word word] fun _ => True)
    (h : WritesAll (displayTypes types) (typeLexemes types)) :
    Writes (typesClause text types).toList (typesClauseLexemes word types) Free := by
  cases types with
  | nil => exact .empty Free
  | cons type rest => exact htext.join h.commas fun _ _ => trivial

/-- A text that starts with them is free, if what follows them is. -/
theorem free_typesClause {types : List TypeExpr} {c : Char} {more : List Char} {text : String}
    (htext : text.toList = c :: more)
    (hc : c ∈ [' ', ',', ';', ':', '?', '(', ')', '[', ']', '<', '{', '}']) {rest : List Char}
    (h : Free rest) : Free ((typesClause text types).toList ++ rest) := by
  cases types with
  | nil => exact h
  | cons type types =>
    rw [typesClause, String.toList_append, htext]
    exact free_cons hc _

/-- What holds of the word and of what comes next holds of what comes first. -/
theorem head?_typesClause {types : List TypeExpr} {word : Word} {next : Option Lexeme}
    (condition : Option Lexeme → Prop) (hnext : condition next)
    (hword : condition (some (.word word))) :
    condition ((typesClauseLexemes word types).head?.or next) := by
  cases types with
  | nil =>
    rw [typesClauseLexemes, List.head?_nil, Option.none_or]
    exact hnext
  | cons type rest => exact hword

/-- The brace behind the first line of an interface or a class. -/
def IsBrace (next : Option Lexeme) : Prop :=
  next = some (.mark .braceOpen)

/-- Types behind a word are read back. -/
theorem reads_typesAfter {types : List TypeExpr} (word : Word) (h : TypesRead types)
    (hrepeated : ∀ type ∈ types, type.isRepeated = false) :
    Reads (typesAfter word) (typesClauseLexemes word types) types IsBrace := by
  cases types with
  | nil =>
    refine .of_acceptNot (reads_pure [] IsBrace) ?_
    rintro _ rfl heq
    cases heq
  | cons type rest =>
    have hitems : ReadsItems TypeExpr.reader .comma IsBrace (type :: rest)
        (typeLexemes (type :: rest)) := by
      refine readsItems_of_forall₂ (List.cons_ne_nil _ _) (h.plain hrepeated) (by decide) ?_
      rintro _ rfl
      decide
    refine .of_accept (reads_separated rfl readsTypes_typeReader.regular hitems ?_)
    rintro _ rfl heq
    cases heq

/-! ### Declarations that end by themselves -/

/-- A declaration that is written for lexemes of which a word comes first. In any text, and whatever
comes behind, these are read as the declaration. -/
def Declaration.Readable (declaration : Declaration) : Prop :=
  ∃ word lexemes, Writes declaration.display.toList ([.word word] ++ lexemes) (fun _ => True)
    ∧ ∀ text, Reads (Reader.declaration text) (.word word :: lexemes) declaration fun _ => True

section

variable {name : String} {typeParameters : List TypeParameter} {types : List TypeExpr}
  {type : Option TypeExpr} {members : List Member}

/-- A text that starts with a space is free. -/
theorem free_space (text : String) (rest : List Char) : Free ((" " ++ text).toList ++ rest) := by
  rw [String.toList_append]
  exact free_cons (by decide) _

/-- A word, a name and the rest of a declaration. -/
theorem readable_of_body {declaration : Declaration} {text behind : String} {word : Word}
    {lexemes : List Lexeme} (hdisplay : declaration.display = text ++ (name ++ behind))
    (htext : Writes text.toList [.word word] fun _ => True) (hname : IsBindingName name)
    (hbehind : Writes behind.toList lexemes fun _ => True)
    (hfree : ∀ rest, Free (behind.toList ++ rest)) (hword : word ∈ declarationWords)
    (hbody : ∀ reader, Reads (declarationBody reader)
      (.word word :: ([Cursor.wordLexeme name] ++ lexemes)) declaration fun _ => True) :
    declaration.Readable := by
  refine ⟨word, [Cursor.wordLexeme name] ++ lexemes, ?_, fun text =>
    reads_declaration text hword (hbody (Reader.declaration text))⟩
  rw [hdisplay]
  exact htext.join (hname.writes.join hbehind fun rest _ => hfree rest) fun _ _ => trivial

/-- A variable is read back. -/
theorem readable_variable (hformed : (Declaration.variable name type).Every formed)
    (hprintable : (Declaration.variable name type).Every printable) :
    (Declaration.variable name type).Readable := by
  obtain ⟨⟨hname, hrepeated⟩, hformed⟩ := hformed
  have hword : Writes "var ".toList [.word .varWord] fun _ => True :=
    writes_spellingSpace .varWord _
  have hbehind := (writesOption type hformed hprintable.2).behindColon.join
    (writes_semicolon fun _ => True) fun _ _ => free_cons (by decide) _
  have htype := reads_typeAfter (.mark .colon) (readOption type hformed hprintable.2)
  rw [hrepeated.written] at htype
  have hends : Off typeMarks (some (.mark .semicolon))
      ∧ some (Lexeme.mark .semicolon) ≠ some (.mark .colon) := by decide
  have hbody : Reads variableBody _ (.variable name type) fun _ => True :=
    (reads_bindingName hname).bind (htype.bind reads_optionalSemicolon.bind_pure fun _ _ => hends)
      fun _ _ => trivial
  refine readable_of_body ?_ hword hname hbehind (fun rest => ?_) (by decide) fun _ =>
    reads_next ((reads_skip _).bind hbody fun _ _ => trivial)
  · rw [Declaration.display, displayAnnotation_eq, String.append_assoc, String.append_assoc]
  · rw [String.toList_append, List.append_assoc]
    exact free_behindColon (free_cons (by decide) _)

/-- So is a function. -/
theorem readable_function {signature : Signature}
    (hformed : (Declaration.function name signature).Every formed)
    (hprintable : (Declaration.function name signature).Every printable) :
    (Declaration.function name signature).Readable := by
  obtain ⟨hname, hformed⟩ := hformed
  have hword : Writes "function ".toList [.word .functionWord] fun _ => True :=
    writes_spellingSpace .functionWord _
  have hbehind := (signature.writes hformed hprintable.2).join (writes_semicolon fun _ => True)
    fun _ _ => free_cons (by decide) _
  have hbody : Reads functionBody _ (.function name signature) fun _ => True :=
    (reads_bindingName hname).bind ((signature.read hformed hprintable.2).bind
      reads_optionalSemicolon.bind_pure fun _ _ => isEnd_mark (by decide)) fun _ _ => trivial
  refine readable_of_body ?_ hword hname hbehind (fun rest => ?_) (by decide) fun _ =>
    reads_next ((reads_skip _).bind hbody fun _ _ => trivial)
  · rw [Declaration.display, String.append_assoc, String.append_assoc]
  · rw [String.toList_append, List.append_assoc]
    exact signature.free_display _

/-- Type parameters in front of the rest of a declaration. -/
theorem writes_behindTypeParameters {behind : String} {lexemes : List Lexeme}
    (hformed : everyTypeParameter formed typeParameters)
    (hprintable : everyTypeParameter printable typeParameters)
    (hbehind : Writes behind.toList lexemes fun _ => True)
    (hfree : ∀ rest, Free (behind.toList ++ rest)) :
    Writes (inAngles (displayTypeParameters typeParameters) ++ behind).toList
        (angleLexemes (typeParameterLexemes typeParameters) ++ lexemes) (fun _ => True)
      ∧ ∀ rest,
        Free ((inAngles (displayTypeParameters typeParameters) ++ behind).toList ++ rest) := by
  have htypes := (writesTypeParameters typeParameters hformed hprintable).angles
    (startsClear_typeParameters hformed)
  refine ⟨htypes.join hbehind fun rest _ => hfree rest, fun rest => ?_⟩
  rw [String.toList_append, List.append_assoc]
  exact free_inAngles _ (hfree rest)

/-- The parts of an alias. -/
theorem reads_alias {value : TypeExpr} {lexemes lexemes' : List Lexeme}
    {follow : Option Lexeme → Prop} (hname : IsBindingName name)
    (hparameters : Reads (Reader.typeParameters TypeExpr.reader) lexemes typeParameters follow)
    (hassign : follow (some (.mark .assign)))
    (hvalue : Reads TypeExpr.reader lexemes' value (Off typeMarks)) (reader : Reader Declaration) :
    Reads (declarationBody reader) (.word .typeWord :: ([Cursor.wordLexeme name]
      ++ (lexemes ++ ([.mark .assign] ++ (lexemes' ++ [.mark .semicolon])))))
      (.alias name typeParameters value) fun _ => True := by
  have hends : Off typeMarks (some (.mark .semicolon)) := by decide
  have hbody : Reads aliasBody _ (.alias name typeParameters value) fun _ => True :=
    (reads_bindingName hname).bind (hparameters.bind ((reads_expect .assign).bind
      (hvalue.bind reads_optionalSemicolon.bind_pure fun _ _ => hends) fun _ _ => trivial)
        fun _ _ => hassign) fun _ _ => trivial
  refine reads_next (reads_look (some (Cursor.wordLexeme name))
    (fun tokens rest htokens _ => ?_) ?_)
  -- The name of an alias has to be seen before its first word is taken.
  · obtain ⟨first, more, rfl, -, hmore⟩ := List.map_eq_cons_iff.mp htokens
    obtain ⟨second, others, rfl, hsecond, -⟩ := List.map_eq_cons_iff.mp hmore
    exact congrArg some hsecond
  · rw [Option.bind_some, bindingName?_wordLexeme hname, Option.isSome_some, if_pos rfl]
    exact (reads_skip _).bind hbody fun _ _ => trivial

/-- An alias is read back. -/
theorem readable_alias {value : TypeExpr}
    (hformed : (Declaration.alias name typeParameters value).Every formed)
    (hprintable : (Declaration.alias name typeParameters value).Every printable) :
    (Declaration.alias name typeParameters value).Readable := by
  obtain ⟨⟨hname, hrepeated⟩, htypes, hvalue⟩ := hformed
  obtain ⟨-, htypes', hvalue'⟩ := hprintable
  have hword : Writes "type ".toList [.word .typeWord] fun _ => True :=
    writes_spellingSpace .typeWord _
  have hassign : Writes "= ".toList [.mark .assign] fun _ => True :=
    writes_markSpace .assign rfl rfl (by decide) (by decide) (by decide) _
  have hrest := hassign.behindSpace.join ((value.writes hvalue hvalue').join
    (writes_semicolon fun _ => True) fun _ _ => free_cons (by decide) _) fun _ _ => trivial
  have hbehind := writes_behindTypeParameters htypes htypes' hrest fun rest => by
    rw [String.append_assoc]
    exact free_space _ rest
  refine readable_of_body ?_ hword hname hbehind.1 hbehind.2 (by decide) (reads_alias hname
    (readTypeParameters typeParameters htypes htypes') (fun heq => by cases heq)
    ((value.isRead hvalue hvalue').plain hrepeated))
  simp only [Declaration.display, String.append_assoc]
  rfl

/-- So is an interface. -/
theorem readable_interface
    (hformed : (Declaration.interface name typeParameters types members).Every formed)
    (hprintable : (Declaration.interface name typeParameters types members).Every printable) :
    (Declaration.interface name typeParameters types members).Readable := by
  obtain ⟨⟨hname, hrepeated⟩, hparameters, htypes, hmembers⟩ := hformed
  obtain ⟨-, hparameters', htypes', hmembers'⟩ := hprintable
  have hword : Writes "interface ".toList [.word .interfaceWord] fun _ => True :=
    writes_spellingSpace .interfaceWord _
  have hextends : Writes "extends ".toList [.word .extendsWord] fun _ => True :=
    writes_spellingSpace .extendsWord _
  have hbraces := ((writesMembers members hmembers hmembers').braces fun _ => True).behindSpace
  have hrest := (writes_typesClause .extendsWord hextends.behindSpace
    (writesTypes types htypes htypes')).join hbraces fun rest _ => free_space _ rest
  have hbehind := writes_behindTypeParameters hparameters hparameters' hrest fun rest => by
    rw [String.toList_append, List.append_assoc]
    exact free_typesClause rfl (by decide) (free_space _ rest)
  have hread : Reads (Reader.typeParameters TypeExpr.reader) _ typeParameters _ :=
    readTypeParameters typeParameters hparameters hparameters'
  have hbody : Reads interfaceBody _ (.interface name typeParameters types members) fun _ => True :=
    (reads_bindingName hname).bind (hread.bind ((reads_typesAfter .extendsWord
      (isReadTypes types htypes htypes') hrepeated).bind
      (reads_members (readMembers members hmembers hmembers')).bind_pure fun _ _ => rfl)
      fun _ _ => by
        rw [List.head?_append, Option.or_assoc]
        exact head?_typesClause (· ≠ some (.mark .less)) (fun heq => by cases heq) (by decide))
      fun _ _ => trivial
  refine readable_of_body ?_ hword hname hbehind.1 hbehind.2 (by decide) fun _ =>
    reads_next ((reads_skip _).bind hbody fun _ _ => trivial)
  simp only [Declaration.display, String.append_assoc]
  rfl

/-- So is a class. -/
theorem readable_class
    (hformed : (Declaration.class name typeParameters type types members).Every formed)
    (hprintable : (Declaration.class name typeParameters type types members).Every printable) :
    (Declaration.class name typeParameters type types members).Readable := by
  obtain ⟨⟨hname, hparent, hrepeated⟩, hparameters, htype, htypes, hmembers⟩ := hformed
  obtain ⟨-, hparameters', htype', htypes', hmembers'⟩ := hprintable
  have hword : Writes "class ".toList [.word .classWord] fun _ => True :=
    writes_spellingSpace .classWord _
  have hextends : Writes "extends ".toList [.word .extendsWord] fun _ => True :=
    writes_spellingSpace .extendsWord _
  have himplements : Writes "implements ".toList [.word .implementsWord] fun _ => True :=
    writes_spellingSpace .implementsWord _
  have hbraces := ((writesMembers members hmembers hmembers').braces fun _ => True).behindSpace
  have hinterfaces := (writes_typesClause .implementsWord himplements.behindSpace
    (writesTypes types htypes htypes')).join hbraces fun rest _ => free_space _ rest
  -- Without interfaces, the space in front of the members is what ends the parent.
  have hfree : ∀ rest, Free ((typesClause " implements " types
      ++ (" " ++ inBraces (displayMembers members))).toList ++ rest) := fun rest => by
    rw [String.toList_append, List.append_assoc]
    exact free_typesClause rfl (by decide) (free_space _ rest)
  have hrest := ((writesOption type htype htype').clause hextends.behindSpace).join hinterfaces
    fun rest _ => hfree rest
  have hbehind := writes_behindTypeParameters hparameters hparameters' hrest fun rest => by
    rw [String.toList_append, List.append_assoc]
    exact free_clause rfl (by decide) (hfree rest)
  have hread : Reads (Reader.typeParameters TypeExpr.reader) _ typeParameters _ :=
    readTypeParameters typeParameters hparameters hparameters'
  -- From here on, what was written is read. Each part ends in front of the first part that is
  -- there.
  have hparentRead := reads_typeAfter (.word .extendsWord) (readOption type htype htype')
  rw [hparent.written] at hparentRead
  have hinterfacesRead : Reads (typesAfter .implementsWord >>= fun interfaces =>
      Reader.members TypeExpr.reader >>= fun members =>
        pure (Declaration.class name typeParameters type interfaces members)) _
      (.class name typeParameters type types members) fun _ => True :=
    (reads_typesAfter .implementsWord (isReadTypes types htypes htypes') hrepeated).bind
      (reads_members (readMembers members hmembers hmembers')).bind_pure fun _ _ => rfl
  have hbody : Reads classBody _ (.class name typeParameters type types members) fun _ => True :=
    (reads_bindingName hname).bind (hread.bind (hparentRead.bind hinterfacesRead fun _ _ => by
        rw [List.head?_append, Option.or_assoc]
        exact head?_typesClause (fun next => Off typeMarks next ∧ next ≠ some (.word .extendsWord))
          (of_decide_eq_true rfl) (by decide)) fun _ _ => by
        rw [List.head?_append, List.head?_append, Option.or_assoc, Option.or_assoc]
        exact head?_clause (· ≠ some (.mark .less)) (head?_typesClause (· ≠ some (.mark .less))
          (fun heq => by cases heq) (by decide)) (by decide)) fun _ _ => trivial
  refine readable_of_body ?_ hword hname hbehind.1 hbehind.2 (by decide) fun _ =>
    reads_next ((reads_skip _).bind hbody fun _ _ => trivial)
  simp only [Declaration.display, String.append_assoc]
  rfl

end

end Facade
