import Facade.Proofs.Declaration.Printed.Parts
import Facade.Proofs.Declaration.Printed.Written

/-!
# Printed types are read back

The lexemes of a type are read as the type (`TypeExpr.isRead`), and so are those of everything
else in the mutual block that types are made of. There is one theorem for every sort of primary
type, one for the parts of unions and intersections, and the induction at the end puts them
together.
-/

set_option autoImplicit false

namespace Facade

open Reader

/-! ### Primary types -/

/-- The word for a primitive type. -/
def Primitive.word : Primitive → Word
  | .any => .anyWord
  | .void => .voidWord
  | .number => .numberWord
  | .bool => .boolWord
  | .boolean => .booleanWord
  | .string => .stringWord

/-- A primitive type is printed as its word. -/
theorem Primitive.wordLexeme_spelling (type : Primitive) :
    Cursor.wordLexeme type.spelling = .word type.word := by
  have hspelling : type.spelling = type.word.spelling := by cases type <;> rfl
  rw [hspelling, Facade.wordLexeme_spelling]

/-- A primitive type is read back from its word. -/
theorem reads_primitive (type : Primitive) :
    Reads (primaryType TypeExpr.reader) (TypeExpr.primitive type).lexemes (.primitive type)
      fun _ => True := by
  rw [TypeExpr.lexemes, type.wordLexeme_spelling]
  refine reads_next ?_
  cases type <;> exact (reads_skip _).bind_pure

/-- A literal that is a word is read back from it. -/
theorem reads_word_literal {word : Word}
    (h : word ∈ [Word.trueWord, .falseWord, .nullWord, .thisWord]) :
    Reads (primaryType TypeExpr.reader) [.word word] (.literal word.spelling) fun _ => True := by
  refine reads_next ?_
  simp only [List.mem_cons, List.not_mem_nil, or_false] at h
  rcases h with rfl | rfl | rfl | rfl <;> exact (reads_skip _).bind_pure

/-- A literal is read back from its lexemes. -/
theorem reads_literal {text : String} (h : IsLiteral text) (hplain : IsPlainLiteral text) :
    Reads (primaryType TypeExpr.reader) (literalLexemes text) (.literal text) fun _ => True := by
  rcases h.lexemes_cases hplain with ⟨value, rfl, -, hlexemes⟩ | ⟨-, hlexemes⟩
    | ⟨number, -, rfl, hlexemes⟩ | ⟨word, hin, rfl, hlexemes⟩ <;> rw [hlexemes]
  · exact reads_next (reads_skip _).bind_pure
  · exact reads_next (reads_skip _).bind_pure
  · exact reads_next (reads_look _ (fun tokens rest htokens _ => by
      obtain ⟨sign, more, rfl, -, hmore⟩ := List.map_eq_cons_iff.mp htokens
      obtain ⟨token, rfl, htoken⟩ := List.map_eq_singleton_iff.mp hmore
      exact congrArg some htoken)
      ((reads_skip (.mark .minus)).bind (reads_skip _).bind_pure fun _ _ => trivial))
  · exact reads_word_literal hin

/-- The type of a value is read back, behind its word. -/
theorem reads_query {path : List String} (hne : path ≠ [])
    (h : ∀ name ∈ path, IsBindingName name) :
    Reads (primaryType TypeExpr.reader) (TypeExpr.query path).lexemes (.query path)
      (Off [.dot]) := by
  obtain ⟨first, rest, rfl⟩ := List.exists_cons_of_ne_nil hne
  rw [List.forall_mem_cons] at h
  exact reads_next ((reads_skip _).bind (reads_qualifiedName h.1 h.2).bind_pure fun _ _ => trivial)

/-- Types that are read one by one. -/
def TypesRead (types : List TypeExpr) : Prop :=
  ∀ type ∈ types, type.IsRead

/-- The lexemes of types are those of each of them. -/
theorem typeLexemes_eq (types : List TypeExpr) :
    typeLexemes types = types.map TypeExpr.lexemes := by
  induction types with
  | nil => rfl
  | cons type rest ih => exact congrArg (type.lexemes :: ·) ih

/-- A type that is no rest type is read back as itself. -/
theorem TypeExpr.IsRead.plain {type : TypeExpr} (h : type.IsRead)
    (hrepeated : type.isRepeated = false) :
    Reads TypeExpr.reader type.lexemes type (Off typeMarks) := by
  have hwhole := h.whole
  rwa [TypeExpr.written_eq hrepeated] at hwhole

/-- So are several types, one by one, in front of what does not go on with them. -/
theorem TypesRead.plain {types : List TypeExpr} (h : TypesRead types)
    (hrepeated : ∀ type ∈ types, type.isRepeated = false) :
    List.Forall₂ (fun type lexemes => Reads TypeExpr.reader lexemes type (Off typeMarks)) types
      (typeLexemes types) := by
  rw [typeLexemes_eq]
  exact List.forall₂_map_right_iff.mpr (List.forall₂_same.mpr fun type hin =>
    (h type hin).plain (hrepeated type hin))

/-- So they are in front of the end of an item. -/
theorem TypesRead.items {types : List TypeExpr} (h : TypesRead types)
    (hrepeated : ∀ type ∈ types, type.isRepeated = false) :
    List.Forall₂ (fun type lexemes => Reads TypeExpr.reader lexemes type IsEnd) types
      (typeLexemes types) :=
  (h.plain hrepeated).imp fun _ _ hread => hread.mono fun _ hnext => hnext.off

/-- A name is read back with its arguments. -/
theorem reads_named {path : List String} {arguments : List TypeExpr}
    (hpath : ∃ first rest, path = first :: rest ∧ IsName first
      ∧ ∀ segment ∈ rest, IsBindingName segment) (h : TypesRead arguments)
    (hrepeated : ∀ type ∈ arguments, type.isRepeated = false) :
    Reads (primaryType TypeExpr.reader) (pathLexemes path ++ angleLexemes (typeLexemes arguments))
      (.named path arguments) (Off [.dot, .less]) := by
  obtain ⟨first, rest, rfl, hfirst, hrest⟩ := hpath
  have harguments : Reads (typeArguments TypeExpr.reader) (angleLexemes (typeLexemes arguments))
      arguments (Off [.dot, .less]) :=
    (reads_typeArguments (h.items hrepeated)).mono fun next hoff => hoff .less (by decide)
  have hbehind : ∀ behind, Off [.dot, .less] behind →
      Off [.dot] ((angleLexemes (typeLexemes arguments)).head?.or behind) := by
    intro behind hoff
    cases arguments with
    | nil => exact hoff.mono (by decide)
    | cons => exact of_decide_eq_true rfl
  have hread : Reads (qualifiedName >>= fun path =>
      typeArguments TypeExpr.reader >>= fun arguments =>
        pure (TypeExpr.named path arguments)) _ _ _ :=
    (reads_qualifiedName hfirst.isBindingName hrest).bind harguments.bind_pure hbehind
  rw [pathLexemes_cons, wordLexeme_of_isName hfirst, List.append_assoc] at hread ⊢
  exact reads_next hread

/-- An object type is read back by its brace. -/
theorem reads_object {members : List Member} (h : MembersRead members) :
    Reads (primaryType TypeExpr.reader) (TypeExpr.object members).lexemes (.object members)
      fun _ => True :=
  reads_next (reads_members h).bind_pure

/-- A tuple is read back from its brackets. -/
theorem reads_tuple {types : List TypeExpr} (h : TypesRead types) (hformed : everyType formed types)
    (hrepeated : ∀ type ∈ types, type.isRepeated = false) :
    Reads (primaryType TypeExpr.reader) (TypeExpr.tuple types).lexemes (.tuple types)
      fun _ => True := by
  have hfirst : ∀ lexemes ∈ typeLexemes types,
      ∃ first rest, lexemes = first :: rest ∧ first ≠ .mark .bracketClose :=
    fun lexemes hin => (startsType_types types hformed lexemes hin).ne_mark .bracketClose rfl
  have hall := reads_commas rfl (by decide) readsTypes_typeReader.regular (h.items hrepeated) hfirst
    ⟨isEnd_mark (by decide), isEnd_mark (by decide)⟩
  exact reads_next ((reads_skip _).bind (hall.bind (reads_expect .bracketClose).bind_pure
    fun _ _ => rfl) fun _ _ => trivial)

/-! ### Parentheses -/

/-- Whether a parenthesis opens a function type shows behind the one that closes it. -/
theorem closesBeforeArrow_parens {inner : List Lexeme} (h : Nested inner) {tokens : List Token}
    (htokens : tokens.map Token.lexeme = [.mark .parenOpen] ++ (inner ++ [.mark .parenClose]))
    (rest : List Token) : closesBeforeArrow 0 (tokens ++ rest)
      = (rest.head?.map Token.lexeme == some (.mark .arrow)) := by
  rw [List.singleton_append] at htokens
  obtain ⟨opening, behind, rfl, hopening, hbehind⟩ := List.map_eq_cons_iff.mp htokens
  obtain ⟨middle, back, rfl, hmiddle, hback⟩ := List.map_eq_append_iff.mp hbehind
  obtain ⟨closing, rfl, hclosing⟩ := List.map_eq_singleton_iff.mp hback
  rw [List.cons_append, closesBeforeArrow, if_pos hopening, List.append_assoc,
    h middle _ 0 hmiddle, List.singleton_append, closesBeforeArrow, hclosing, if_neg (by decide),
    if_pos rfl, if_pos (Nat.le_refl 1)]

/-- A type in parentheses is read back, unless an arrow comes behind it. -/
theorem reads_parenthesized {inner : TypeExpr} (h : inner.IsRead)
    (hrepeated : inner.isRepeated = false) :
    Reads (primaryType TypeExpr.reader) (TypeExpr.parenthesized inner).lexemes
      (.parenthesized inner) (Off [.arrow]) := by
  refine reads_next (reads_look false (fun tokens rest htokens hoff => ?_) ?_)
  · rw [opensFunctionType, Stream.prepend, closesBeforeArrow_parens inner.nested htokens]
    exact beq_eq_false_iff_ne.mpr (hoff .arrow List.mem_cons_self)
  · have hclose : Reads (expect .parenClose) [.mark .parenClose] () (Off [.arrow]) :=
      (reads_expect .parenClose).mono fun _ _ => trivial
    exact (reads_skip _).bind ((h.plain hrepeated).bind hclose.bind_pure
      fun _ _ => of_decide_eq_true rfl) fun _ _ => trivial

/-- A function type is read back by the bracket that it starts with. -/
theorem reads_function {signature : Signature}
    (h : Reads (functionSignature TypeExpr.reader) signature.functionLexemes signature
      (Off typeMarks)) :
    Reads (primaryType TypeExpr.reader) (TypeExpr.function signature).lexemes (.function signature)
      (Off typeMarks) := by
  obtain ⟨typeParameters, parameters, result⟩ := signature
  rw [TypeExpr.lexemes]
  cases typeParameters with
  | cons parameter more => exact reads_next h.bind_pure
  | nil =>
    refine reads_next (reads_look true (fun tokens rest htokens _ => ?_) h.bind_pure)
    have hlexemes : tokens.map Token.lexeme = ([.mark .parenOpen]
        ++ (commaLexemes (parameterLexemes parameters) ++ [.mark .parenClose]))
        ++ ([.mark .arrow] ++ resultLexemes result) := by
      rw [htokens]
      simp
    obtain ⟨front, back, rfl, hfront, hback⟩ := List.map_eq_append_iff.mp hlexemes
    obtain ⟨arrow, more, rfl, harrow, -⟩ := List.map_eq_cons_iff.mp hback
    rw [opensFunctionType, Stream.prepend, List.append_assoc,
      closesBeforeArrow_parens (nested_commas (nested_parameterItems parameters)) hfront]
    exact beq_iff_eq.mpr (congrArg some harrow)

/-- A constructor type is read back by its word. -/
theorem reads_constructor {signature : Signature}
    (h : Reads (functionSignature TypeExpr.reader) signature.functionLexemes signature
      (Off typeMarks)) :
    Reads (primaryType TypeExpr.reader) (TypeExpr.constructor signature).lexemes
      (.constructor signature) (Off typeMarks) :=
  reads_next ((reads_skip _).bind h.bind_pure fun _ _ => trivial)

/-! ### Unions and intersections -/

/-- Types with a separator between them, of which all but the last are read in front of that. -/
theorem readsItems_types {item : Reader TypeExpr} {separator : Mark}
    {follow : Option Lexeme → Prop} {types : List TypeExpr} (hne : types ≠ [])
    (hfront : ∀ type ∈ types.dropLast,
      Reads item type.lexemes type fun next => next = some (.mark separator))
    (hlast : ∀ type ∈ types.getLast?, Reads item type.lexemes type follow) :
    ReadsItems item separator follow types (typeLexemes types) := by
  induction types with
  | nil => exact absurd rfl hne
  | cons type types ih =>
    cases types with
    | nil => exact .last (hlast type rfl)
    | cons next types =>
      rw [List.dropLast_cons_cons, List.forall_mem_cons] at hfront
      rw [List.getLast?_cons_cons] at hlast
      exact .more hfront.1 (ih (List.cons_ne_nil _ _) hfront.2 hlast)

/-- A union is read back at the level of types, part by part. -/
theorem isRead_union {types : List TypeExpr} (hformed : (TypeExpr.union types).Every formed)
    (h : TypesRead types) : (TypeExpr.union types).IsRead := by
  obtain ⟨⟨hlength, hall, hfront⟩, hevery⟩ := hformed
  have hne : types ≠ [] := by
    rintro rfl
    cases hlength
  have hpart : ∀ type ∈ types, Reads (intersectionType TypeExpr.reader) type.lexemes type
      (Off (marksBehind type.endsInArrow partMarks)) := by
    intro type hin
    have hread := (h type hin).part (hall type hin).1
    rwa [TypeExpr.written_eq (hall type hin).2] at hread
  have hitems : ReadsItems (intersectionType TypeExpr.reader) .bar (Off typeMarks) types
      (typeLexemes types) := by
    refine readsItems_types hne (fun type hin => ?_) fun type hin => ?_
    · refine (hpart type (List.dropLast_subset _ hin)).mono ?_
      rintro _ rfl
      rw [hfront type hin]
      decide
    · refine (hpart type (List.mem_of_getLast? hin)).mono fun _ hoff => hoff.mono ?_
      cases type.endsInArrow <;> decide
  have hstarts : StartsType (TypeExpr.union types).lexemes :=
    (TypeExpr.union types).startsType_lexemes ⟨⟨hlength, hall, hfront⟩, hevery⟩
  have hwhole := TypeExpr.reads_reader hitems hstarts
  rw [oneOrAll_of_length hlength] at hwhole
  exact ⟨fun hunion => (by cases hunion), fun hunion => (by cases hunion), hwhole⟩

/-- An intersection is read back as a part of a union, part by part. -/
theorem isRead_intersection {types : List TypeExpr}
    (hformed : (TypeExpr.intersection types).Every formed) (h : TypesRead types) :
    (TypeExpr.intersection types).IsRead := by
  obtain ⟨⟨hlength, hall, hfront⟩, hevery⟩ := hformed
  have hne : types ≠ [] := by
    rintro rfl
    cases hlength
  have hsuffixed : ∀ type ∈ types, Reads (suffixedType TypeExpr.reader) type.lexemes type
      (Off (marksBehind type.isArrow suffixMarks)) := by
    intro type hin
    obtain ⟨hunion, hintersection, hrepeated⟩ := hall type hin
    have hread := (h type hin).suffixed hunion hintersection 0 fun _ => rfl
    rwa [TypeExpr.written_eq hrepeated, bracketLexemes, List.append_nil] at hread
  have hitems : ReadsItems (suffixedType TypeExpr.reader) .ampersand
      (Off (marksBehind (TypeExpr.intersection types).endsInArrow partMarks)) types
      (typeLexemes types) := by
    refine readsItems_types hne (fun type hin => ?_) fun type hin => ?_
    · refine (hsuffixed type (List.dropLast_subset _ hin)).mono ?_
      rintro _ rfl
      rw [hfront type hin]
      decide
    -- An arrow in the last part is the arrow at the end of the whole.
    · have hends : (TypeExpr.intersection types).endsInArrow = type.isArrow := by
        rw [TypeExpr.endsInArrow, hin]
        rfl
      rw [hends]
      refine (hsuffixed type (List.mem_of_getLast? hin)).mono fun _ hoff => hoff.mono ?_
      cases type.isArrow <;> decide
  have hpart := reads_separated rfl suffixedType_regular hitems fun next hoff => hoff .ampersand (by
    cases (TypeExpr.intersection types).endsInArrow <;> decide)
  have hread : Reads (intersectionType TypeExpr.reader) _ _ _ := hpart.map
  rw [oneOrAll_of_length hlength] at hread
  have hstarts : StartsType (TypeExpr.intersection types).lexemes :=
    (TypeExpr.intersection types).startsType_lexemes ⟨⟨hlength, hall, hfront⟩, hevery⟩
  exact ⟨fun _ hintersection => (by cases hintersection), fun _ => hread,
    TypeExpr.reads_reader_of_part hstarts hread⟩

/-! ### Names of members -/

/-- A word or a number is no mark. -/
theorem Lexeme.ofSpelling_ne_mark (text : String) (mark : Mark) : ofSpelling text ≠ .mark mark := by
  rw [ofSpelling]
  split
  · split
    · exact Lexeme.noConfusion
    · exact Cursor.wordLexeme_ne_mark text mark
  · exact Cursor.wordLexeme_ne_mark text mark

/-- What starts a signature ends the name in front of it, and modifies nothing. -/
theorem endsName_of_startsSignature {lexeme : Lexeme} (h : startsSignature (some lexeme) = true) :
    endsName (some lexeme) = true ∧ isModifierWord lexeme = false := by
  simp only [startsSignature, Bool.or_eq_true, beq_iff_eq, Option.some.injEq] at h
  rcases h with rfl | rfl <;> exact ⟨rfl, rfl⟩

/-- A member that is not static starts with no modifier, or the lexeme behind that shows that it
is a name. -/
theorem Member.unmodified (member : Member) (h : ∀ inner, member ≠ .static inner) :
    Unmodified member.lexemes := by
  cases member with
  | call signature =>
    obtain ⟨first, rest, hlexemes, hstarts, -⟩ := signature.startsSignature_lexemes
    refine ⟨first, rest, hlexemes, fun hmodifier => ?_⟩
    cases (endsName_of_startsSignature hstarts).2.symm.trans hmodifier
  | construct signature => exact ⟨_, _, rfl, fun hmodifier => by cases hmodifier⟩
  | index parameter type => exact ⟨_, _, rfl, fun hmodifier => by cases hmodifier⟩
  | property name optional type =>
    exact ⟨_, _, rfl, fun _ => head?_optional (endsName · = true)
      (head?_clause (endsName · = true) rfl rfl) rfl⟩
  | method name optional signature =>
    obtain ⟨first, rest, hlexemes, hstarts, -⟩ := signature.startsSignature_lexemes
    refine ⟨_, _, rfl, fun _ => head?_optional (endsName · = true) ?_ rfl⟩
    rw [hlexemes]
    exact (endsName_of_startsSignature hstarts).1
  | static inner => exact absurd rfl (h inner)

/-- What is static shows that the word in front of it is a modifier. -/
theorem Member.not_endsName (member : Member) (hstatic : ∀ inner, member ≠ .static inner)
    (hcall : ∀ signature, member ≠ .call signature) :
    ∀ first ∈ member.lexemes.head?, endsName (some first) = false := by
  have hname : ∀ text, endsName (some (Lexeme.ofSpelling text)) = false := by
    intro text
    cases hlexeme : Lexeme.ofSpelling text with
    | mark mark => exact absurd hlexeme (Lexeme.ofSpelling_ne_mark text mark)
    | _ => rfl
  intro first hfirst
  cases member with
  | call signature => exact absurd rfl (hcall signature)
  | static inner => exact absurd rfl (hstatic inner)
  | construct signature =>
    cases Option.mem_some_iff.mp hfirst
    rfl
  | index parameter type =>
    cases Option.mem_some_iff.mp hfirst
    rfl
  | property name optional type =>
    cases Option.mem_some_iff.mp hfirst
    exact hname name
  | method name optional signature =>
    cases Option.mem_some_iff.mp hfirst
    exact hname name

/-! ### All types -/

/-- What may not follow a type without an arrow. -/
theorem Reader.Reads.off {type : TypeExpr} {lexemes : List Lexeme} {marks : List Mark}
    (h : Reads (primaryType TypeExpr.reader) lexemes type (Off marks))
    (harrow : type.isArrow = false) (hsubset : marks ⊆ primaryMarks) :
    Reads (primaryType TypeExpr.reader) lexemes type
      (Off (marksBehind type.isArrow primaryMarks)) := by
  rw [harrow]
  exact h.mono fun _ hoff => hoff.mono hsubset

mutual

/-- The lexemes of a type are read as the type. -/
theorem TypeExpr.isRead : (type : TypeExpr) → type.Every formed → type.Every printable → type.IsRead
  | .primitive type, hformed, _ => by
    refine TypeExpr.isRead_of_primary rfl rfl (TypeExpr.startsType_lexemes _ hformed) ?_
    exact (reads_primitive type).mono fun _ _ => trivial
  | .named path arguments, hformed, hprintable => by
    have hread := isReadTypes arguments hformed.2 hprintable.2
    -- An array is read as its element and the brackets behind it, not as a path.
    by_cases harray : ∃ element, path = ["Array"] ∧ arguments = [element]
    · obtain ⟨element, rfl, rfl⟩ := harray
      refine TypeExpr.isRead_array rfl rfl rfl rfl (hprintable.1.1 element rfl rfl)
        (hformed.1.2 element List.mem_cons_self) (element.startsType_lexemes hformed.2.1) ?_
      exact hread element List.mem_cons_self
    · have hlexemes := TypeExpr.lexemes_named fun element hpath heq => harray ⟨element, hpath, heq⟩
      refine TypeExpr.isRead_of_primary rfl rfl (TypeExpr.startsType_lexemes _ hformed) ?_
      rw [hlexemes]
      exact (reads_named hformed.1.1 hread hformed.1.2).off rfl (by decide)
  | .object members, hformed, hprintable => by
    refine TypeExpr.isRead_of_primary rfl rfl (TypeExpr.startsType_lexemes _ hformed) ?_
    exact (reads_object (readMembers members hformed.2 hprintable.2)).mono fun _ _ => trivial
  | .function signature, hformed, hprintable => by
    refine TypeExpr.isRead_of_primary rfl rfl (TypeExpr.startsType_lexemes _ hformed) ?_
    exact reads_function (signature.readFunction hformed.1 hformed.2 hprintable.2)
  | .constructor signature, hformed, hprintable => by
    refine TypeExpr.isRead_of_primary rfl rfl (TypeExpr.startsType_lexemes _ hformed) ?_
    exact reads_constructor (signature.readFunction hformed.1 hformed.2 hprintable.2)
  | .repeated element, hformed, hprintable =>
    TypeExpr.isRead_array rfl rfl rfl rfl hprintable.1 hformed.1
      (element.startsType_lexemes hformed.2)
      (element.isRead hformed.2 hprintable.2)
  | .union types, hformed, hprintable =>
    isRead_union hformed (isReadTypes types hformed.2 hprintable.2)
  | .intersection types, hformed, hprintable =>
    isRead_intersection hformed (isReadTypes types hformed.2 hprintable.2)
  | .tuple types, hformed, hprintable => by
    refine TypeExpr.isRead_of_primary rfl rfl (TypeExpr.startsType_lexemes _ hformed) ?_
    exact (reads_tuple (isReadTypes types hformed.2 hprintable.2) hformed.2 hformed.1).mono
      fun _ _ => trivial
  | .literal text, hformed, hprintable => by
    refine TypeExpr.isRead_of_primary rfl rfl (TypeExpr.startsType_lexemes _ hformed) ?_
    exact (reads_literal hformed hprintable).mono fun _ _ => trivial
  | .query path, hformed, _ => by
    refine TypeExpr.isRead_of_primary rfl rfl (TypeExpr.startsType_lexemes _ hformed) ?_
    exact (reads_query hformed.1 hformed.2).off rfl (by decide)
  | .parenthesized inner, hformed, hprintable => by
    refine TypeExpr.isRead_of_primary rfl rfl (TypeExpr.startsType_lexemes _ hformed) ?_
    exact (reads_parenthesized (inner.isRead hformed.2 hprintable.2) hformed.1).off rfl (by decide)

/-- The lexemes of types are read as the types. -/
theorem isReadTypes : (types : List TypeExpr) → everyType formed types → everyType printable types →
    TypesRead types
  | [], _, _ => fun _ hin => absurd hin List.not_mem_nil
  | type :: rest, hformed, hprintable => List.forall_mem_cons.mpr
    ⟨type.isRead hformed.1 hprintable.1, isReadTypes rest hformed.2 hprintable.2⟩

/-- The same for a type that may be missing. -/
theorem readOption : (type : Option TypeExpr) → everyOption formed type →
    everyOption printable type → OptionRead type
  | none, _, _ => fun _ hfound => by cases hfound
  | some type, hformed, hprintable => fun _ hfound => by
    cases hfound
    exact (type.isRead hformed hprintable).whole

/-- The lexemes of a signature with an arrow are read as the signature. -/
theorem Signature.readFunction : (signature : Signature) → signature.result.isSome = true →
    signature.Every formed → signature.Every printable →
    Reads (functionSignature TypeExpr.reader) signature.functionLexemes signature (Off typeMarks)
  | ⟨typeParameters, parameters, some result⟩, _, hformed, hprintable => by
    have hresult := (result.isRead hformed.2.2.2 hprintable.2.2.2).plain (hformed.1 result rfl)
    exact reads_functionSignature (readTypeParameters typeParameters hformed.2.1 hprintable.2.1)
      (readParameters parameters hformed.2.2.1 hprintable.2.2.1) hresult

/-- So are those of a signature with a colon. -/
theorem Signature.read : (signature : Signature) → signature.Every formed →
    signature.Every printable →
    Reads (Reader.signature TypeExpr.reader) signature.lexemes signature IsEnd
  | ⟨typeParameters, parameters, result⟩, hformed, hprintable =>
    reads_signature (readTypeParameters typeParameters hformed.2.1 hprintable.2.1)
      (readParameters parameters hformed.2.2.1 hprintable.2.2.1)
      (readOption result hformed.2.2.2 hprintable.2.2.2) hformed.1

/-- The lexemes of a type parameter are read as the type parameter. -/
theorem TypeParameter.read : (parameter : TypeParameter) → parameter.Every formed →
    parameter.Every printable →
    Reads (typeParameter TypeExpr.reader) parameter.lexemes parameter IsEnd
  | ⟨name, bound, default⟩, hformed, hprintable =>
    reads_typeParameter hformed.1.1 (readOption bound hformed.2.1 hprintable.2.1)
      (readOption default hformed.2.2 hprintable.2.2) hformed.1.2

/-- The lexemes of type parameters in angle brackets are read as the type parameters. -/
theorem readTypeParameters : (typeParameters : List TypeParameter) →
    everyTypeParameter formed typeParameters → everyTypeParameter printable typeParameters →
    TypeParametersRead typeParameters
  | typeParameters, hformed, hprintable =>
    reads_typeParameters (readTypeParameterItems typeParameters hformed hprintable)

/-- The lexemes of each of several type parameters are read as the type parameter. -/
theorem readTypeParameterItems : (typeParameters : List TypeParameter) →
    everyTypeParameter formed typeParameters → everyTypeParameter printable typeParameters →
    List.Forall₂ (fun parameter lexemes =>
      Reads (typeParameter TypeExpr.reader) lexemes parameter IsEnd) typeParameters
      (typeParameterLexemes typeParameters)
  | [], _, _ => .nil
  | parameter :: rest, hformed, hprintable =>
    .cons (parameter.read hformed.1 hprintable.1)
      (readTypeParameterItems rest hformed.2 hprintable.2)

/-- The lexemes of a parameter are read as the parameter. -/
theorem Parameter.read : (parameter : Parameter) → parameter.Every formed →
    parameter.Every printable → IsBindingName parameter.name
      ∧ Reads (Reader.parameter TypeExpr.reader) parameter.lexemes parameter IsEnd
  | ⟨name, optional, type⟩, hformed, hprintable =>
    ⟨hformed.1, reads_parameter hformed.1 (readOption type hformed.2 hprintable.2)⟩

/-- The same for parameters, one by one. -/
theorem readParameters : (parameters : List Parameter) → everyParameter formed parameters →
    everyParameter printable parameters → ParametersRead parameters
  | [], _, _ => fun _ hin => absurd hin List.not_mem_nil
  | parameter :: rest, hformed, hprintable => List.forall_mem_cons.mpr
    ⟨parameter.read hformed.1 hprintable.1, readParameters rest hformed.2 hprintable.2⟩

/-- The lexemes of a member that is not static are read as the member without modifiers. -/
theorem Member.readBody : (member : Member) → (∀ inner, member ≠ .static inner) →
    member.Every formed → member.Every printable →
    Reads (memberBody TypeExpr.reader) member.lexemes member IsSemicolon
  | .call signature, _, hformed, hprintable =>
    reads_memberBody_call (signature.read hformed.2 hprintable.2)
  | .construct signature, _, hformed, hprintable =>
    reads_memberBody_construct (signature.read hformed.2 hprintable.2)
  | .index parameter type, _, hformed, hprintable =>
    reads_memberBody_index (parameter.read hformed.2.1 hprintable.2.1).2
      ((type.isRead hformed.2.2 hprintable.2.2).plain hformed.1.2)
  | .property name optional type, _, hformed, hprintable => by
    obtain ⟨lexeme, ⟨hscanned, hstring⟩, hname⟩ := hprintable.1
    cases (writes_propertyName hscanned hstring hname).2
    exact reads_memberBody_property hname (readOption type hformed.2 hprintable.2) hformed.1.2
  | .method name optional signature, _, hformed, hprintable => by
    obtain ⟨lexeme, ⟨hscanned, hstring⟩, hname, hnew⟩ := hprintable.1
    cases (writes_propertyName hscanned hstring hname).2
    exact reads_memberBody_method hname hnew (signature.read hformed.2 hprintable.2)
  | .static inner, hstatic, _, _ => absurd rfl (hstatic inner)

/-- The lexemes of a member are read as the member. -/
theorem Member.read : (member : Member) → member.Every formed → member.Every printable →
    Reads (Reader.member TypeExpr.reader) member.lexemes member IsSemicolon
  | .static inner, hformed, hprintable =>
    reads_member_static (inner.unmodified hformed.1.2.1)
      (inner.not_endsName hformed.1.2.1 hformed.1.2.2)
      (inner.readBody hformed.1.2.1 hformed.2 hprintable.2)
  | .call signature, hformed, hprintable =>
    reads_member_plain (Member.unmodified _ fun _ => Member.noConfusion)
      (Member.readBody (.call signature) (fun _ => Member.noConfusion) hformed hprintable)
  | .construct signature, hformed, hprintable =>
    reads_member_plain (Member.unmodified _ fun _ => Member.noConfusion)
      (Member.readBody (.construct signature) (fun _ => Member.noConfusion) hformed hprintable)
  | .index parameter type, hformed, hprintable =>
    reads_member_plain (Member.unmodified _ fun _ => Member.noConfusion)
      (Member.readBody (.index parameter type) (fun _ => Member.noConfusion) hformed hprintable)
  | .property name optional type, hformed, hprintable =>
    reads_member_plain (Member.unmodified _ fun _ => Member.noConfusion)
      (Member.readBody (.property name optional type) (fun _ => Member.noConfusion) hformed
        hprintable)
  | .method name optional signature, hformed, hprintable =>
    reads_member_plain (Member.unmodified _ fun _ => Member.noConfusion)
      (Member.readBody (.method name optional signature) (fun _ => Member.noConfusion) hformed
        hprintable)

/-- The same for members, one by one. -/
theorem readMembers : (members : List Member) → everyMember formed members →
    everyMember printable members → MembersRead members
  | [], _, _ => fun _ hin => absurd hin List.not_mem_nil
  | member :: rest, hformed, hprintable => List.forall_mem_cons.mpr
    ⟨member.read hformed.1 hprintable.1, readMembers rest hformed.2 hprintable.2⟩

end

end Facade
