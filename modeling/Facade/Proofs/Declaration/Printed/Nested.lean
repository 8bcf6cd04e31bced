import Facade.Proofs.Declaration.Printed.Lexemes

/-!
# The first lexemes of a type, and its parentheses

Two facts about the lexemes of types that the reader of types decides by before it reads anything.
What comes first tells a type from the end of a list (`TypeExpr.startsType_lexemes`). And behind
an opening parenthesis, the reader looks for the one that closes it: since every other parenthesis
of a type is closed again, the search passes over the types in between (`TypeExpr.nested`).
-/

set_option autoImplicit false

namespace Facade

/-! ### What comes first -/

/-- Whether a type or a member may start with the lexeme. Closing brackets and bars do not come
first. -/
def Lexeme.startsType : Lexeme → Bool
  | .mark m => m ∈ [.minus, .braceOpen, .bracketOpen, .parenOpen, .less]
  | _ => true

/-- Lexemes that a type or a member may start with. -/
def StartsType (lexemes : List Lexeme) : Prop :=
  ∃ first rest, lexemes = first :: rest ∧ first.startsType = true

/-- What a type starts with does not change with what is put behind it. -/
theorem StartsType.append {lexemes : List Lexeme} (h : StartsType lexemes) (more : List Lexeme) :
    StartsType (lexemes ++ more) := by
  obtain ⟨first, rest, rfl, hfirst⟩ := h
  exact ⟨first, rest ++ more, rfl, hfirst⟩

/-- A type may start with a word. -/
theorem startsType_wordLexeme (text : String) : (Cursor.wordLexeme text).startsType = true := by
  rw [Cursor.wordLexeme]
  cases Word.ofText? text <;> rfl

/-- A type may start with anything that is spelled like the name of a member. -/
theorem startsType_ofSpelling (text : String) : (Lexeme.ofSpelling text).startsType = true := by
  rw [Lexeme.ofSpelling]
  split
  · split
    · rfl
    · exact startsType_wordLexeme text
  · exact startsType_wordLexeme text

/-- A literal starts with a word, a number, a string or a minus. -/
theorem startsType_literal (text : String) : StartsType (literalLexemes text) := by
  rw [literalLexemes]
  split
  · exact ⟨_, [], rfl, rfl⟩
  · exact ⟨_, [_], rfl, rfl⟩
  · exact ⟨_, [], rfl, startsType_ofSpelling text⟩

/-- A path starts with its first name. -/
theorem startsType_path (name : String) (path : List String) :
    StartsType (pathLexemes (name :: path)) := by
  cases path with
  | nil => exact ⟨_, [], rfl, startsType_wordLexeme name⟩
  | cons next path => exact ⟨_, _, rfl, startsType_wordLexeme name⟩

/-- What is joined starts as its first part does. -/
theorem startsType_intercalate {between first : List Lexeme} (h : StartsType first)
    (rest : List (List Lexeme)) : StartsType (List.intercalate between (first :: rest)) := by
  cases rest with
  | nil =>
    rw [List.intercalate_singleton]
    exact h
  | cons next rest =>
    rw [List.intercalate_cons_cons, List.append_assoc]
    exact h.append _

/-- A signature starts with a bracket. -/
theorem startsType_angles (items : List (List Lexeme)) (lexemes : List Lexeme) :
    StartsType (angleLexemes items ++ ([.mark .parenOpen] ++ lexemes)) := by
  cases items with
  | nil => exact ⟨_, _, rfl, rfl⟩
  | cons item items => exact ⟨.mark .less, _, rfl, rfl⟩

/-- A path with arguments starts with its first name, and an array with its element. -/
theorem startsType_applied {path : List String} (hpath : path ≠ []) {arguments : List (List Lexeme)}
    (h : ∀ first ∈ arguments, StartsType first) : StartsType (appliedLexemes path arguments) := by
  rw [appliedLexemes.eq_def]
  split
  · exact (h _ List.mem_cons_self).append _
  · obtain ⟨name, path, rfl⟩ := List.exists_cons_of_ne_nil hpath
    exact (startsType_path name path).append _

mutual

/-- A type of the shape that is read starts with a lexeme that neither closes nor separates. -/
theorem TypeExpr.startsType_lexemes : (type : TypeExpr) → type.Every formed →
    StartsType type.lexemes
  | .primitive type, _ => ⟨_, [], rfl, startsType_wordLexeme type.spelling⟩
  | .named path arguments, hformed => by
    obtain ⟨⟨⟨first, more, rfl, -⟩, -⟩, hall⟩ := hformed
    exact startsType_applied (List.cons_ne_nil first more) (startsType_types arguments hall)
  | .object members, _ => ⟨_, _, rfl, rfl⟩
  | .function ⟨_, _, _⟩, _ => startsType_angles _ _
  | .constructor _, _ => ⟨_, _, rfl, rfl⟩
  | .repeated element, hformed => (element.startsType_lexemes hformed.2).append _
  | .union [], hformed => absurd hformed.1.1 (by decide)
  | .union (first :: rest), hformed =>
    startsType_intercalate (first.startsType_lexemes hformed.2.1) _
  | .intersection [], hformed => absurd hformed.1.1 (by decide)
  | .intersection (first :: rest), hformed =>
    startsType_intercalate (first.startsType_lexemes hformed.2.1) _
  | .tuple _, _ => ⟨_, _, rfl, rfl⟩
  | .literal text, _ => startsType_literal text
  | .query _, _ => ⟨_, _, rfl, rfl⟩
  | .parenthesized _, _ => ⟨_, _, rfl, rfl⟩

/-- Each of several types starts like that. -/
theorem startsType_types : (types : List TypeExpr) → everyType formed types →
    ∀ lexemes ∈ typeLexemes types, StartsType lexemes
  | [], _ => fun _ hin => absurd hin List.not_mem_nil
  | type :: rest, hformed => List.forall_mem_cons.mpr
    ⟨type.startsType_lexemes hformed.1, startsType_types rest hformed.2⟩

end

/-- A signature starts with an angle bracket or a parenthesis. -/
theorem Signature.startsType_lexemes (signature : Signature) : StartsType signature.lexemes :=
  match signature with
  | ⟨_, _, _⟩ => startsType_angles _ _

/-- A member starts with a bracket, a word or its name. -/
theorem Member.startsType_lexemes (member : Member) : StartsType member.lexemes := by
  cases member with
  | call signature => exact signature.startsType_lexemes
  | construct signature => exact ⟨_, _, rfl, rfl⟩
  | index parameter type => exact ⟨_, _, rfl, rfl⟩
  | property name optional type => exact ⟨_, _, rfl, startsType_ofSpelling name⟩
  | method name optional signature => exact ⟨_, _, rfl, startsType_ofSpelling name⟩
  | static member => exact ⟨_, _, rfl, rfl⟩

/-! ### Parentheses -/

/-- The search for a closing parenthesis passes over tokens with these lexemes. -/
def Nested (lexemes : List Lexeme) : Prop :=
  ∀ (tokens rest : List Token) (depth : Nat), tokens.map Token.lexeme = lexemes →
    Reader.closesBeforeArrow (depth + 1) (tokens ++ rest)
      = Reader.closesBeforeArrow (depth + 1) rest

/-- There is nothing to pass over in no lexemes. -/
theorem nested_nil : Nested [] := by
  intro tokens rest depth htokens
  rw [List.map_eq_nil_iff.mp htokens]
  rfl

/-- What is passed over part by part is passed over as a whole. -/
theorem Nested.append {first second : List Lexeme} (h : Nested first) (h' : Nested second) :
    Nested (first ++ second) := by
  intro tokens rest depth htokens
  obtain ⟨front, behind, rfl, hfront, hbehind⟩ := List.map_eq_append_iff.mp htokens
  rw [List.append_assoc, h front _ depth hfront, h' behind rest depth hbehind]

/-- A lexeme that is no parenthesis is passed over. -/
theorem nested_single {lexeme : Lexeme}
    (h : lexeme ≠ .mark .parenOpen ∧ lexeme ≠ .mark .parenClose) : Nested [lexeme] := by
  intro tokens rest depth htokens
  obtain ⟨token, rfl, rfl⟩ := List.map_eq_singleton_iff.mp htokens
  rw [List.singleton_append, Reader.closesBeforeArrow, if_neg h.1, if_neg h.2]

/-- A parenthesis that is closed again. -/
theorem Nested.parens {lexemes : List Lexeme} (h : Nested lexemes) :
    Nested ([.mark .parenOpen] ++ (lexemes ++ [.mark .parenClose])) := by
  intro tokens rest depth htokens
  obtain ⟨front, behind, rfl, hfront, hbehind⟩ := List.map_eq_append_iff.mp htokens
  obtain ⟨inner, back, rfl, hinner, hback⟩ := List.map_eq_append_iff.mp hbehind
  obtain ⟨opening, rfl, hopening⟩ := List.map_eq_singleton_iff.mp hfront
  obtain ⟨closing, rfl, hclosing⟩ := List.map_eq_singleton_iff.mp hback
  have hdeep : ¬ depth + 1 + 1 ≤ 1 := by omega
  rw [List.append_assoc, List.append_assoc, List.singleton_append, List.singleton_append,
    Reader.closesBeforeArrow, if_pos hopening, h inner _ (depth + 1) hinner,
    Reader.closesBeforeArrow, hclosing, if_neg (by decide), if_pos rfl, if_neg hdeep]
  rfl

/-- A word is no parenthesis. -/
theorem nested_wordLexeme (text : String) : Nested [Cursor.wordLexeme text] := by
  refine nested_single ?_
  rw [Cursor.wordLexeme]
  cases Word.ofText? text <;> exact ⟨Lexeme.noConfusion, Lexeme.noConfusion⟩

/-- Neither is anything that is spelled like the name of a member. -/
theorem nested_ofSpelling (text : String) : Nested [Lexeme.ofSpelling text] := by
  rw [Lexeme.ofSpelling]
  split
  · split
    · exact nested_single ⟨Lexeme.noConfusion, Lexeme.noConfusion⟩
    · exact nested_wordLexeme text
  · exact nested_wordLexeme text

/-- Nor is there one in a literal. -/
theorem nested_literal (text : String) : Nested (literalLexemes text) := by
  rw [literalLexemes]
  split
  · exact nested_single ⟨Lexeme.noConfusion, Lexeme.noConfusion⟩
  · have hsign : Nested [.mark .minus] := nested_single (by decide)
    exact hsign.append (nested_single ⟨Lexeme.noConfusion, Lexeme.noConfusion⟩)
  · exact nested_ofSpelling text

/-- What is joined is passed over if its parts and what stands between them are. -/
theorem nested_intercalate {between : List Lexeme} (hbetween : Nested between)
    {items : List (List Lexeme)} (h : ∀ item ∈ items, Nested item) :
    Nested (List.intercalate between items) := by
  induction items with
  | nil => exact nested_nil
  | cons item items ih =>
    rw [List.forall_mem_cons] at h
    cases items with
    | nil =>
      rw [List.intercalate_singleton]
      exact h.1
    | cons next items =>
      rw [List.intercalate_cons_cons]
      exact (h.1.append hbetween).append (ih h.2)

/-- There are no parentheses in a path. -/
theorem nested_path (path : List String) : Nested (pathLexemes path) := by
  refine nested_intercalate (nested_single (by decide)) fun item hitem => ?_
  obtain ⟨name, -, rfl⟩ := List.mem_map.mp hitem
  exact nested_wordLexeme name

/-- Items with commas between them are passed over if each of them is. -/
theorem nested_commas {items : List (List Lexeme)} (h : ∀ item ∈ items, Nested item) :
    Nested (commaLexemes items) :=
  nested_intercalate (nested_single (by decide)) h

/-- So are items in angle brackets. -/
theorem nested_angles {items : List (List Lexeme)} (h : ∀ item ∈ items, Nested item) :
    Nested (angleLexemes items) := by
  cases items with
  | nil => exact nested_nil
  | cons item items =>
    have hless : Nested [.mark .less] := nested_single (by decide)
    exact hless.append ((nested_commas h).append (nested_single (by decide)))

/-- There are no parentheses in a pair of brackets. -/
theorem nested_brackets : Nested [.mark .bracketOpen, .mark .bracketClose] := by
  have hopen : Nested [.mark .bracketOpen] := nested_single (by decide)
  exact hopen.append (nested_single (by decide))

/-- Items in braces are passed over if each of them is. -/
theorem nested_braces {items : List (List Lexeme)} (h : ∀ item ∈ items, Nested item) :
    Nested (braceLexemes items) := by
  have hopen : Nested [.mark .braceOpen] := nested_single (by decide)
  refine hopen.append (.append ?_ (nested_single (by decide)))
  induction items with
  | nil => exact nested_nil
  | cons item items ih =>
    rw [List.forall_mem_cons] at h
    rw [List.flatMap_cons]
    exact (h.1.append (nested_single (by decide))).append (ih h.2)

/-- So is a path with arguments, or an array. -/
theorem nested_applied (path : List String) {arguments : List (List Lexeme)}
    (h : ∀ item ∈ arguments, Nested item) : Nested (appliedLexemes path arguments) := by
  rw [appliedLexemes.eq_def]
  split
  · exact (h _ List.mem_cons_self).append nested_brackets
  · exact (nested_path _).append (nested_angles h)

/-- A question mark is no parenthesis. -/
theorem nested_optional (optional : Bool) : Nested (optionalLexemes optional) := by
  cases optional with
  | true => exact nested_single (by decide)
  | false => exact nested_nil

/-- Neither are the dots of a rest parameter. -/
theorem nested_rest (type : Option TypeExpr) : Nested (restLexemes type) := by
  rw [restLexemes.eq_def]
  split
  · exact nested_single (by decide)
  · exact nested_nil

/-- Type parameters and parameters, and what comes behind them. -/
theorem nested_parameters {typeItems items : List (List Lexeme)} {lexemes : List Lexeme}
    (htypes : ∀ item ∈ typeItems, Nested item) (hitems : ∀ item ∈ items, Nested item)
    (h : Nested lexemes) : Nested (angleLexemes typeItems ++ ([.mark .parenOpen]
      ++ (commaLexemes items ++ ([.mark .parenClose] ++ lexemes)))) := by
  have hparens := (nested_commas hitems).parens.append h
  rw [List.append_assoc, List.append_assoc] at hparens
  exact (nested_angles htypes).append hparens

mutual

/-- Every parenthesis of a type is closed again. -/
theorem TypeExpr.nested : (type : TypeExpr) → Nested type.lexemes
  | .primitive _ => nested_wordLexeme _
  | .named path arguments => nested_applied path (nested_types arguments)
  | .object members => nested_braces (nested_members members)
  | .function signature => signature.nestedFunction
  | .constructor signature =>
    .append (nested_single (by decide)) signature.nestedFunction
  | .repeated element => element.nested.append nested_brackets
  | .union types => nested_intercalate (nested_single (by decide)) (nested_types types)
  | .intersection types => nested_intercalate (nested_single (by decide)) (nested_types types)
  | .tuple types =>
    .append (nested_single (by decide))
      ((nested_commas (nested_types types)).append (nested_single (by decide)))
  | .literal text => nested_literal text
  | .query path => .append (nested_single (by decide)) (nested_path path)
  | .parenthesized inner => inner.nested.parens

/-- Every parenthesis of each of several types is closed again. -/
theorem nested_types : (types : List TypeExpr) → ∀ item ∈ typeLexemes types, Nested item
  | [] => fun _ hin => absurd hin List.not_mem_nil
  | type :: rest => List.forall_mem_cons.mpr ⟨type.nested, nested_types rest⟩

/-- So is every one of a signature with an arrow, those of its parameters among them. -/
theorem Signature.nestedFunction : (signature : Signature) → Nested signature.functionLexemes
  | ⟨typeParameters, parameters, result⟩ =>
    nested_parameters (nested_typeParameters typeParameters) (nested_parameterItems parameters)
      (.append (nested_single (by decide)) (nested_result result))

/-- So is every one of a signature. -/
theorem Signature.nested : (signature : Signature) → Nested signature.lexemes
  | ⟨typeParameters, parameters, result⟩ =>
    nested_parameters (nested_typeParameters typeParameters) (nested_parameterItems parameters)
      (nested_clause _ (by decide) result)

/-- So is every one of a result, which may be missing. -/
theorem nested_result : (type : Option TypeExpr) → Nested (resultLexemes type)
  | none => nested_single (by decide)
  | some type => type.nested

/-- So is every one of a type behind a lexeme that is no parenthesis itself. -/
theorem nested_clause (lexeme : Lexeme)
    (h : lexeme ≠ .mark .parenOpen ∧ lexeme ≠ .mark .parenClose) :
    (type : Option TypeExpr) → Nested (clauseLexemes lexeme type)
  | none => nested_nil
  | some type => (nested_single h).append type.nested

/-- So is every one of a type parameter. -/
theorem TypeParameter.nested : (parameter : TypeParameter) → Nested parameter.lexemes
  | ⟨name, bound, default⟩ =>
    (nested_wordLexeme name).append
      ((nested_clause _ (by decide) bound).append (nested_clause _ (by decide) default))

/-- So is every one of each of several type parameters. -/
theorem nested_typeParameters : (parameters : List TypeParameter) →
    ∀ item ∈ typeParameterLexemes parameters, Nested item
  | [] => fun _ hin => absurd hin List.not_mem_nil
  | parameter :: rest => List.forall_mem_cons.mpr ⟨parameter.nested, nested_typeParameters rest⟩

/-- So is every one of a parameter. -/
theorem Parameter.nested : (parameter : Parameter) → Nested parameter.lexemes
  | ⟨name, optional, type⟩ =>
    (nested_rest type).append ((nested_wordLexeme name).append
      ((nested_optional optional).append (nested_clause _ (by decide) type)))

/-- So is every one of each of several parameters. -/
theorem nested_parameterItems : (parameters : List Parameter) →
    ∀ item ∈ parameterLexemes parameters, Nested item
  | [] => fun _ hin => absurd hin List.not_mem_nil
  | parameter :: rest => List.forall_mem_cons.mpr ⟨parameter.nested, nested_parameterItems rest⟩

/-- So is every one of a member. -/
theorem Member.nested : (member : Member) → Nested member.lexemes
  | .call signature => signature.nested
  | .construct signature => .append (nested_single (by decide)) signature.nested
  | .index parameter type =>
    .append (nested_single (by decide)) (parameter.nested.append
      (.append (nested_single (by decide)) (.append (nested_single (by decide)) type.nested)))
  | .property name optional type =>
    (nested_ofSpelling name).append
      ((nested_optional optional).append (nested_clause _ (by decide) type))
  | .method name optional signature =>
    (nested_ofSpelling name).append ((nested_optional optional).append signature.nested)
  | .static member => .append (nested_single (by decide)) member.nested

/-- So is every one of each of several members. -/
theorem nested_members : (members : List Member) → ∀ item ∈ memberLexemes members, Nested item
  | [] => fun _ hin => absurd hin List.not_mem_nil
  | member :: rest => List.forall_mem_cons.mpr ⟨member.nested, nested_members rest⟩

end

end Facade
