import Facade.Proofs.Declaration.Printed.Lexemes

/-!
# Printed types are scanned as their lexemes

A type is printed piece by piece, and every piece is written for its lexemes in front of what may
come next (`Writes`). Behind a whole type, all that matters is that no word or number goes on and
that a closing bracket does not become a comparison (`Free`), so one condition does for every
type. The theorems follow the functions that print.
-/

set_option autoImplicit false

namespace Facade

open Facade.Text

/-! ### What may come behind -/

/-- A text that neither a word nor a number nor a closing angle bracket goes on with. -/
structure Free (text : List Char) : Prop where
  breaks : Breaks text
  angle : AngleSafe text

/-- Blank space and most marks may come behind a type. -/
theorem free_cons {c : Char} (h : c ∈ [' ', ',', ';', ':', '?', '(', ')', '[', ']', '<', '{', '}'])
    (text : List Char) : Free (c :: text) := by
  have hfirst : isBreak c = true ∧ (c == '>') = false ∧ c ≠ '=' := by
    simp only [List.mem_cons, List.not_mem_nil, or_false] at h
    rcases h with rfl | rfl | rfl | rfl | rfl | rfl | rfl | rfl | rfl | rfl | rfl | rfl <;> decide
  obtain ⟨hbreak, hangle, hassign⟩ := hfirst
  refine ⟨fun d hd => ?_, ?_⟩
  · cases Option.mem_some_iff.mp hd
    exact hbreak
  · rw [AngleSafe, List.dropWhile_cons, hangle]
    exact fun heq => hassign (Option.some.inj heq)

/-- So may another closing angle bracket, as long as neither of the two starts a comparison. -/
theorem free_greater {text : List Char} (h : AngleSafe text) : Free ('>' :: text) := by
  refine ⟨fun d hd => ?_, h⟩
  cases Option.mem_some_iff.mp hd
  rfl

/-- Behind such a text's beginning, a word ends. -/
theorem Free.wordEnds {text : List Char} (h : Free text) : WordEnds text :=
  h.breaks.wordEnds

/-! ### Pieces -/

namespace Writes

variable {text text' : String} {lexemes lexemes' : List Lexeme} {ends ends' : List Char → Prop}

/-- Two pieces of a text. -/
theorem join (h : Writes text.toList lexemes ends) (h' : Writes text'.toList lexemes' ends')
    (hends : ∀ rest, ends' rest → ends (text'.toList ++ rest)) :
    Writes (text ++ text').toList (lexemes ++ lexemes') ends' := by
  rw [String.toList_append]
  exact h.append h' hends

/-- Nothing is written for no lexemes. -/
theorem empty (ends : List Char → Prop) : Writes "".toList [] ends :=
  .nil ends

/-- A space behind a piece. -/
theorem space (h : Writes text.toList lexemes ends) (hends : ∀ rest, ends (' ' :: rest))
    (ends' : List Char → Prop) : Writes (text ++ " ").toList lexemes ends' := by
  rw [← List.append_nil lexemes]
  exact h.join (writes_space ends') fun rest _ => hends rest

/-- A space in front of a piece. -/
theorem behindSpace (h : Writes text.toList lexemes ends) :
    Writes (" " ++ text).toList lexemes ends := by
  have hspace := (writes_space fun _ => True).append h fun _ _ => trivial
  rw [String.toList_append]
  exact hspace

end Writes

/-- A word that is reserved. -/
theorem writes_spelling (word : Word) : Writes word.spelling.toList [.word word] Free :=
  (writes_reserved word).mono fun _ hfree => hfree.wordEnds

/-- A mark with a space behind it. -/
theorem writes_markSpace (mark : Mark) {c : Char} (hmark : mark.chars = [c])
    (hangle : (Lexeme.mark mark).isAngle = false) (hslash : c ≠ '/') (hdot : mark ≠ .dot)
    (hspace : ' ' ∉ Mark.followers c) (ends : List Char → Prop) :
    Writes [c, ' '] [.mark mark] ends := by
  have hwrites := (writes_markBefore mark hmark hangle hslash hdot).append (writes_space ends)
    fun rest _ d hd => by
      cases Option.mem_some_iff.mp hd
      exact hspace
  exact hwrites

/-! ### Names and literals -/

/-- A name is written for the lexeme of its word. -/
theorem IsName.writes {text : String} (h : IsName text) :
    Writes text.toList [Cursor.wordLexeme text] Free :=
  (writes_word h.1).mono fun _ hfree => hfree.wordEnds

/-- What a lexeme gives as a name to declare is spelled as a word. -/
theorem IsBindingName.isWord {text : String} (h : IsBindingName text) :
    Identifier.isWord text.toList = true := by
  obtain ⟨lexeme, hscanned, hname⟩ := h
  cases lexeme with
  | name name =>
    cases hname
    exact hscanned.1
  | word word =>
    rw [Lexeme.bindingName?] at hname
    split at hname
    · cases hname
      exact isWord_spelling word
    · cases hname
  | _ => cases hname

/-- A name that can be declared is written for the lexeme of its word. -/
theorem IsBindingName.writes {text : String} (h : IsBindingName text) :
    Writes text.toList [Cursor.wordLexeme text] Free :=
  (writes_word h.isWord).mono fun _ hfree => hfree.wordEnds

/-- A word does not start as a number does. -/
theorem startsNumber_of_isWord {c : Char} {rest : List Char}
    (h : Identifier.isWord (c :: rest) = true) (text : List Char) :
    Cursor.startsNumber c text = false := by
  rw [Identifier.isWord, Bool.and_eq_true] at h
  obtain ⟨-, -, hdigit, hdot⟩ := ne_of_startsWord h.1
  simp [Cursor.startsNumber, hdigit, hdot]

/-- What is spelled as a word is the lexeme of that word. -/
theorem Lexeme.ofSpelling_of_isWord {text : String} (h : Identifier.isWord text.toList = true) :
    Lexeme.ofSpelling text = Cursor.wordLexeme text := by
  rw [Lexeme.ofSpelling]
  cases hchars : text.toList with
  | nil => rfl
  | cons c rest =>
    rw [hchars] at h
    dsimp only
    rw [startsNumber_of_isWord h rest, if_neg Bool.false_ne_true]

/-- What is spelled as a number is the lexeme of that number. -/
theorem Lexeme.ofSpelling_of_isNumber {text : String} (h : IsNumber text) :
    Lexeme.ofSpelling text = .number text := by
  obtain ⟨c, rest, hchars, hstarts, -⟩ := h
  rw [Lexeme.ofSpelling, hchars]
  dsimp only
  rw [if_pos hstarts]

/-- The name of a member, which is spelled like a lexeme that is no string. -/
theorem writes_propertyName {lexeme : Lexeme} {name : String} (hscanned : lexeme.Scanned)
    (hstring : lexeme.isString = false) (hname : lexeme.propertyName? = some name) :
    Writes name.toList [.ofSpelling name] Free ∧ lexeme = .ofSpelling name := by
  cases lexeme with
  | name text =>
    cases hname
    rw [Lexeme.ofSpelling_of_isWord hscanned.1]
    refine ⟨IsName.writes hscanned, ?_⟩
    rw [Cursor.wordLexeme, hscanned.2]
  | word word =>
    cases hname
    rw [Lexeme.ofSpelling_of_isWord (isWord_spelling word), Cursor.wordLexeme,
      Word.ofText?_spelling]
    exact ⟨writes_spelling word, rfl⟩
  | number text =>
    cases hname
    rw [Lexeme.ofSpelling_of_isNumber hscanned]
    exact ⟨(writes_number hscanned).mono fun _ hfree => hfree.breaks, rfl⟩
  | string text => cases hstring
  | mark mark => cases hname

/-- A number is written for its lexeme. -/
theorem IsNumber.writes {text : String} (h : IsNumber text) :
    Writes text.toList [.number text] Free :=
  (writes_number h).mono fun _ hfree => hfree.breaks

/-- Neither a quote nor a minus starts a number or a word. -/
theorem literalLexemes_eq {text : String} {c : Char} {rest : List Char}
    (hchars : text.toList = c :: rest) (hquote : c ≠ '"') (hminus : c ≠ '-') :
    literalLexemes text = [.ofSpelling text] := by
  rw [literalLexemes, hchars]
  split
  · exact absurd (List.cons.inj ‹_›).1 hquote
  · exact absurd (List.cons.inj ‹_›).1 hminus
  · rfl

/-- A number starts with a digit or a dot, so with none of these. -/
theorem startsNumber_ne {c : Char} {text : List Char} (h : Cursor.startsNumber c text = true) :
    c ≠ '"' ∧ c ≠ '-' ∧ c ≠ '=' ∧ c ≠ '<' := by
  refine ⟨?_, ?_, ?_, ?_⟩ <;>
  · rintro rfl
    simp [Cursor.startsNumber] at h

/-- The lexemes of a literal that is read back. -/
theorem IsLiteral.lexemes_cases {text : String} (h : IsLiteral text)
    (hplain : IsPlainLiteral text) :
    (∃ value, text = quoted value ∧ (∀ c ∈ value.toList, Quoted.isShort c = true)
        ∧ literalLexemes text = [.string value])
      ∨ (IsNumber text ∧ literalLexemes text = [.number text])
      ∨ (∃ number, IsNumber number ∧ text = "-" ++ number
        ∧ literalLexemes text = [.mark .minus, .number number])
      ∨ ∃ word ∈ [Word.trueWord, .falseWord, .nullWord, .thisWord], text = word.spelling
        ∧ literalLexemes text = [.word word] := by
  rcases h with ⟨value, htext⟩ | hnumber | ⟨number, hnumber, rfl⟩ | hword
  -- Of quoted literals, only those with short escapes are read back as they are.
  · rcases hplain with hnot | ⟨value, rfl, hshort⟩
    · exact absurd htext (hnot value)
    · refine .inl ⟨value, rfl, hshort, ?_⟩
      have htext : (quoted value).toList = '"' :: (Quoted.encode value.toList ++ ['"']) := by
        rw [quoted, String.toList_ofList, List.cons_append]
      have hread := readsQuoted_encodeChar.closed value.toList [] 0
      rw [(flatMap_readBack_eq_self value.toList).mpr hshort] at hread
      rw [literalLexemes, htext, Quoted.encode]
      simp only [hread, String.ofList_toList]
  · obtain ⟨c, rest, hchars, hstarts, -⟩ := id hnumber
    obtain ⟨hquote, hminus, -⟩ := startsNumber_ne hstarts
    refine .inr (.inl ⟨hnumber, ?_⟩)
    rw [literalLexemes_eq hchars hquote hminus, Lexeme.ofSpelling_of_isNumber hnumber]
  · refine .inr (.inr (.inl ⟨number, hnumber, rfl, ?_⟩))
    have htext : ("-" ++ number).toList = '-' :: number.toList := by
      rw [String.toList_append]
      rfl
    rw [literalLexemes, htext]
    exact congrArg (fun text => [Lexeme.mark .minus, .number text]) String.ofList_toList
  · have hall : ∀ word ∈ [Word.trueWord, .falseWord, .nullWord, .thisWord],
        literalLexemes word.spelling = [.word word] := by decide +kernel
    have hspelled : ∃ word ∈ [Word.trueWord, .falseWord, .nullWord, .thisWord],
        text = word.spelling := by
      simp only [List.mem_cons, List.not_mem_nil, or_false] at hword
      rcases hword with rfl | rfl | rfl | rfl
      · exact ⟨.trueWord, by decide, rfl⟩
      · exact ⟨.falseWord, by decide, rfl⟩
      · exact ⟨.nullWord, by decide, rfl⟩
      · exact ⟨.thisWord, by decide, rfl⟩
    obtain ⟨word, hin, rfl⟩ := hspelled
    exact .inr (.inr (.inr ⟨word, hin, rfl, hall word hin⟩))

/-- A literal is written for its lexemes: one, or two if it has a minus. -/
theorem writes_literal {text : String} (h : IsLiteral text) (hplain : IsPlainLiteral text) :
    Writes text.toList (literalLexemes text) Free := by
  rcases h.lexemes_cases hplain with ⟨value, rfl, hshort, hlexemes⟩ | ⟨hnumber, hlexemes⟩
    | ⟨number, hnumber, rfl, hlexemes⟩ | ⟨word, -, rfl, hlexemes⟩
  · rw [hlexemes]
    exact writes_string hshort Free
  · rw [hlexemes]
    exact hnumber.writes
  · obtain ⟨c, rest, hchars, hstarts, -⟩ := id hnumber
    obtain ⟨-, hminus, hassign, -⟩ := startsNumber_ne hstarts
    have hsign : Writes "-".toList [.mark .minus] fun rest =>
        ∀ d ∈ rest.head?, d ∉ Mark.followers '-' :=
      writes_markBefore .minus rfl rfl (by decide) (by decide)
    rw [hlexemes]
    -- The minus is not read together with the number: no mark goes on with a digit or a dot.
    refine hsign.join hnumber.writes fun behind _ d hd => ?_
    rw [hchars] at hd
    cases Option.mem_some_iff.mp hd
    have hfollowers : Mark.followers '-' = ['-', '='] := by decide
    rw [hfollowers]
    simpa using ⟨hminus, hassign⟩
  · rw [hlexemes]
    exact writes_spelling word

/-! ### Lists -/

/-- A word has a first character, which is one that starts words. -/
theorem exists_of_isWord {text : String} (h : Identifier.isWord text.toList = true) :
    ∃ c rest, text.toList = c :: rest ∧ startsWord c = true := by
  cases hchars : text.toList with
  | nil =>
    rw [hchars] at h
    cases h
  | cons c rest =>
    rw [hchars, Identifier.isWord, Bool.and_eq_true] at h
    exact ⟨c, rest, rfl, h.1⟩

/-- What is joined starts with the first text. -/
theorem toList_joined_cons (separator text : String) (rest : List String) :
    ∃ more, (joined separator (text :: rest)).toList = text.toList ++ more := by
  cases rest with
  | nil => exact ⟨[], (List.append_nil _).symm⟩
  | cons next rest =>
    rw [joined_cons_cons, String.append_assoc, String.toList_append]
    exact ⟨_, rfl⟩

/-- Names with dots between them. -/
theorem writes_path {path : List String} (h : ∀ name ∈ path, Identifier.isWord name.toList = true) :
    Writes (joined "." path).toList (pathLexemes path) Free := by
  induction path with
  | nil => exact .empty Free
  | cons name path ih =>
    rw [List.forall_mem_cons] at h
    have hname := writes_word h.1
    cases path with
    | nil => exact hname.mono fun _ hfree => hfree.wordEnds
    | cons next path =>
      have hdot : Writes ".".toList [.mark .dot] fun rest => ∃ c more, rest = c :: more
          ∧ startsWord c = true := by
        refine writes_mark .dot rfl (by decide) ?_ fun _ => ?_
        · rintro _ ⟨c, more, rfl, hc⟩
          refine leading?_single rfl fun d hd => ?_
          have hfollowers : Mark.followers '.' = ['.'] := by decide
          rw [hfollowers, List.mem_singleton]
          cases Option.mem_some_iff.mp hd
          exact (ne_of_startsWord hc).2.2.2
        · rintro _ ⟨c, more, rfl, hc⟩
          exact (ne_of_startsWord hc).2.2.1
      obtain ⟨c, more, hchars, hc⟩ := exists_of_isWord (List.forall_mem_cons.mp h.2).1
      rw [joined_cons_cons, pathLexemes, List.map_cons, List.map_cons, List.intercalate_cons_cons]
      refine (hname.join hdot fun rest _ d hd => ?_).join (ih h.2) fun rest _ => ?_
      -- A dot ends the word in front of it, and the word behind it is no second dot.
      · cases Option.mem_some_iff.mp hd
        rfl
      · obtain ⟨behind, hbehind⟩ := toList_joined_cons "." next path
        rw [hbehind, hchars]
        exact ⟨c, _, rfl, hc⟩

/-- Texts with a separator between them. -/
theorem writes_joined {separator : String} {between : List Lexeme}
    (hseparator : Writes separator.toList between fun _ => True)
    (hfree : ∀ rest, Free (separator.toList ++ rest)) {texts : List String}
    {lexemes : List (List Lexeme)}
    (h : List.Forall₂ (fun text items => Writes text.toList items Free) texts lexemes) :
    Writes (joined separator texts).toList (List.intercalate between lexemes) Free := by
  induction h with
  | nil => exact .empty Free
  | @cons text items texts lexemes htext hrest ih =>
    cases hrest with
    | nil =>
      rw [List.intercalate_singleton]
      exact htext
    | cons hnext hmore =>
      rw [joined_cons_cons, List.intercalate_cons_cons]
      exact (htext.join hseparator fun rest _ => hfree rest).join ih fun _ _ => trivial

/-- Texts that are written for lexemes, one by one. -/
abbrev WritesAll (texts : List String) (lexemes : List (List Lexeme)) : Prop :=
  List.Forall₂ (fun text items => Writes text.toList items Free) texts lexemes

/-- A comma and a space are written for the comma. -/
theorem writes_commaSpace (ends : List Char → Prop) : Writes ", ".toList [.mark .comma] ends :=
  (writes_markAlone .comma (fun _ => True) (by decide)).append (writes_space ends)
    fun _ _ => trivial

/-- Texts with commas between them are written for their lexemes with commas between them. -/
theorem WritesAll.commas {texts : List String} {lexemes : List (List Lexeme)}
    (h : WritesAll texts lexemes) : Writes (joined ", " texts).toList (commaLexemes lexemes) Free :=
  writes_joined (writes_commaSpace _) (fun _ => free_cons (by decide) _) h

/-- A text that starts with a character that does not go on with an opening angle bracket. -/
def StartsClear (text : List Char) : Prop :=
  ∃ c rest, text = c :: rest ∧ c ≠ '<' ∧ c ≠ '='

/-- What a text starts with does not change with what is put behind it. -/
theorem StartsClear.append {text : List Char} (h : StartsClear text) (more : List Char) :
    StartsClear (text ++ more) := by
  obtain ⟨c, rest, rfl, hc⟩ := h
  exact ⟨c, rest ++ more, rfl, hc⟩

/-- Texts in angle brackets, or none at all, are written for their lexemes in angle brackets. The
first must not make a comparison of the opening one. -/
theorem WritesAll.angles {texts : List String} {lexemes : List (List Lexeme)}
    (h : WritesAll texts lexemes) (hfirst : ∀ text ∈ texts.head?, StartsClear text.toList) :
    Writes (inAngles texts).toList (angleLexemes lexemes) Free := by
  cases h with
  | nil => exact .empty Free
  | @cons text items texts lexemes htext hmore =>
    have hless : Writes "<".toList [.mark .less] StartsClear := by
      refine (writes_markBefore .less rfl rfl (by decide) (by decide)).mono ?_
      rintro _ ⟨c, rest, rfl, hless, hassign⟩ d hd
      cases Option.mem_some_iff.mp hd
      have hfollowers : Mark.followers '<' = ['=', '<'] := by decide
      rw [hfollowers]
      simpa using ⟨hassign, hless⟩
    obtain ⟨more, hjoined⟩ := toList_joined_cons ", " text texts
    have hgreater : Writes ">".toList [.mark .greater] Free :=
      writes_greater.mono fun _ hfree => hfree.angle
    have hitems := (WritesAll.commas (.cons htext hmore)).join hgreater fun rest hfree =>
      free_greater hfree.angle
    rw [inAngles, String.append_assoc]
    refine hless.join hitems fun rest _ => ?_
    rw [String.toList_append, hjoined, List.append_assoc, List.append_assoc]
    exact (hfirst text rfl).append _

/-- Lists with nothing between them are just one after the other. -/
theorem intercalate_nil {α : Type} (lists : List (List α)) :
    List.intercalate [] lists = lists.flatten := by
  induction lists with
  | nil => rfl
  | cons first rest ih =>
    cases rest with
    | nil => simp
    | cons next rest => rw [List.intercalate_cons_cons, ih, List.append_nil, ← List.flatten_cons]

/-- A semicolon is written for itself, whatever comes behind it. -/
theorem writes_semicolon (ends : List Char → Prop) : Writes ";".toList [.mark .semicolon] ends :=
  writes_markAlone .semicolon ends (by decide)

/-- Texts in braces, each with a semicolon, are written for their lexemes in braces. -/
theorem WritesAll.braces {texts : List String} {lexemes : List (List Lexeme)}
    (h : WritesAll texts lexemes) (ends : List Char → Prop) :
    Writes (inBraces texts).toList (braceLexemes lexemes) ends := by
  have hclose : Writes "\x7d".toList [.mark .braceClose] ends :=
    writes_markAlone .braceClose ends (by decide)
  have hopen : Writes "\x7b".toList [.mark .braceOpen] fun _ => True :=
    writes_markAlone .braceOpen _ (by decide)
  cases h with
  | nil => exact hopen.join hclose fun _ _ => trivial
  | @cons text items texts lexemes htext hmore =>
    -- Every text has its semicolon behind it, and the texts are joined by blank space only.
    have hall : WritesAll ((text :: texts).map (· ++ ";"))
        ((items :: lexemes).map (· ++ [.mark .semicolon])) := by
      have hwrites : WritesAll (text :: texts) (items :: lexemes) := .cons htext hmore
      refine List.forall₂_map_left_iff.mpr (List.forall₂_map_right_iff.mpr ?_)
      refine hwrites.imp fun one many hone => ?_
      exact hone.join (writes_semicolon Free) fun _ _ => free_cons (by decide) _
    have hspace : Writes " ".toList [] fun _ => True := writes_space _
    have hitems := writes_joined hspace (fun _ => free_cons (by decide) _) hall
    rw [intercalate_nil, ← List.flatMap_def] at hitems
    have hfront := hopen.space (fun _ => trivial) fun _ => True
    have hbehind := hclose.behindSpace
    have hwhole := hfront.join (hitems.join hbehind fun _ _ => free_cons (by decide) _)
      fun _ _ => trivial
    rw [inBraces, String.append_assoc]
    exact hwhole

/-! ### The first character of a type -/

/-- A word starts with neither an angle bracket nor an equals sign. -/
theorem startsClear_of_isWord {text : String} (h : Identifier.isWord text.toList = true) :
    StartsClear text.toList := by
  obtain ⟨c, rest, hchars, hc⟩ := exists_of_isWord h
  refine ⟨c, rest, hchars, ?_, ?_⟩ <;>
  · rintro rfl
    revert hc
    decide

/-- Neither does a literal. -/
theorem startsClear_literal {text : String} (h : IsLiteral text) : StartsClear text.toList := by
  rcases h with ⟨value, rfl⟩ | ⟨c, rest, hchars, hstarts, -⟩ | ⟨number, -, rfl⟩ | hword
  · rw [quoted, String.toList_ofList]
    exact ⟨'"', _, rfl, by decide, by decide⟩
  · obtain ⟨-, -, hassign, hless⟩ := startsNumber_ne hstarts
    exact ⟨c, rest, hchars, hless, hassign⟩
  · rw [String.toList_append]
    exact ⟨'-', _, rfl, by decide, by decide⟩
  · simp only [List.mem_cons, List.not_mem_nil, or_false] at hword
    rcases hword with rfl | rfl | rfl | rfl <;> exact startsClear_of_isWord (by decide +kernel)

/-- An element of an array does not start with an angle bracket: it has no arrow. -/
theorem TypeExpr.startsWithAngle_of_isElement {type : TypeExpr} (h : type.isElement = true) :
    type.startsWithAngle = false := by
  cases type <;> first | rfl | cases h

/-- Only a type with an arrow starts with an angle bracket. -/
theorem TypeExpr.startsWithAngle_of_not_isArrow {type : TypeExpr} (h : type.isArrow = false) :
    type.startsWithAngle = false := by
  cases type <;> first | rfl | cases h

/-- So a type that does not even end in an arrow does not start with one. -/
theorem TypeExpr.startsWithAngle_of_not_endsInArrow {type : TypeExpr}
    (h : type.endsInArrow = false) : type.startsWithAngle = false := by
  cases type <;> first | rfl | cases h

/-- Braces are no angle brackets. -/
theorem startsClear_inBraces (texts : List String) : StartsClear (inBraces texts).toList := by
  cases texts with
  | nil => exact ⟨'\x7b', _, rfl, by decide, by decide⟩
  | cons text rest =>
    rw [inBraces, String.append_assoc, String.toList_append]
    exact ⟨'\x7b', _, rfl, by decide, by decide⟩

/-- What is joined starts as the first text does. -/
theorem startsClear_joined (separator : String) {text : String} (h : StartsClear text.toList)
    (rest : List String) : StartsClear (joined separator (text :: rest)).toList := by
  obtain ⟨more, hmore⟩ := toList_joined_cons separator text rest
  rw [hmore]
  exact h.append more

/-- Unless it is an array, a name is printed with its arguments in angle brackets. -/
theorem TypeExpr.display_named {path : List String} {arguments : List TypeExpr}
    (h : ∀ element, path = ["Array"] → arguments ≠ [element]) :
    (named path arguments).display = joined "." path ++ inAngles (displayTypes arguments) := by
  rw [display, applied.eq_def]
  split
  · rename_i hsingle
    match arguments, h, hsingle with
    | [element], h, _ => exact absurd rfl (h element rfl)
  · rfl

/-- The lexemes of a name with its arguments, unless it is an array. -/
theorem TypeExpr.lexemes_named {path : List String} {arguments : List TypeExpr}
    (h : ∀ element, path = ["Array"] → arguments ≠ [element]) :
    (named path arguments).lexemes = pathLexemes path ++ angleLexemes (typeLexemes arguments) := by
  rw [lexemes, appliedLexemes.eq_def]
  split
  · rename_i hsingle
    match arguments, h, hsingle with
    | [element], h, _ => exact absurd rfl (h element rfl)
  · rfl

/-- A type that does not start with an angle bracket. -/
theorem TypeExpr.startsClear_display : (type : TypeExpr) → type.Every formed →
    type.Every printable → type.startsWithAngle = false → StartsClear type.display.toList
  | .primitive type, _, _, _ => by
    refine startsClear_of_isWord ?_
    cases type <;> decide +kernel
  | .named path arguments, hformed, hprintable, _ => by
    obtain ⟨⟨⟨first, more, rfl, hfirst, -⟩, -⟩, hall⟩ := hformed
    -- An array is printed with its element in front, everything else with its path.
    by_cases harray : ∃ element, first :: more = ["Array"] ∧ arguments = [element]
    · obtain ⟨element, hpath, rfl⟩ := harray
      rw [hpath, display, displayTypes, displayTypes, applied, String.toList_append]
      exact (element.startsClear_display hall.1 hprintable.2.1
        (startsWithAngle_of_isElement (hprintable.1.1 element hpath rfl))).append _
    · rw [display_named fun element hpath harguments => harray ⟨element, hpath, harguments⟩,
        String.toList_append]
      exact (startsClear_joined "." (startsClear_of_isWord hfirst.1) more).append _
  | .object members, _, _, _ => startsClear_inBraces _
  | .function ⟨typeParameters, parameters, result⟩, _, _, hangle => by
    -- With type parameters a function would start with an angle bracket.
    cases typeParameters with
    | nil =>
      rw [display, Signature.displayAsFunction]
      simp only [String.append_assoc, String.toList_append]
      exact ⟨'(', _, rfl, by decide, by decide⟩
    | cons => cases hangle
  | .constructor signature, _, _, _ => by
    rw [display, String.toList_append]
    exact ⟨'n', _, rfl, by decide, by decide⟩
  | .repeated element, hformed, hprintable, _ => by
    rw [display, String.toList_append]
    exact (element.startsClear_display hformed.2 hprintable.2
      (startsWithAngle_of_isElement hprintable.1)).append _
  -- A union has at least two members, and the first of them is printed first.
  | .union [], hformed, _, _ => absurd hformed.1.1 (by decide)
  | .union [_], hformed, _, _ => absurd hformed.1.1 (Nat.not_succ_le_self 1)
  | .union (first :: next :: rest), hformed, hprintable, _ => by
    refine startsClear_joined " | " (first.startsClear_display hformed.2.1 hprintable.2.1 ?_) _
    exact startsWithAngle_of_not_endsInArrow (hformed.1.2.2 first List.mem_cons_self)
  | .intersection [], hformed, _, _ => absurd hformed.1.1 (by decide)
  | .intersection [_], hformed, _, _ => absurd hformed.1.1 (Nat.not_succ_le_self 1)
  | .intersection (first :: next :: rest), hformed, hprintable, _ => by
    refine startsClear_joined " & " (first.startsClear_display hformed.2.1 hprintable.2.1 ?_) _
    exact startsWithAngle_of_not_isArrow (hformed.1.2.2 first List.mem_cons_self)
  | .tuple types, _, _, _ => by
    rw [display, String.append_assoc, String.toList_append]
    exact ⟨'[', _, rfl, by decide, by decide⟩
  | .literal text, hformed, _, _ => startsClear_literal hformed
  | .query path, _, _, _ => by
    rw [display, String.toList_append]
    exact ⟨'t', _, rfl, by decide, by decide⟩
  | .parenthesized inner, _, _, _ => by
    rw [display, String.append_assoc, String.toList_append]
    exact ⟨'(', _, rfl, by decide, by decide⟩

/-! ### Signatures and members -/

/-- A colon and a space are written for the colon. -/
theorem writes_colonSpace (ends : List Char → Prop) : Writes ": ".toList [.mark .colon] ends :=
  (writes_markAlone .colon (fun _ => True) (by decide)).append (writes_space ends)
    fun _ _ => trivial

/-- An arrow is written for itself. -/
theorem writes_arrow (ends : List Char → Prop) : Writes "=>".toList [.mark .arrow] ends :=
  writes_mark .arrow rfl (by decide) (fun _ _ => rfl) fun heq => by cases heq

/-- Three dots are written for themselves. -/
theorem writes_ellipsis (ends : List Char → Prop) : Writes "...".toList [.mark .ellipsis] ends :=
  writes_mark .ellipsis rfl (by decide) (fun _ _ => rfl) fun heq => by cases heq

/-- A closing parenthesis with an arrow behind it is written for the two. -/
theorem writes_closeArrow (ends : List Char → Prop) :
    Writes ") => ".toList [.mark .parenClose, .mark .arrow] ends := by
  have hclose : Writes ")".toList [.mark .parenClose] fun _ => True :=
    writes_markAlone .parenClose _ (by decide)
  have harrow : Writes "=>".toList [.mark .arrow] fun _ => True := writes_arrow _
  exact hclose.join (harrow.behindSpace.space (fun _ => trivial) ends) fun _ _ => trivial

/-- A reserved word with a space behind it. -/
theorem writes_spellingSpace (word : Word) (ends : List Char → Prop) :
    Writes (word.spelling ++ " ").toList [.word word] ends :=
  (writes_spelling word).space (fun _ => free_cons (by decide) _) ends

section

variable {type : Option TypeExpr}

/-- A type that is written, if there is one, is written for its lexemes. -/
def WritesOption (type : Option TypeExpr) : Prop :=
  ∀ found ∈ type, Writes found.display.toList found.lexemes Free

/-- A clause, which is a word and a type, is written for its lexemes; without a type it is empty. -/
theorem WritesOption.clause (h : WritesOption type) {word : String} {lexeme : Lexeme}
    (hword : Writes word.toList [lexeme] fun _ => True) :
    Writes (displayClause word type).toList (clauseLexemes lexeme type) Free := by
  cases type with
  | none => exact .empty Free
  | some found => exact hword.join (h found rfl) fun _ _ => trivial

/-- The type behind a name is printed as a clause with a colon. -/
theorem displayAnnotation_eq (type : Option TypeExpr) :
    displayAnnotation type = displayClause ": " type := by
  cases type <;> rfl

/-- A type behind a colon. -/
theorem WritesOption.behindColon (h : WritesOption type) :
    Writes (displayClause ": " type).toList (clauseLexemes (.mark .colon) type) Free :=
  h.clause (writes_colonSpace _)

/-- A clause may come behind a type if its word may, or what comes behind the clause. -/
theorem free_clause {c : Char} {more : List Char} {word : String} (hword : word.toList = c :: more)
    (hc : c ∈ [' ', ',', ';', ':', '?', '(', ')', '[', ']', '<', '{', '}']) {rest : List Char}
    (h : Free rest) : Free ((displayClause word type).toList ++ rest) := by
  cases type with
  | none => exact h
  | some found =>
    rw [displayClause, String.toList_append, hword]
    exact free_cons hc _

/-- A colon and a type may come behind a name. -/
theorem free_behindColon {rest : List Char} (h : Free rest) :
    Free ((displayClause ": " type).toList ++ rest) :=
  free_clause rfl (by decide) h

/-- A question mark, or nothing, is written for its lexemes. -/
theorem writes_optional (optional : Bool) (ends : List Char → Prop) :
    Writes (optionalMark optional).toList (optionalLexemes optional) ends := by
  cases optional with
  | true => exact writes_markAlone .question ends (by decide)
  | false => exact .empty ends

/-- A question mark may come behind a name. -/
theorem free_optional (optional : Bool) {rest : List Char} (h : Free rest) :
    Free ((optionalMark optional).toList ++ rest) := by
  cases optional with
  | true => exact free_cons (by decide) _
  | false => exact h

/-- So may something in angle brackets. -/
theorem free_inAngles (texts : List String) {rest : List Char} (h : Free rest) :
    Free ((inAngles texts).toList ++ rest) := by
  cases texts with
  | nil => exact h
  | cons text texts =>
    rw [inAngles, String.append_assoc, String.toList_append]
    exact free_cons (by decide) _

/-- A name, a question mark, and what comes behind them. -/
theorem writes_named {name : String} {lexeme : Lexeme} {text : String} {lexemes : List Lexeme}
    (hname : Writes name.toList [lexeme] Free) (optional : Bool)
    (htext : Writes text.toList lexemes Free)
    (hfree : ∀ rest, Free rest → Free (text.toList ++ rest)) :
    Writes (name ++ optionalMark optional ++ text).toList
      ([lexeme] ++ (optionalLexemes optional ++ lexemes)) Free := by
  rw [String.append_assoc]
  refine hname.join ((writes_optional optional fun _ => True).join htext fun _ _ => trivial) ?_
  intro rest hrest
  rw [String.toList_append, List.append_assoc]
  exact free_optional optional (hfree rest hrest)

/-- The dots of a rest parameter, or nothing, are written for their lexemes. -/
theorem writes_rest (type : Option TypeExpr) (ends : List Char → Prop) :
    Writes (restMark type).toList (restLexemes type) ends := by
  cases type with
  | none => exact .empty ends
  | some found =>
    cases found with
    | repeated element => exact writes_ellipsis ends
    | _ => exact .empty ends

/-- The parameters of a signature in parentheses, and what comes behind them. -/
theorem writes_parameters {typeParameters parameters : List String}
    {typeItems items : List (List Lexeme)} {close text : String} {closing lexemes : List Lexeme}
    (htypes : WritesAll typeParameters typeItems)
    (hfirst : ∀ text ∈ typeParameters.head?, StartsClear text.toList)
    (hitems : WritesAll parameters items) (hclose : Writes close.toList closing fun _ => True)
    (hparen : ∀ rest, Free (close.toList ++ rest)) (htext : Writes text.toList lexemes Free) :
    Writes (inAngles typeParameters ++ "(" ++ joined ", " parameters ++ close ++ text).toList
      (angleLexemes typeItems ++ ([.mark .parenOpen] ++ (commaLexemes items
        ++ (closing ++ lexemes)))) Free := by
  have hopen : Writes "(".toList [.mark .parenOpen] fun _ => True :=
    writes_markAlone .parenOpen _ (by decide)
  have hbehind := hclose.join htext fun _ _ => trivial
  have hinside := hopen.join (hitems.commas.join hbehind fun rest _ => ?_) fun _ _ => trivial
  · simp only [String.append_assoc]
    refine (htypes.angles hfirst).join hinside fun rest _ => ?_
    rw [String.toList_append]
    exact free_cons (by decide) _
  · rw [String.toList_append, List.append_assoc]
    exact hparen _

/-- A type parameter starts with its name. -/
theorem startsClear_typeParameter {parameter : TypeParameter}
    (h : IsBindingName parameter.name) : StartsClear parameter.display.toList := by
  obtain ⟨name, bound, default⟩ := parameter
  rw [TypeParameter.display, String.append_assoc, String.toList_append]
  exact (startsClear_of_isWord h.isWord).append _

/-- So the first of several type parameters makes no comparison of the bracket in front of it. -/
theorem startsClear_typeParameters {parameters : List TypeParameter}
    (h : everyTypeParameter formed parameters) :
    ∀ text ∈ (displayTypeParameters parameters).head?, StartsClear text.toList := by
  intro text htext
  cases parameters with
  | nil => cases htext
  | cons parameter rest =>
    cases Option.mem_some_iff.mp htext
    obtain ⟨name, bound, default⟩ := parameter
    exact startsClear_typeParameter h.1.1.1

/-- Nor does the first of several types, if it does not start with an angle bracket itself. -/
theorem startsClear_types {types : List TypeExpr} (hformed : everyType formed types)
    (hprintable : everyType printable types)
    (hfirst : ∀ first ∈ types.head?, first.startsWithAngle = false) :
    ∀ text ∈ (displayTypes types).head?, StartsClear text.toList := by
  intro text htext
  cases types with
  | nil => cases htext
  | cons type rest =>
    cases Option.mem_some_iff.mp htext
    exact type.startsClear_display hformed.1 hprintable.1 (hfirst type rfl)

end

/-- A signature starts with a bracket. -/
theorem Signature.free_display (signature : Signature) (rest : List Char) :
    Free (signature.display.toList ++ rest) := by
  obtain ⟨typeParameters, parameters, result⟩ := signature
  rw [display]
  simp only [String.append_assoc, String.toList_append, List.append_assoc]
  exact free_inAngles _ (free_cons (by decide) _)

/-! ### Types -/

/-- The name of a primitive type is spelled as a word. -/
theorem Primitive.isWord_spelling (type : Primitive) :
    Identifier.isWord type.spelling.toList = true := by
  cases type <;> decide +kernel

/-- A pair of brackets is written for its two lexemes. -/
theorem writes_brackets (ends : List Char → Prop) :
    Writes "[]".toList [.mark .bracketOpen, .mark .bracketClose] ends := by
  have hopen : Writes "[".toList [.mark .bracketOpen] fun _ => True :=
    writes_markAlone .bracketOpen _ (by decide)
  have hclose : Writes "]".toList [.mark .bracketClose] ends :=
    writes_markAlone .bracketClose ends (by decide)
  exact hopen.join hclose fun _ _ => trivial

/-- A type with brackets behind it. -/
theorem Writes.array {text : String} {lexemes : List Lexeme} (h : Writes text.toList lexemes Free) :
    Writes (text ++ "[]").toList (lexemes ++ [.mark .bracketOpen, .mark .bracketClose]) Free :=
  h.join (writes_brackets Free) fun _ _ => free_cons (by decide) _

/-- A text between two marks. -/
theorem Writes.between {text : String} {lexemes : List Lexeme} (h : Writes text.toList lexemes Free)
    {front behind : String} (opening closing : Mark) (hfront : front.toList = opening.chars)
    (hbehind : behind.toList = closing.chars)
    (hmarks : (opening = .parenOpen ∧ closing = .parenClose)
      ∨ (opening = .bracketOpen ∧ closing = .bracketClose)) :
    Writes (front ++ text ++ behind).toList
      ([.mark opening] ++ (lexemes ++ [.mark closing])) Free := by
  have hopen : Writes front.toList [.mark opening] fun _ => True :=
    hfront ▸ writes_markAlone opening _ (by rcases hmarks with ⟨rfl, -⟩ | ⟨rfl, -⟩ <;> decide)
  have hclose : Writes behind.toList [.mark closing] Free :=
    hbehind ▸ writes_markAlone closing _ (by rcases hmarks with ⟨-, rfl⟩ | ⟨-, rfl⟩ <;> decide)
  rw [String.append_assoc]
  refine hopen.join (h.join hclose fun rest _ => ?_) fun _ _ => trivial
  rw [hbehind]
  rcases hmarks with ⟨-, rfl⟩ | ⟨-, rfl⟩ <;> exact free_cons (by decide) _

mutual

/-- A type is printed as its lexemes. -/
theorem TypeExpr.writes : (type : TypeExpr) → type.Every formed → type.Every printable →
    Writes type.display.toList type.lexemes Free
  | .primitive type, _, _ =>
    (writes_word type.isWord_spelling).mono fun _ hfree => hfree.wordEnds
  | .named path arguments, hformed, hprintable => by
    have harguments := writesTypes arguments hformed.2 hprintable.2
    -- The arguments of an array have no angle brackets of their own.
    by_cases harray : ∃ element, path = ["Array"] ∧ arguments = [element]
    · obtain ⟨element, rfl, rfl⟩ := harray
      cases harguments with
      | cons helement _ => exact helement.array
    · have hnot : ∀ element, path = ["Array"] → arguments ≠ [element] :=
        fun element hpath heq => harray ⟨element, hpath, heq⟩
      rw [TypeExpr.display_named hnot, TypeExpr.lexemes_named hnot]
      obtain ⟨first, more, rfl, hfirst, hmore⟩ := hformed.1.1
      have hpath : ∀ name ∈ first :: more, Identifier.isWord name.toList = true :=
        List.forall_mem_cons.mpr ⟨hfirst.1, fun name hin => (hmore name hin).isWord⟩
      refine (writes_path hpath).join (harguments.angles ?_) fun rest hrest => ?_
      · exact startsClear_types hformed.2 hprintable.2 hprintable.1.2
      · exact free_inAngles _ hrest
  | .object members, hformed, hprintable =>
    (writesMembers members hformed.2 hprintable.2).braces Free
  | .function signature, hformed, hprintable =>
    signature.writesFunction hformed.2 hprintable.2
  | .constructor signature, hformed, hprintable =>
    (writes_spellingSpace .newWord fun _ => True).join
      (signature.writesFunction hformed.2 hprintable.2) fun _ _ => trivial
  | .repeated element, hformed, hprintable => (element.writes hformed.2 hprintable.2).array
  | .union types, hformed, hprintable => by
    -- The blank belongs to the separator in front of it, which leaves the members as they are.
    have hbar : Writes "| ".toList [.mark .bar] fun _ => True :=
      writes_markSpace .bar rfl rfl (by decide) (by decide) (by decide) _
    exact writes_joined hbar.behindSpace (fun _ => free_cons (by decide) _)
      (writesTypes types hformed.2 hprintable.2)
  | .intersection types, hformed, hprintable => by
    have hampersand : Writes "& ".toList [.mark .ampersand] fun _ => True :=
      writes_markSpace .ampersand rfl rfl (by decide) (by decide) (by decide) _
    exact writes_joined hampersand.behindSpace (fun _ => free_cons (by decide) _)
      (writesTypes types hformed.2 hprintable.2)
  | .tuple types, hformed, hprintable =>
    (writesTypes types hformed.2 hprintable.2).commas.between .bracketOpen .bracketClose rfl rfl
      (.inr ⟨rfl, rfl⟩)
  | .literal text, hformed, hprintable => writes_literal hformed hprintable
  | .query path, hformed, _ =>
    (writes_spellingSpace .typeofWord fun _ => True).join
      (writes_path fun name hin => (hformed.2 name hin).isWord) fun _ _ => trivial
  | .parenthesized inner, hformed, hprintable =>
    (inner.writes hformed.2 hprintable.2).between .parenOpen .parenClose rfl rfl (.inl ⟨rfl, rfl⟩)

/-- Types are printed as their lexemes, one by one. -/
theorem writesTypes : (types : List TypeExpr) → everyType formed types →
    everyType printable types → WritesAll (displayTypes types) (typeLexemes types)
  | [], _, _ => .nil
  | type :: rest, hformed, hprintable =>
    .cons (type.writes hformed.1 hprintable.1) (writesTypes rest hformed.2 hprintable.2)

/-- The same for a type that may be missing. -/
theorem writesOption : (type : Option TypeExpr) → everyOption formed type →
    everyOption printable type → WritesOption type
  | none, _, _ => fun _ hfound => by cases hfound
  | some type, hformed, hprintable => fun _ hfound => by
    cases hfound
    exact type.writes hformed hprintable

/-- A signature is printed as its lexemes, with an arrow in front of its result. -/
theorem Signature.writesFunction : (signature : Signature) → signature.Every formed →
    signature.Every printable →
    Writes signature.displayAsFunction.toList signature.functionLexemes Free
  | ⟨typeParameters, parameters, result⟩, hformed, hprintable => by
    have hresult : Writes (displayResult result).toList (resultLexemes result) Free := by
      cases result with
      | none => exact writes_spelling .anyWord
      | some found => exact writesOption (some found) hformed.2.2.2 hprintable.2.2.2 found rfl
    have hwhole := writes_parameters
      (writesTypeParameters typeParameters hformed.2.1 hprintable.2.1)
      (startsClear_typeParameters hformed.2.1)
      (writesParameters parameters hformed.2.2.1 hprintable.2.2.1) (writes_closeArrow _)
      (fun _ => free_cons (by decide) _) hresult
    exact hwhole

/-- The same with a colon in front of the result. -/
theorem Signature.writes : (signature : Signature) → signature.Every formed →
    signature.Every printable → Writes signature.display.toList signature.lexemes Free
  | ⟨typeParameters, parameters, result⟩, hformed, hprintable => by
    rw [Signature.display, displayAnnotation_eq]
    exact writes_parameters (writesTypeParameters typeParameters hformed.2.1 hprintable.2.1)
      (startsClear_typeParameters hformed.2.1)
      (writesParameters parameters hformed.2.2.1 hprintable.2.2.1)
      (writes_markAlone .parenClose _ (by decide)) (fun _ => free_cons (by decide) _)
      (writesOption result hformed.2.2.2 hprintable.2.2.2).behindColon

/-- A type parameter is printed as its lexemes: its name, its bound and its default. -/
theorem TypeParameter.writes : (parameter : TypeParameter) → parameter.Every formed →
    parameter.Every printable → Writes parameter.display.toList parameter.lexemes Free
  | ⟨name, bound, default⟩, hformed, hprintable => by
    have hextends : Writes "extends ".toList [.word .extendsWord] fun _ => True :=
      writes_spellingSpace .extendsWord _
    have hassign : Writes "= ".toList [.mark .assign] fun _ => True :=
      writes_markSpace .assign rfl rfl (by decide) (by decide) (by decide) _
    have hbound := (writesOption bound hformed.2.1 hprintable.2.1).clause hextends.behindSpace
    have hdefault := (writesOption default hformed.2.2 hprintable.2.2).clause hassign.behindSpace
    have hname := IsBindingName.writes hformed.1.1
    rw [TypeParameter.display, String.append_assoc, TypeParameter.lexemes]
    refine hname.join (hbound.join hdefault fun rest => free_clause rfl (by decide))
      fun rest hrest => ?_
    rw [String.toList_append, List.append_assoc]
    exact free_clause rfl (by decide) (free_clause rfl (by decide) hrest)

/-- The same for type parameters, one by one. -/
theorem writesTypeParameters : (parameters : List TypeParameter) →
    everyTypeParameter formed parameters → everyTypeParameter printable parameters →
    WritesAll (displayTypeParameters parameters) (typeParameterLexemes parameters)
  | [], _, _ => .nil
  | parameter :: rest, hformed, hprintable =>
    .cons (parameter.writes hformed.1 hprintable.1)
      (writesTypeParameters rest hformed.2 hprintable.2)

/-- A parameter is printed as its lexemes. -/
theorem Parameter.writes : (parameter : Parameter) → parameter.Every formed →
    parameter.Every printable → Writes parameter.display.toList parameter.lexemes Free
  | ⟨name, optional, type⟩, hformed, hprintable => by
    have htype := (writesOption type hformed.2 hprintable.2).behindColon
    have hname := writes_named (IsBindingName.writes hformed.1) optional htype
      fun _ => free_behindColon
    have hall := (writes_rest type fun _ => True).join hname fun _ _ => trivial
    simpa only [Parameter.display, Parameter.lexemes, displayAnnotation_eq,
      String.append_assoc] using hall

/-- The same for parameters, one by one. -/
theorem writesParameters : (parameters : List Parameter) →
    everyParameter formed parameters → everyParameter printable parameters →
    WritesAll (displayParameters parameters) (parameterLexemes parameters)
  | [], _, _ => .nil
  | parameter :: rest, hformed, hprintable =>
    .cons (parameter.writes hformed.1 hprintable.1) (writesParameters rest hformed.2 hprintable.2)

/-- A member is printed as its lexemes. -/
theorem Member.writes : (member : Member) → member.Every formed → member.Every printable →
    Writes member.display.toList member.lexemes Free
  | .call signature, hformed, hprintable => signature.writes hformed.2 hprintable.2
  | .construct signature, hformed, hprintable =>
    (writes_spellingSpace .newWord fun _ => True).join (signature.writes hformed.2 hprintable.2)
      fun _ _ => trivial
  | .index parameter type, hformed, hprintable => by
    have hopen : Writes "[".toList [.mark .bracketOpen] fun _ => True :=
      writes_markAlone .bracketOpen _ (by decide)
    have hclose : Writes "]".toList [.mark .bracketClose] fun _ => True :=
      writes_markAlone .bracketClose _ (by decide)
    have hcolon := (writes_colonSpace fun _ => True).join
      (type.writes hformed.2.2 hprintable.2.2) fun _ _ => trivial
    have hparameter := (parameter.writes hformed.2.1 hprintable.2.1).join
      (hclose.join hcolon fun _ _ => trivial) fun _ _ => by
        rw [String.toList_append, List.append_assoc]
        exact free_cons (by decide) _
    have hall := hopen.join hparameter fun _ _ => trivial
    have heq : "]: " = "]" ++ ": " := rfl
    simpa only [Member.display, Member.lexemes, heq, String.append_assoc] using hall
  | .property name optional type, hformed, hprintable => by
    obtain ⟨lexeme, ⟨hscanned, hstring⟩, hname⟩ := hprintable.1
    rw [Member.display, displayAnnotation_eq]
    exact writes_named (writes_propertyName hscanned hstring hname).1 optional
      (writesOption type hformed.2 hprintable.2).behindColon fun _ => free_behindColon
  | .method name optional signature, hformed, hprintable => by
    obtain ⟨lexeme, ⟨hscanned, hstring⟩, hname, -⟩ := hprintable.1
    refine writes_named (writes_propertyName hscanned hstring hname).1 optional
      (signature.writes hformed.2 hprintable.2) fun rest _ => signature.free_display rest
  | .static member, hformed, hprintable =>
    (writes_spellingSpace .staticWord fun _ => True).join (member.writes hformed.2 hprintable.2)
      fun _ _ => trivial

/-- The same for members, one by one. -/
theorem writesMembers : (members : List Member) → everyMember formed members →
    everyMember printable members → WritesAll (displayMembers members) (memberLexemes members)
  | [], _, _ => .nil
  | member :: rest, hformed, hprintable =>
    .cons (member.writes hformed.1 hprintable.1) (writesMembers rest hformed.2 hprintable.2)

end

end Facade
