import Facade.Proofs.Declaration.Printed.Nested
import Facade.Proofs.Declaration.Printed.Reads

/-!
# Printed types are read back, part by part

What types are put together from is read back from its lexemes: names and paths, brackets, lists,
parameters, signatures and members. Each theorem takes for granted that the types inside are read.

The grammar of types has four levels, and how far a type goes on depends on the level: brackets
behind a type make an array of it, an ampersand makes it part of an intersection, and a bar part
of a union, but none of them can end the result of a function type. `TypeExpr.IsRead` says for all
levels at once that a type is read, with the marks that may not follow at each.

An array type is printed in one way only, with brackets, and a rest type stands for the array type
that is printed behind its three dots (`TypeExpr.written`).
-/

set_option autoImplicit false

namespace Facade

open Reader

/-! ### Names -/

/-- The word that a name is printed as gives that name. -/
theorem bindingName?_wordLexeme {name : String} (h : IsBindingName name) :
    (Cursor.wordLexeme name).bindingName? = some name := by
  obtain ⟨lexeme, hscanned, hname⟩ := h
  cases lexeme with
  | name text =>
    cases hname
    rw [Cursor.wordLexeme, hscanned.2]
    rfl
  | word word =>
    rw [Lexeme.bindingName?] at hname
    split at hname
    · rename_i hbind
      cases hname
      rw [wordLexeme_spelling, Lexeme.bindingName?, if_pos hbind]
    · cases hname
  | _ => cases hname

/-- A name that is no reserved word is printed as a name. -/
theorem wordLexeme_of_isName {name : String} (h : IsName name) :
    Cursor.wordLexeme name = .name name := by
  rw [Cursor.wordLexeme, h.2]

/-- Such a name can be declared. -/
theorem IsName.isBindingName {name : String} (h : IsName name) : IsBindingName name :=
  ⟨.name name, h, rfl⟩

/-- A name that can be declared is read back from its word. -/
theorem reads_bindingName {name : String} (h : IsBindingName name) :
    Reads bindingName [Cursor.wordLexeme name] name fun _ => True :=
  reads_expectSome (bindingName?_wordLexeme h)

/-- The dots of a path with the names behind them. -/
def dottedLexemes (path : List String) : List Lexeme :=
  path.flatMap fun name => [.mark .dot, Cursor.wordLexeme name]

/-- The lexemes of a path are its first word, and the dots with the words behind them. -/
theorem pathLexemes_cons (first : String) (rest : List String) :
    pathLexemes (first :: rest) = [Cursor.wordLexeme first] ++ dottedLexemes rest := by
  induction rest generalizing first with
  | nil => rfl
  | cons next rest ih =>
    have hrest := ih next
    rw [pathLexemes, List.map_cons] at hrest
    rw [pathLexemes, List.map_cons, List.map_cons, List.intercalate_cons_cons, hrest]
    rfl

/-- The dots of a path are taken off with their names, up to the end of the path. -/
theorem splitDotted_dotted {path : List String} (h : ∀ name ∈ path, IsBindingName name) :
    ∀ (tokens : List Token) (rest : Stream), tokens.map Token.lexeme = dottedLexemes path →
      Off [.dot] rest.next? → splitDotted (tokens ++ rest.tokens) = (path, rest.tokens) := by
  induction path with
  | nil =>
    intro tokens rest htokens hrest
    cases List.map_eq_nil_iff.mp htokens
    exact Simulation.splitDotted_miss fun hdot => absurd hdot (hrest .dot List.mem_cons_self)
  | cons name path ih =>
    rw [List.forall_mem_cons] at h
    intro tokens rest htokens hrest
    obtain ⟨dot, behind, rfl, hdot, hbehind⟩ := List.map_eq_cons_iff.mp htokens
    obtain ⟨other, more, rfl, hother, hmore⟩ := List.map_eq_cons_iff.mp hbehind
    rw [List.cons_append, List.cons_append, splitDotted, if_pos hdot, hother,
      bindingName?_wordLexeme h.1]
    dsimp only
    rw [ih h.2 more rest hmore hrest]

/-- A name of which the first part is known to be next. -/
theorem reads_qualifiedName {first : String} {rest : List String} (hfirst : IsBindingName first)
    (hrest : ∀ name ∈ rest, IsBindingName name) :
    Reads qualifiedName (pathLexemes (first :: rest)) (first :: rest) (Off [.dot]) := by
  rw [pathLexemes_cons]
  exact (reads_bindingName hfirst).bind (reads_take (splitDotted_dotted hrest)).bind_pure
    fun _ _ => trivial

/-! ### Brackets -/

/-- Pairs of empty brackets. -/
def bracketLexemes : Nat → List Lexeme
  | 0 => []
  | depth + 1 => .mark .bracketOpen :: .mark .bracketClose :: bracketLexemes depth

/-- Pairs of brackets are taken off and counted, up to the last of them. -/
theorem splitBrackets_brackets (depth : Nat) :
    ∀ (tokens : List Token) (rest : Stream), tokens.map Token.lexeme = bracketLexemes depth →
      Off [.bracketOpen] rest.next? →
      splitBrackets (tokens ++ rest.tokens) = (depth, rest.tokens) := by
  induction depth with
  | zero =>
    intro tokens rest htokens hrest
    cases List.map_eq_nil_iff.mp htokens
    exact Simulation.splitBrackets_miss fun hopen =>
      absurd hopen (hrest .bracketOpen List.mem_cons_self)
  | succ depth ih =>
    intro tokens rest htokens hrest
    obtain ⟨opening, behind, rfl, hopening, hbehind⟩ := List.map_eq_cons_iff.mp htokens
    obtain ⟨closing, more, rfl, hclosing, hmore⟩ := List.map_eq_cons_iff.mp hbehind
    rw [List.cons_append, List.cons_append, splitBrackets, hopening, hclosing]
    simp only [ih more rest hmore hrest]
    rfl

/-- Brackets around brackets are brackets inside brackets. -/
theorem repeat_array (depth : Nat) (type : TypeExpr) :
    depth.repeat TypeExpr.array type.array = (depth + 1).repeat TypeExpr.array type := by
  induction depth with
  | zero => rfl
  | succ depth ih => exact congrArg TypeExpr.array ih

/-! ### Lists -/

/-- Items between commas, up to a closing mark. -/
theorem reads_commas {α : Type} {close : Mark} {item : Reader α} {values : List α}
    {all : List (List Lexeme)} {follow : Option Lexeme → Prop}
    (hclose : (Lexeme.mark close).isAngle = false) (hcomma : close ≠ .comma)
    (hregular : item.Regular)
    (h : List.Forall₂ (fun value lexemes => Reads item lexemes value follow) values all)
    (hfirst : ∀ lexemes ∈ all, ∃ first rest, lexemes = first :: rest ∧ first ≠ .mark close)
    (hfollow : follow (some (.mark .comma)) ∧ follow (some (.mark close))) :
    Reads (separatedUntil close item (accept (.mark .comma))) (commaLexemes all) values
      fun next => next = some (.mark close) := by
  have hseparates : Simulation.same.Separates (accept (.mark .comma)) :=
    Simulation.separates_accept rfl
  induction h with
  | nil => exact reads_separatedUntil_nil hclose hseparates hregular
  | @cons value lexemes values all hitem hmore ih =>
    rw [List.forall_mem_cons] at hfirst
    obtain ⟨⟨first, rest, rfl, hne⟩, hothers⟩ := hfirst
    cases hmore with
    | nil =>
      rw [commaLexemes, List.intercalate_singleton]
      refine reads_separatedUntil_last hclose hseparates hregular hitem hne ?_ hfollow.2
      refine (reads_acceptNot _).mono ?_
      rintro _ rfl heq
      exact hcomma (Lexeme.mark.inj (Option.some.inj heq))
    | cons hnext hmore =>
      rw [commaLexemes, List.intercalate_cons_cons, List.append_assoc]
      exact reads_separatedUntil_cons hclose hseparates hregular hitem hne (reads_accept _)
        (ih hothers) trivial hfollow.1

/-! ### The levels of the grammar -/

/-- Marks that go on with a name or with a parenthesis. -/
def primaryMarks : List Mark := [.dot, .less, .arrow]

/-- Those and what makes an array of a type. -/
def suffixMarks : List Mark := .bracketOpen :: primaryMarks

/-- Those and what joins the parts of an intersection. -/
def partMarks : List Mark := .ampersand :: suffixMarks

/-- Those and what joins the parts of a union. -/
def typeMarks : List Mark := .bar :: partMarks

/-- Marks that go on with a type. All of them go on with the result behind an arrow. -/
def marksBehind (arrow : Bool) (marks : List Mark) : List Mark :=
  if arrow then typeMarks else marks

/-- The type as it is written: a rest type stands for that of an array behind three dots. -/
def TypeExpr.written : TypeExpr → TypeExpr
  | .repeated element => element.array
  | type => type

/-- Only a rest type is written as another. -/
theorem TypeExpr.written_eq {type : TypeExpr} (h : type.isRepeated = false) :
    type.written = type := by
  cases type <;> first | rfl | cases h

/-- At each level of the grammar, the lexemes of a type are read as the type, in front of anything
that does not go on with it at that level. Brackets behind it, where it may have some, are read
along. -/
structure TypeExpr.IsRead (type : TypeExpr) : Prop where
  suffixed : type.isUnion = false → type.isIntersection = false →
    ∀ depth, (type.isArrow = true → depth = 0) →
      Reads (suffixedType reader) (type.lexemes ++ bracketLexemes depth)
        (depth.repeat array type.written) (Off (marksBehind type.isArrow suffixMarks))
  part : type.isUnion = false → Reads (intersectionType reader) type.lexemes type.written
    (Off (marksBehind type.endsInArrow partMarks))
  whole : Reads reader type.lexemes type.written (Off typeMarks)

/-- The reader of types with brackets behind them leaves no more tokens than it finds. -/
theorem suffixedType_regular : (suffixedType TypeExpr.reader).Regular :=
  fun n => (Simulation.alike_suffixedType Simulation.alike_typeReader).anti (Nat.le_succ n)

/-- So does the reader of the parts of a union. -/
theorem intersectionType_regular : (intersectionType TypeExpr.reader).Regular :=
  fun n => (Simulation.alike_intersectionType Simulation.alike_typeReader).anti (Nat.le_succ n)

/-- A type that is read without its brackets is read with them. -/
theorem reads_suffixedType {type : Reader TypeExpr} {lexemes : List Lexeme} {value : TypeExpr}
    {marks : List Mark} (h : Reads (primaryType type) lexemes value (Off marks)) {depth : Nat}
    (hdepth : depth = 0 ∨ Mark.bracketOpen ∉ marks) :
    Reads (suffixedType type) (lexemes ++ bracketLexemes depth) (depth.repeat TypeExpr.array value)
      (Off (.bracketOpen :: marks)) := by
  have hbrackets : Reads (take splitBrackets) (bracketLexemes depth) depth
      (Off (.bracketOpen :: marks)) :=
    (reads_take (splitBrackets_brackets depth)).mono fun _ hoff => hoff.mono (by simp)
  refine h.bind hbrackets.bind_pure fun behind hoff => ?_
  cases depth with
  | zero => exact hoff.mono (List.subset_cons_self _ _)
  | succ depth =>
    intro mark hin heq
    cases Option.some.inj heq
    exact hdepth.elim (Nat.succ_ne_zero depth) fun hnot => hnot hin

/-- What a type may not start with is not the first lexeme of one. -/
theorem StartsType.ne_mark {lexemes : List Lexeme} (h : StartsType lexemes) (mark : Mark)
    (hmark : (Lexeme.mark mark).startsType = false) :
    ∃ first rest, lexemes = first :: rest ∧ first ≠ .mark mark := by
  obtain ⟨first, rest, rfl, hfirst⟩ := h
  refine ⟨first, rest, rfl, ?_⟩
  rintro rfl
  cases hmark.symm.trans hfirst

namespace TypeExpr

variable {type : TypeExpr}

/-- What is joined by bars is read as a type. -/
theorem reads_reader {types : List TypeExpr} {lexemes : List (List Lexeme)}
    (h : ReadsItems (intersectionType reader) .bar (Off typeMarks) types lexemes)
    (hstarts : StartsType (List.intercalate [.mark .bar] lexemes)) :
    Reads reader (List.intercalate [.mark .bar] lexemes) (oneOrAll .union types)
      (Off typeMarks) := by
  refine Reads.congr ?_ reader_eq
  have hall := reads_separated rfl intersectionType_regular h fun next hoff =>
    hoff .bar List.mem_cons_self
  refine (reads_acceptNot _).bind_nil hall.map fun behind _ => ?_
  obtain ⟨first, rest, hfirst, hne⟩ := hstarts.ne_mark .bar rfl
  rw [hfirst]
  exact fun heq => hne (Option.some.inj heq)

/-- A part of a union is read as a type by itself. -/
theorem reads_reader_of_part (hstarts : StartsType type.lexemes)
    (h : Reads (intersectionType reader) type.lexemes type.written
      (Off (marksBehind type.endsInArrow partMarks))) :
    Reads reader type.lexemes type.written (Off typeMarks) := by
  have hitem : ReadsItems (intersectionType reader) .bar (Off typeMarks) [type.written]
      [type.lexemes] := by
    refine .last (h.mono fun next hoff => hoff.mono ?_)
    cases type.endsInArrow <;> decide
  have hread := reads_reader hitem
  rw [List.intercalate_singleton] at hread
  exact hread hstarts

/-- So is a part of an intersection. -/
theorem isRead_of_suffixed (hintersection : type.isIntersection = false)
    (hstarts : StartsType type.lexemes)
    (h : ∀ depth, (type.isArrow = true → depth = 0) →
      Reads (suffixedType reader) (type.lexemes ++ bracketLexemes depth)
        (depth.repeat array type.written) (Off (marksBehind type.isArrow suffixMarks))) :
    type.IsRead := by
  have hends : type.endsInArrow = type.isArrow := by
    cases type <;> first | rfl | cases hintersection
  have hpart : Reads (intersectionType reader) type.lexemes type.written
      (Off (marksBehind type.endsInArrow partMarks)) := by
    have hone := h 0 fun _ => rfl
    rw [bracketLexemes, List.append_nil] at hone
    have hitem : ReadsItems (suffixedType reader) .ampersand
        (Off (marksBehind type.endsInArrow partMarks)) [type.written] [type.lexemes] := by
      refine .last (hone.mono fun next hoff => hoff.mono ?_)
      rw [hends]
      cases type.isArrow <;> decide
    have hall := reads_separated rfl suffixedType_regular hitem fun next hoff => hoff .ampersand (by
      cases type.endsInArrow <;> decide)
    rw [List.intercalate_singleton] at hall
    exact hall.map
  exact ⟨fun _ _ => h, fun _ => hpart, reads_reader_of_part hstarts hpart⟩

/-- And so is a type without brackets. -/
theorem isRead_of_primary (hintersection : type.isIntersection = false)
    (hrepeated : type.isRepeated = false) (hstarts : StartsType type.lexemes)
    (h : Reads (primaryType reader) type.lexemes type
      (Off (marksBehind type.isArrow primaryMarks))) : type.IsRead := by
  refine isRead_of_suffixed hintersection hstarts fun depth hdepth => ?_
  rw [written_eq hrepeated]
  refine (reads_suffixedType h ?_).mono fun next hoff => hoff.mono ?_
  · cases harrow : type.isArrow with
    | true => exact .inl (hdepth harrow)
    | false => exact .inr (by decide)
  · cases type.isArrow <;> decide

/-- Brackets behind an element make an array of it. -/
theorem isRead_array {element : TypeExpr} (hwritten : type.written = element.array)
    (hlexemes : type.lexemes = element.lexemes ++ [.mark .bracketOpen, .mark .bracketClose])
    (harrow : type.isArrow = false) (hintersection : type.isIntersection = false)
    (helement : element.isElement = true) (hrepeated : element.isRepeated = false)
    (hstarts : StartsType element.lexemes) (h : element.IsRead) : type.IsRead := by
  rw [isElement, Bool.not_eq_true', Bool.or_eq_false_iff, Bool.or_eq_false_iff] at helement
  obtain ⟨⟨hunion, hinter⟩, hnot⟩ := helement
  refine isRead_of_suffixed hintersection (hlexemes ▸ hstarts.append _) fun depth _ => ?_
  have hread := h.suffixed hunion hinter (depth + 1) fun heq => by cases hnot.symm.trans heq
  rw [written_eq hrepeated, ← repeat_array, hnot] at hread
  rw [hwritten, hlexemes, harrow, List.append_assoc]
  exact hread

end TypeExpr

/-! ### Signatures -/

/-- The marks behind an item of a list, or behind a member. -/
def endMarks : List Mark := [.comma, .semicolon, .greater, .parenClose, .bracketClose]

/-- The end of an item of a list, or of a member. -/
def IsEnd (next : Option Lexeme) : Prop :=
  ∃ mark ∈ endMarks, next = some (.mark mark)

/-- Such a mark ends an item. -/
theorem isEnd_mark {mark : Mark} (h : mark ∈ endMarks) : IsEnd (some (.mark mark)) :=
  ⟨mark, h, rfl⟩

/-- What is none of these marks does not come next at the end of an item. -/
theorem IsEnd.ne {next : Option Lexeme} (h : IsEnd next) {lexeme : Lexeme}
    (hne : ∀ mark ∈ endMarks, lexeme ≠ .mark mark) : next ≠ some lexeme := by
  obtain ⟨mark, hmark, rfl⟩ := h
  exact fun heq => hne mark hmark (Option.some.inj heq).symm

/-- Nothing goes on with a type at the end of an item. -/
theorem IsEnd.off {next : Option Lexeme} (h : IsEnd next) : Off typeMarks next := by
  obtain ⟨mark, hmark, rfl⟩ := h
  revert mark
  decide

/-- A type that is read, if there is one. -/
def OptionRead (type : Option TypeExpr) : Prop :=
  ∀ found ∈ type, Reads TypeExpr.reader found.lexemes found.written (Off typeMarks)

/-- A type that is no rest type is written as itself. -/
theorem NotRepeated.written {type : Option TypeExpr} (h : NotRepeated type) :
    type.map TypeExpr.written = type := by
  cases type with
  | none => rfl
  | some found => exact congrArg some (TypeExpr.written_eq (h found rfl))

section

variable {type : Option TypeExpr} {lexeme : Lexeme}

/-- What holds of what comes behind and of the first lexeme holds of what comes next. -/
theorem head?_clause {next : Option Lexeme} (condition : Option Lexeme → Prop)
    (hnext : condition next) (hlexeme : condition (some lexeme)) :
    condition ((clauseLexemes lexeme type).head?.or next) := by
  cases type with
  | none =>
    rw [clauseLexemes, List.head?_nil, Option.none_or]
    exact hnext
  | some found => exact hlexeme

/-- What holds of a question mark, and of what comes behind it, holds of what comes next. -/
theorem head?_optional {optional : Bool} {lexemes : List Lexeme} {next : Option Lexeme}
    (condition : Option Lexeme → Prop) (hnext : condition (lexemes.head?.or next))
    (hquestion : condition (some (.mark .question))) :
    condition ((optionalLexemes optional ++ lexemes).head?.or next) := by
  cases optional with
  | true => exact hquestion
  | false => exact hnext

/-- A type behind a lexeme is read back, and nothing is read where there is none. -/
theorem reads_typeAfter (lexeme : Lexeme) (h : OptionRead type) :
    Reads (typeAfter TypeExpr.reader lexeme) (clauseLexemes lexeme type)
      (type.map TypeExpr.written) fun next => Off typeMarks next ∧ next ≠ some lexeme := by
  cases type with
  | none => exact .of_acceptNot (reads_pure none _) fun _ hnext => hnext.2
  | some found =>
    refine .of_accept (Reads.mono ?_ fun next hnext => hnext.1)
    exact (h found rfl).bind_pure

/-- A question mark is read back, and so is its absence. -/
theorem reads_optional (optional : Bool) :
    Reads (accept (.mark .question)) (optionalLexemes optional) optional
      fun next => next ≠ some (.mark .question) := by
  cases optional with
  | true => exact (reads_accept _).mono fun _ _ => trivial
  | false => exact reads_acceptNot _

end

/-- A type parameter is read back, with its bound and its default. -/
theorem reads_typeParameter {name : String} {bound default : Option TypeExpr}
    (hname : IsBindingName name) (hbound : OptionRead bound) (hdefault : OptionRead default)
    (hwritten : NotRepeated bound ∧ NotRepeated default) :
    Reads (typeParameter TypeExpr.reader) (TypeParameter.lexemes ⟨name, bound, default⟩)
      ⟨name, bound, default⟩ IsEnd := by
  have hbound' := reads_typeAfter (.word .extendsWord) hbound
  have hdefault' := reads_typeAfter (.mark .assign) hdefault
  rw [hwritten.1.written] at hbound'
  rw [hwritten.2.written] at hdefault'
  have hends := hdefault'.mono fun next (hnext : IsEnd next) => ⟨hnext.off, hnext.ne (by decide)⟩
  refine (reads_bindingName hname).bind (hbound'.bind hends.bind_pure fun behind hbehind => ?_)
    fun _ _ => trivial
  exact head?_clause (fun next => Off typeMarks next ∧ next ≠ some _)
    ⟨hbehind.off, hbehind.ne (by decide)⟩ (by decide)

/-- Items in angle brackets, or nothing. Type parameters and type arguments are read like this. -/
theorem reads_angles {α : Type} {item : Reader α} {values : List α} {all : List (List Lexeme)}
    (hregular : item.Regular)
    (h : List.Forall₂ (fun value lexemes => Reads item lexemes value IsEnd) values all) :
    Reads (accept (.mark .less) >>= fun opened =>
      if opened then separated item .comma >>= fun values => closeAngle >>= fun _ => pure values
      else pure []) (angleLexemes all) values fun next => next ≠ some (.mark .less) := by
  cases h with
  | nil => exact .of_acceptNot (reads_pure [] _) fun _ hnext => hnext
  | @cons value lexemes values all hitem hmore =>
    have hitems : ReadsItems item .comma (fun next => next = some (.mark .greater))
        (value :: values) (lexemes :: all) := by
      refine readsItems_of_forall₂ (List.cons_ne_nil _ _) (.cons hitem hmore)
        (isEnd_mark (by decide)) ?_
      rintro _ rfl
      exact isEnd_mark (by decide)
    have hall := reads_separated rfl hregular hitems fun next heq => by
      rw [heq]
      decide
    have hclose : Reads closeAngle [.mark .greater] () fun next => next ≠ some (.mark .less) :=
      reads_closeAngle.mono fun _ _ => trivial
    exact .of_accept (hall.bind hclose.bind_pure fun _ _ => rfl)

/-- Type parameters are read back from angle brackets. -/
theorem reads_typeParameters {typeParameters : List TypeParameter} {all : List (List Lexeme)}
    (h : List.Forall₂ (fun parameter lexemes =>
      Reads (typeParameter TypeExpr.reader) lexemes parameter IsEnd) typeParameters all) :
    Reads (Reader.typeParameters TypeExpr.reader) (angleLexemes all) typeParameters
      fun next => next ≠ some (.mark .less) :=
  reads_angles (fun n => (Simulation.alike_typeParameter Simulation.alike_typeReader).anti
    (Nat.le_succ n)) h

/-- Type arguments are read back from angle brackets. -/
theorem reads_typeArguments {arguments : List TypeExpr} {all : List (List Lexeme)}
    (h : List.Forall₂ (fun type lexemes => Reads TypeExpr.reader lexemes type IsEnd)
      arguments all) :
    Reads (typeArguments TypeExpr.reader) (angleLexemes all) arguments
      fun next => next ≠ some (.mark .less) :=
  reads_angles readsTypes_typeReader.regular h

/-- The name of a parameter, what stands behind it, and what is made of it. -/
theorem reads_annotated {α : Type} {make : String → Bool → Option TypeExpr → Reader α} {result : α}
    {name : String} {optional : Bool} {type : Option TypeExpr}
    (hname : IsBindingName name) (htype : OptionRead type)
    (h : Reads (make name optional (type.map TypeExpr.written)) [] result IsEnd) :
    Reads (bindingName >>= fun name => accept (.mark .question) >>= fun optional =>
        typeAfter TypeExpr.reader (.mark .colon) >>= fun type => make name optional type)
      ([Cursor.wordLexeme name] ++ (optionalLexemes optional ++ clauseLexemes (.mark .colon) type))
      result IsEnd := by
  rw [← List.append_nil (clauseLexemes (.mark .colon) type)]
  refine (reads_bindingName hname).bind ((reads_optional optional).bind
    ((reads_typeAfter _ htype).bind h fun behind hbehind => ?_) fun behind hbehind => ?_)
    fun _ _ => trivial
  · exact ⟨hbehind.off, hbehind.ne (by decide)⟩
  · rw [List.append_nil]
    exact head?_clause (· ≠ some (.mark .question)) (hbehind.ne (by decide)) (by decide)

/-- A parameter. Behind three dots stands the array type of its elements. -/
theorem reads_parameter {name : String} {optional : Bool} {type : Option TypeExpr}
    (hname : IsBindingName name) (htype : OptionRead type) :
    Reads (parameter TypeExpr.reader) (Parameter.lexemes ⟨name, optional, type⟩)
      ⟨name, optional, type⟩ IsEnd := by
  have hnotEllipsis : ∀ more : List Lexeme, ([Cursor.wordLexeme name] ++ more).head?
      ≠ some (.mark .ellipsis) := fun more heq => by
    have hstarts := startsType_wordLexeme name
    rw [Option.some.inj heq] at hstarts
    cases hstarts
  refine reads_position fun position => ?_
  -- The dots in front of the parameter are read only if the type is a repeated one.
  by_cases hrest : ∃ element, type = some (.repeated element)
  · obtain ⟨element, rfl⟩ := hrest
    refine (reads_accept _).bind (reads_annotated hname htype ?_) fun _ _ => trivial
    rw [if_pos rfl]
    have hmake : Reads (pure (some element.repeated) >>= fun type =>
        pure (Parameter.mk name optional type)) [] ⟨name, optional, some element.repeated⟩ IsEnd :=
      (reads_pure _ IsEnd).bind_pure
    exact hmake
  · have hwritten : type.map TypeExpr.written = type := NotRepeated.written fun found hfound => by
      cases found <;> first | rfl | exact absurd ⟨_, hfound⟩ hrest
    have hlexemes : restLexemes type = [] := by
      rw [restLexemes.eq_def]
      split
      · exact absurd ⟨_, rfl⟩ hrest
      · rfl
    rw [Parameter.lexemes, hlexemes]
    refine (reads_acceptNot _).bind_nil (reads_annotated hname htype ?_) fun _ _ =>
      hnotEllipsis (optionalLexemes optional ++ clauseLexemes (.mark .colon) type)
    rw [if_neg Bool.false_ne_true, hwritten]
    exact reads_pure _ IsEnd

/-- No name that can be declared is printed as the word `this`. -/
theorem wordLexeme_ne_this {name : String} (h : IsBindingName name) :
    Cursor.wordLexeme name ≠ .word .thisWord := by
  intro heq
  have hname := bindingName?_wordLexeme h
  rw [heq] at hname
  cases hname

/-- The first lexeme of a parameter. -/
theorem startsParameter {parameter : Parameter} (h : IsBindingName parameter.name) :
    ∃ first rest, parameter.lexemes = first :: rest ∧ first ≠ .mark .parenClose
      ∧ first ≠ .word .thisWord := by
  obtain ⟨name, optional, type⟩ := parameter
  rw [Parameter.lexemes, restLexemes.eq_def]
  split
  · exact ⟨_, _, rfl, by decide, by decide⟩
  · refine ⟨_, _, rfl, fun heq => ?_, wordLexeme_ne_this h⟩
    have hstarts := startsType_wordLexeme name
    rw [heq] at hstarts
    cases hstarts

/-- So a parameter is not taken for a receiver. -/
theorem reads_parameterOrReceiver {parameter : Parameter} (hname : IsBindingName parameter.name)
    (h : Reads (Reader.parameter TypeExpr.reader) parameter.lexemes parameter IsEnd) :
    Reads (parameterOrReceiver TypeExpr.reader) parameter.lexemes (some parameter) IsEnd := by
  refine .of_acceptNot h.bind_pure fun behind _ => ?_
  obtain ⟨first, rest, hlexemes, -, hthis⟩ := startsParameter hname
  rw [hlexemes]
  exact fun heq => hthis (Option.some.inj heq)

/-- Parameters that are read, one by one. -/
def ParametersRead (parameters : List Parameter) : Prop :=
  ∀ parameter ∈ parameters, IsBindingName parameter.name
    ∧ Reads (Reader.parameter TypeExpr.reader) parameter.lexemes parameter IsEnd

/-- The lexemes of parameters are those of each of them. -/
theorem parameterLexemes_eq (parameters : List Parameter) :
    parameterLexemes parameters = parameters.map Parameter.lexemes := by
  induction parameters with
  | nil => rfl
  | cons parameter rest ih => exact congrArg (parameter.lexemes :: ·) ih

/-- Parameters are read back from parentheses. -/
theorem reads_parameters {parameters : List Parameter} (h : ParametersRead parameters) :
    Reads (Reader.parameters TypeExpr.reader) ([.mark .parenOpen]
      ++ (commaLexemes (parameterLexemes parameters) ++ [.mark .parenClose])) parameters
      fun _ => True := by
  have hitems : List.Forall₂ (fun value lexemes =>
      Reads (parameterOrReceiver TypeExpr.reader) lexemes value IsEnd)
      (parameters.map some) (parameters.map Parameter.lexemes) := by
    refine List.forall₂_map_left_iff.mpr (List.forall₂_map_right_iff.mpr ?_)
    exact List.forall₂_same.mpr fun parameter hin =>
      reads_parameterOrReceiver (h parameter hin).1 (h parameter hin).2
  have hfirst : ∀ lexemes ∈ parameters.map Parameter.lexemes,
      ∃ first rest, lexemes = first :: rest ∧ first ≠ .mark .parenClose := by
    intro lexemes hin
    obtain ⟨parameter, hparameter, rfl⟩ := List.mem_map.mp hin
    obtain ⟨first, rest, hlexemes, hne, -⟩ := startsParameter (h parameter hparameter).1
    exact ⟨first, rest, hlexemes, hne⟩
  have hall := reads_commas rfl (by decide) (fun n => (Simulation.alike_parameterOrReceiver
    Simulation.alike_typeReader).anti (Nat.le_succ n)) hitems hfirst
    ⟨isEnd_mark (by decide), isEnd_mark (by decide)⟩
  rw [parameterLexemes_eq]
  have hread : Reads (Reader.parameters TypeExpr.reader) _ ((parameters.map some).filterMap id)
      fun _ => True :=
    (reads_expect .parenOpen).bind (hall.bind (reads_expect .parenClose).bind_pure fun _ _ => rfl)
      fun _ _ => trivial
  rwa [List.filterMap_map, Function.id_comp, List.filterMap_some] at hread

/-- Type parameters that are read, in angle brackets. -/
def TypeParametersRead (typeParameters : List TypeParameter) : Prop :=
  Reads (Reader.typeParameters TypeExpr.reader) (angleLexemes (typeParameterLexemes typeParameters))
    typeParameters fun next => next ≠ some (.mark .less)

/-- A signature is read back. -/
theorem reads_signature {typeParameters : List TypeParameter} {parameters : List Parameter}
    {result : Option TypeExpr} (htypes : TypeParametersRead typeParameters)
    (hparameters : ParametersRead parameters) (hresult : OptionRead result)
    (hwritten : NotRepeated result) :
    Reads (Reader.signature TypeExpr.reader)
      (Signature.lexemes ⟨typeParameters, parameters, result⟩)
      ⟨typeParameters, parameters, result⟩ IsEnd := by
  have hbehind := reads_typeAfter (.mark .colon) hresult
  rw [hwritten.written] at hbehind
  have hends := hbehind.mono fun next (hnext : IsEnd next) => ⟨hnext.off, hnext.ne (by decide)⟩
  have hread : Reads (Reader.signature TypeExpr.reader) _
      ⟨typeParameters, parameters, result⟩ IsEnd :=
    htypes.bind ((reads_parameters hparameters).bind hends.bind_pure fun _ _ => trivial)
      fun _ _ => by
        rw [List.append_assoc]
        exact fun heq => by cases heq
  rw [Signature.lexemes]
  rwa [List.append_assoc, List.append_assoc] at hread

/-- The signature of a function type, of which the result goes on as far as it can. -/
theorem reads_functionSignature {typeParameters : List TypeParameter} {parameters : List Parameter}
    {result : TypeExpr} (htypes : TypeParametersRead typeParameters)
    (hparameters : ParametersRead parameters)
    (hresult : Reads TypeExpr.reader result.lexemes result (Off typeMarks)) :
    Reads (Reader.functionSignature TypeExpr.reader)
      (Signature.functionLexemes ⟨typeParameters, parameters, some result⟩)
      ⟨typeParameters, parameters, some result⟩ (Off typeMarks) := by
  have hread : Reads (Reader.functionSignature TypeExpr.reader) _
      ⟨typeParameters, parameters, some result⟩ (Off typeMarks) :=
    htypes.bind ((reads_parameters hparameters).bind ((reads_expect .arrow).bind hresult.bind_pure
      fun _ _ => trivial) fun _ _ => trivial) fun _ _ => by
        rw [List.append_assoc]
        exact fun heq => by cases heq
  rw [Signature.functionLexemes]
  rwa [List.append_assoc, List.append_assoc] at hread

/-! ### Members -/

/-- A member has a semicolon behind it. -/
def IsSemicolon (next : Option Lexeme) : Prop :=
  next = some (.mark .semicolon)

/-- A semicolon ends an item. -/
theorem IsSemicolon.isEnd {next : Option Lexeme} (h : IsSemicolon next) : IsEnd next :=
  ⟨.semicolon, by decide, h⟩

/-- What is read back in front of the end of an item is read back in front of a semicolon. -/
theorem Reader.Reads.beforeSemicolon {α : Type} {reader : Reader α} {lexemes : List Lexeme}
    {value : α} (h : Reads reader lexemes value IsEnd) : Reads reader lexemes value IsSemicolon :=
  h.mono fun _ hnext => hnext.isEnd

/-- An index signature is read back by its bracket. -/
theorem reads_memberBody_index {parameter : Parameter} {type : TypeExpr}
    (hparameter : Reads (Reader.parameter TypeExpr.reader) parameter.lexemes parameter IsEnd)
    (htype : Reads TypeExpr.reader type.lexemes type (Off typeMarks)) :
    Reads (memberBody TypeExpr.reader) (Member.index parameter type).lexemes (.index parameter type)
      IsSemicolon := by
  have hends := htype.mono fun next (hnext : IsSemicolon next) => hnext.isEnd.off
  exact .of_accept (hparameter.bind ((reads_expect .bracketClose).bind
    ((reads_expect .colon).bind hends.bind_pure fun _ _ => trivial) fun _ _ => trivial)
    fun _ _ => isEnd_mark (by decide))

/-- A signature starts with one of two brackets. -/
theorem Signature.startsSignature_lexemes (signature : Signature) :
    ∃ first rest, signature.lexemes = first :: rest ∧ startsSignature (some first) = true
      ∧ first ≠ .mark .bracketOpen ∧ first ≠ .mark .question := by
  obtain ⟨typeParameters, parameters, result⟩ := signature
  rw [lexemes]
  cases typeParameterLexemes typeParameters with
  | nil => exact ⟨_, _, rfl, rfl, by decide, by decide⟩
  | cons item items => exact ⟨.mark .less, _, rfl, rfl, by decide, by decide⟩

/-- A call signature is read back by the bracket that it starts with. -/
theorem reads_memberBody_call {signature : Signature}
    (h : Reads (Reader.signature TypeExpr.reader) signature.lexemes signature IsEnd) :
    Reads (memberBody TypeExpr.reader) signature.lexemes (.call signature) IsSemicolon := by
  obtain ⟨first, rest, hlexemes, hstarts, hbracket, -⟩ := signature.startsSignature_lexemes
  rw [hlexemes] at h ⊢
  refine .of_acceptNot (reads_next ?_) fun _ _ heq => hbracket (Option.some.inj heq)
  rw [if_pos hstarts]
  exact h.beforeSemicolon.bind_pure

/-- A construct signature is read back by its word. -/
theorem reads_memberBody_construct {signature : Signature}
    (h : Reads (Reader.signature TypeExpr.reader) signature.lexemes signature IsEnd) :
    Reads (memberBody TypeExpr.reader) (Member.construct signature).lexemes (.construct signature)
      IsSemicolon := by
  obtain ⟨first, rest, hlexemes, hstarts, -⟩ := signature.startsSignature_lexemes
  have hnew : startsSignature (signature.lexemes.head?.or (some (.mark .semicolon))) = true := by
    rw [hlexemes]
    exact hstarts
  show Reads _ (.word .newWord :: signature.lexemes) _ _
  refine .of_acceptNot (reads_next ?_) fun _ _ heq => by cases heq
  rw [if_neg (by decide)]
  refine reads_next (reads_second ?_)
  rw [hnew, Bool.and_true, if_pos (by decide)]
  exact (reads_skip _).bind h.beforeSemicolon.bind_pure fun _ _ => trivial

/-- A member that starts with a name, up to that. What comes behind the name shows that `new`, if
that is the name, does not start a construct signature. -/
theorem reads_memberBody_named {name : String} {lexeme : Lexeme} {lexemes : List Lexeme}
    {result : Member} (hname : lexeme.propertyName? = some name)
    (hnew : lexeme = .word .newWord →
      startsSignature (lexemes.head?.or (some (.mark .semicolon))) = false)
    (h : Reads (accept (.mark .question) >>= fun optional => look Stream.next? >>= fun next =>
      if startsSignature next then
        Reader.signature TypeExpr.reader >>= fun signature => pure (.method name optional signature)
      else typeAfter TypeExpr.reader (.mark .colon) >>= fun type =>
        pure (.property name optional type))
      lexemes result IsSemicolon) :
    Reads (memberBody TypeExpr.reader) ([lexeme] ++ lexemes) result IsSemicolon := by
  have hmark : ∀ mark, lexeme ≠ .mark mark := by
    rintro mark rfl
    cases hname
  have hstarts : ¬ startsSignature (some lexeme) = true := by
    cases lexeme with
    | mark mark => exact absurd rfl (hmark mark)
    | _ => simp [startsSignature]
  rw [List.singleton_append]
  refine .of_acceptNot (reads_next ?_) fun _ _ heq => hmark _ (Option.some.inj heq)
  rw [if_neg hstarts]
  refine reads_next (reads_second ?_)
  -- The name may be `new`, but then no signature follows it.
  have hnot : ¬ (decide (some lexeme = some (.word .newWord))
      && startsSignature (lexemes.head?.or (some (.mark .semicolon)))) = true := by
    rw [Bool.and_eq_true, decide_eq_true_eq]
    rintro ⟨heq, hsignature⟩
    cases (hnew (Option.some.inj heq)).symm.trans hsignature
  rw [if_neg hnot]
  exact (reads_expectSome hname).bind h fun _ _ => trivial

/-- A property is read back. -/
theorem reads_memberBody_property {name : String} {lexeme : Lexeme} {optional : Bool}
    {type : Option TypeExpr} (hname : lexeme.propertyName? = some name) (htype : OptionRead type)
    (hwritten : NotRepeated type) :
    Reads (memberBody TypeExpr.reader)
      ([lexeme] ++ (optionalLexemes optional ++ clauseLexemes (.mark .colon) type))
      (.property name optional type) IsSemicolon := by
  have hplain : ∀ next, next = some (.mark .semicolon) →
      startsSignature ((clauseLexemes (.mark .colon) type).head?.or next) = false := by
    rintro _ rfl
    exact head?_clause (startsSignature · = false) rfl rfl
  refine reads_memberBody_named hname (fun _ => ?_) ((reads_optional optional).bind
    (reads_nextOr ?_) fun behind hbehind => ?_)
  · exact head?_optional (startsSignature · = false) (hplain _ rfl) rfl
  · rw [hplain _ rfl, if_neg Bool.false_ne_true]
    have hbehind := reads_typeAfter (.mark .colon) htype
    rw [hwritten.written] at hbehind
    refine Reads.mono hbehind.bind_pure ?_
    rintro _ rfl
    exact ⟨by decide, by decide⟩
  · cases hbehind
    exact head?_clause (· ≠ some (.mark .question)) (by decide) (by decide)

/-- A method is read back, if it is not called `new` without a question mark. -/
theorem reads_memberBody_method {name : String} {lexeme : Lexeme} {optional : Bool}
    {signature : Signature} (hname : lexeme.propertyName? = some name)
    (hnew : lexeme = .word .newWord → optional = true)
    (h : Reads (Reader.signature TypeExpr.reader) signature.lexemes signature IsEnd) :
    Reads (memberBody TypeExpr.reader)
      ([lexeme] ++ (optionalLexemes optional ++ signature.lexemes))
      (.method name optional signature) IsSemicolon := by
  obtain ⟨first, rest, hlexemes, hstarts, -, hquestion⟩ := signature.startsSignature_lexemes
  rw [hlexemes] at h ⊢
  refine reads_memberBody_named hname (fun heq => ?_) ((reads_optional optional).bind
    (reads_nextOr ?_) fun behind _ heq => hquestion (Option.some.inj heq))
  · rw [hnew heq]
    rfl
  · have hnext : startsSignature ((first :: rest).head?.or (some (.mark .semicolon))) = true :=
      hstarts
    rw [hnext, if_pos rfl]
    exact h.beforeSemicolon.bind_pure

/-- Lexemes of a member without modifiers: the first of them modifies nothing, or what comes
behind it shows that it is a name. -/
def Unmodified (lexemes : List Lexeme) : Prop :=
  ∃ first rest, lexemes = first :: rest ∧ (isModifierWord first = true →
    endsName (rest.head?.or (some (.mark .semicolon))) = true)

/-- No modifiers are taken off such lexemes. -/
theorem Unmodified.splitModifiers {lexemes : List Lexeme} (h : Unmodified lexemes)
    {tokens : List Token} {behind : Stream} (htokens : tokens.map Token.lexeme = lexemes)
    (hbehind : IsSemicolon behind.next?) :
    Reader.splitModifiers (tokens ++ behind.tokens) = (false, tokens ++ behind.tokens) := by
  obtain ⟨first, rest, rfl, hends⟩ := h
  obtain ⟨token, more, rfl, rfl, rfl⟩ := List.map_eq_cons_iff.mp htokens
  have hnext : (more ++ behind.tokens).head?.map Token.lexeme
      = (more.map Token.lexeme).head?.or (some (.mark .semicolon)) := by
    rw [← hbehind]
    exact behind.next?_prepend more
  rw [List.cons_append, Reader.splitModifiers, hnext, if_neg]
  rw [Bool.and_eq_true, Bool.not_eq_true']
  rintro ⟨hmodifier, hnot⟩
  cases (hends hmodifier).symm.trans hnot

/-- A member without modifiers. -/
theorem reads_member_plain {member : Member} {lexemes : List Lexeme} (hplain : Unmodified lexemes)
    (h : Reads (memberBody TypeExpr.reader) lexemes member IsSemicolon) :
    Reads (Reader.member TypeExpr.reader) lexemes member IsSemicolon := by
  intro tokens behind htokens hbehind
  have hbody := h tokens behind htokens hbehind
  rw [Stream.prepend] at hbody ⊢
  rw [Reader.member, bind_eq, take]
  dsimp only
  rw [hplain.splitModifiers htokens hbehind, bind_eq, hbody]
  rfl

/-- A static member. What is static starts with no lexeme that would make a name of `static`. -/
theorem reads_member_static {member : Member} {lexemes : List Lexeme} (hplain : Unmodified lexemes)
    (hstarts : ∀ first ∈ lexemes.head?, endsName (some first) = false)
    (h : Reads (memberBody TypeExpr.reader) lexemes member IsSemicolon) :
    Reads (Reader.member TypeExpr.reader) ([.word .staticWord] ++ lexemes) (.static member)
      IsSemicolon := by
  intro tokens behind htokens hbehind
  obtain ⟨static, more, rfl, hstatic, hmore⟩ := List.map_eq_cons_iff.mp htokens
  have hbody := h more behind hmore hbehind
  have hnext : endsName ((more ++ behind.tokens).head?.map Token.lexeme) = false := by
    obtain ⟨first, rest, rfl, -⟩ := hplain
    obtain ⟨token, others, rfl, rfl, -⟩ := List.map_eq_cons_iff.mp hmore
    exact hstarts _ rfl
  rw [Stream.prepend] at hbody ⊢
  rw [Reader.member, bind_eq, take, List.cons_append]
  dsimp only
  rw [Reader.splitModifiers, hstatic, hnext, if_pos (by decide),
    hplain.splitModifiers hmore hbehind, bind_eq]
  dsimp only
  rw [hbody]
  rfl

/-- The semicolon behind a member. -/
theorem reads_memberSeparator : Reads memberSeparator [.mark .semicolon] true
    fun next => next ≠ some (.mark .semicolon) := by
  intro tokens rest htokens hrest
  obtain ⟨token, rfl, htoken⟩ := List.map_eq_singleton_iff.mp htokens
  have hread : accept (.mark .semicolon) (rest.prepend [token]) = .ok ⟨true, [], rest⟩ :=
    reads_accept _ [token] rest htokens trivial
  have hnone : take splitSemicolons rest = .ok ⟨(), [], rest⟩ := by
    rw [take, Simulation.splitSemicolons_miss hrest]
  rw [memberSeparator, bind_eq, hread]
  dsimp only
  rw [if_pos rfl, Reader.pure_bind, if_pos rfl, bind_eq, hnone]
  rfl

/-- Members that are read, one by one. -/
def MembersRead (members : List Member) : Prop :=
  ∀ member ∈ members, Reads (Reader.member TypeExpr.reader) member.lexemes member IsSemicolon

/-- Members are read back from braces. -/
theorem reads_members {members : List Member} (h : MembersRead members) :
    Reads (Reader.members TypeExpr.reader) (braceLexemes (memberLexemes members)) members
      fun _ => True := by
  have hregular : (Reader.member TypeExpr.reader).Regular :=
    fun n => (Simulation.alike_member Simulation.alike_typeReader).anti (Nat.le_succ n)
  have hall : Reads (separatedUntil .braceClose (Reader.member TypeExpr.reader) memberSeparator)
      ((memberLexemes members).flatMap (· ++ [.mark .semicolon])) members
      fun next => next = some (.mark .braceClose) := by
    induction members with
    | nil =>
      exact reads_separatedUntil_nil rfl (Simulation.separates_memberSeparator _) hregular
    | cons member members ih =>
      rw [MembersRead, List.forall_mem_cons] at h
      obtain ⟨first, rest, hlexemes, hne⟩ := member.startsType_lexemes.ne_mark .braceClose rfl
      have hmember := h.1
      rw [memberLexemes, List.flatMap_cons, hlexemes, List.append_assoc] at *
      refine reads_separatedUntil_cons rfl (Simulation.separates_memberSeparator _) hregular
        hmember hne reads_memberSeparator (ih h.2) ?_ rfl
      -- Behind the semicolon comes the closing brace or a member, but no second semicolon.
      cases members with
      | nil => decide
      | cons next members =>
        obtain ⟨first, rest, hnext, hne⟩ := next.startsType_lexemes.ne_mark .semicolon rfl
        rw [memberLexemes, List.flatMap_cons, hnext]
        exact fun heq => hne (Option.some.inj heq)
  exact (reads_expect .braceOpen).bind
    (hall.bind (reads_expect .braceClose).bind_pure fun _ _ => rfl)
    fun _ _ => trivial

end Facade
