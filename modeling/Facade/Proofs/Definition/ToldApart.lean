import Facade.Proofs.Definition.Identifier
import Facade.Proofs.Definition.Inner
import Mathlib.Logic.Function.Iterate

/-!
# Types that are told apart by their texts

A text says what it was written for, whatever of a sort stands behind it: that is `ToldApart`, for
names, for paths, for lists with a separator, and for types. A name that is a word ends where no
other character of words follows, and any other name ends with its backquote. A path ends where no
dot follows. A type is a path with its arguments and any number of stars behind them, so stars are
counted first (`exists_stars`), and what is left is no repeated type.

`display_unambiguous` is what comes of it: two types are written alike only if they are the same.
-/

set_option autoImplicit false

namespace Facade

open Facade.Text

/-! ### Texts with something behind them -/

/-- Good values are told apart by their texts, whatever follows these, as long as it is of a sort.
-/
def ToldApart {α : Type} (write : α → String) (good : α → Prop) (follows : List Char → Prop) :
    Prop :=
  ∀ first second : α, good first → good second → ∀ rest rest' : List Char,
    follows rest → follows rest' →
      (write first).toList ++ rest = (write second).toList ++ rest' → first = second ∧ rest = rest'

/-- What comes next, if anything does, is one of some characters. -/
def StartsIn (chars rest : List Char) : Prop :=
  ∀ c ∈ rest.head?, c ∈ chars

/-- Two texts meet what follows at the same place, if a test tells where each of them ends. -/
theorem append_inj_of_test {test : Char → Bool} {front front' rest rest' : List Char}
    (hfront : ∀ c ∈ front, test c = true) (hfront' : ∀ c ∈ front', test c = true)
    (hrest : ∀ c ∈ rest.head?, test c = false) (hrest' : ∀ c ∈ rest'.head?, test c = false)
    (h : front ++ rest = front' ++ rest') : front = front' ∧ rest = rest' := by
  have htake : ∀ {front rest : List Char}, (∀ c ∈ front, test c = true) →
      (∀ c ∈ rest.head?, test c = false) → (front ++ rest).takeWhile test = front := by
    intro front rest hfront hrest
    rw [List.takeWhile_append_of_pos hfront]
    cases rest with
    | nil => rw [List.takeWhile_nil, List.append_nil]
    | cons c rest =>
      rw [List.takeWhile_cons_of_neg (by rw [hrest c rfl]; exact Bool.false_ne_true),
        List.append_nil]
  have hsame : front = front' := by
    rw [← htake hfront hrest, h, htake hfront' hrest']
  subst hsame
  exact ⟨rfl, List.append_cancel_left h⟩

section

variable {α : Type} {write : α → String} {good : α → Prop} {follows stops : List Char → Prop}
  {separator : String}

/-- A list is written as its first text, the separator and the others. -/
theorem toList_joined_cons_cons (separator text next : String) (rest : List String) :
    (joined separator (text :: next :: rest)).toList
      = text.toList ++ (separator.toList ++ (joined separator (next :: rest)).toList) := by
  simp [joined_cons_cons, String.toList_append]

/-- Lists that are not empty are told apart by their joined texts, if the separator may follow an
item and what follows the list does not look like a separator. -/
theorem toldApart_joined (h : ToldApart write good follows)
    (hseparator : ∀ rest, follows (separator.toList ++ rest))
    (hstops : ∀ rest, stops rest → follows rest)
    (hnone : ∀ rest, ¬ stops (separator.toList ++ rest)) :
    ToldApart (fun items : List α => joined separator (items.map write))
      (fun items => items ≠ [] ∧ ∀ item ∈ items, good item) stops := by
  intro first
  induction first with
  | nil => exact fun _ hgood => absurd rfl hgood.1
  | cons x more ih =>
    rintro second ⟨-, hfirst⟩ ⟨hne, hsecond⟩ rest rest' hrest hrest' heq
    obtain ⟨hx, hmore⟩ := List.forall_mem_cons.mp hfirst
    obtain _ | ⟨y, others⟩ := second
    · exact absurd rfl hne
    obtain ⟨hy, hothers⟩ := List.forall_mem_cons.mp hsecond
    -- One list may not end where the other one goes on.
    rcases more with - | ⟨x', more⟩ <;> rcases others with - | ⟨y', others⟩ <;>
      simp only [List.map_cons, List.map_nil, joined_singleton, toList_joined_cons_cons,
        List.append_assoc] at heq
    · obtain ⟨rfl, rfl⟩ := h x y hx hy _ _ (hstops _ hrest) (hstops _ hrest') heq
      exact ⟨rfl, rfl⟩
    · obtain ⟨-, rfl⟩ := h x y hx hy _ _ (hstops _ hrest) (hseparator _) heq
      exact absurd hrest (hnone _)
    · obtain ⟨-, rfl⟩ := h x y hx hy _ _ (hseparator _) (hstops _ hrest') heq
      exact absurd hrest' (hnone _)
    · obtain ⟨rfl, hbehind⟩ := h x y hx hy _ _ (hseparator _) (hseparator _) heq
      obtain ⟨hsame, rfl⟩ := ih (y' :: others) ⟨List.cons_ne_nil _ _, hmore⟩
        ⟨List.cons_ne_nil _ _, hothers⟩ rest rest' hrest hrest' (List.append_cancel_left hbehind)
      exact ⟨congrArg (List.cons x) hsame, rfl⟩

end

/-! ### Names and paths -/

/-- The name can be written between backquotes as it is. -/
def Identifier.Quotable (name : Identifier) : Prop :=
  name.raw ≠ "" ∧ '`' ∉ name.raw.toList

/-- Whether a name can be written so is computed. -/
instance : DecidablePred Identifier.Quotable := fun _ => inferInstanceAs (Decidable (_ ∧ _))

/-- The path is not empty, and every name on it can be written between backquotes as it is. -/
def DottedName.Quotable (path : DottedName) : Prop :=
  path.segments ≠ [] ∧ ∀ name ∈ path.segments, name.Quotable

/-- Whether the names on a path can be written so is computed. -/
instance : DecidablePred DottedName.Quotable := fun _ => inferInstanceAs (Decidable (_ ∧ _))

/-- A word is not written between backquotes. -/
theorem Identifier.backquote_cons_ne {name : Identifier} (h : name.isPlain = true)
    (text rest : List Char) : '`' :: text ≠ name.display.toList ++ rest := by
  have hword := isWord_of_isPlain h
  rw [display, if_pos h]
  intro heq
  cases hraw : name.raw.toList with
  | nil =>
    rw [hraw] at hword
    cases hword
  | cons c more =>
    rw [hraw, isWord, Bool.and_eq_true] at hword
    rw [hraw, List.cons_append, List.cons.injEq] at heq
    exact absurd (heq.1 ▸ hword.1) (by decide)

/-- Names are told apart where no character of words follows. -/
theorem Identifier.toldApart_display :
    ToldApart display Quotable fun rest => ∀ c ∈ rest.head?, continuesWord c = false := by
  intro first second hfirst hsecond rest rest' hrest hrest' heq
  have hraw : ∀ {name name' : Identifier}, name.raw.toList = name'.raw.toList → name = name' :=
    fun h => congrArg Identifier.mk (String.toList_injective h)
  have hquoted : ∀ {name : Identifier}, name.isPlain = false → name.Quotable →
      name.display.toList = '`' :: (name.raw.toList ++ ['`']) := by
    intro name hplain hname
    rw [toList_display_of_not_isPlain hplain, map_withoutBackquote hname.2, List.cons_append]
  cases hplain : first.isPlain <;> cases hplain' : second.isPlain
  · rw [hquoted hplain hfirst, hquoted hplain' hsecond] at heq
    simp only [List.cons_append, List.append_assoc, List.nil_append, List.cons.injEq, true_and]
      at heq
    -- The name ends at the next backquote, since it has none itself.
    have hinner : ∀ {text : List Char}, '`' ∉ text → ∀ c ∈ text, (c != '`') = true :=
      fun h c hc => bne_iff_ne.mpr fun hcq => h (hcq ▸ hc)
    have hquote : ∀ rest : List Char, ∀ c ∈ ('`' :: rest).head?, (c != '`') = false := by
      intro rest c hc
      cases Option.mem_some_iff.mp hc
      rfl
    obtain ⟨hsame, hbehind⟩ := append_inj_of_test (hinner hfirst.2) (hinner hsecond.2) (hquote _)
      (hquote _) heq
    exact ⟨hraw hsame, (List.cons.inj hbehind).2⟩
  · rw [hquoted hplain hfirst] at heq
    exact absurd heq (backquote_cons_ne hplain' _ _)
  · rw [hquoted hplain' hsecond] at heq
    exact absurd heq.symm (backquote_cons_ne hplain _ _)
  · rw [display, if_pos hplain, display, if_pos hplain'] at heq
    obtain ⟨hsame, hbehind⟩ := append_inj_of_test
      (continuesWord_of_isWord (isWord_of_isPlain hplain))
      (continuesWord_of_isWord (isWord_of_isPlain hplain')) hrest hrest' heq
    exact ⟨hraw hsame, hbehind⟩

/-- Paths are told apart where no dot follows either. -/
theorem DottedName.toldApart_display :
    ToldApart display Quotable
      fun rest => ∀ c ∈ rest.head?, continuesWord c = false ∧ c ≠ '.' := by
  have hdot : ∀ rest, ".".toList ++ rest = '.' :: rest := fun _ => rfl
  have hsegments : ToldApart
      (fun names : List Identifier => joined "." (names.map Identifier.display))
      (fun names => names ≠ [] ∧ ∀ name ∈ names, name.Quotable)
      fun rest => ∀ c ∈ rest.head?, continuesWord c = false ∧ c ≠ '.' := by
    refine toldApart_joined Identifier.toldApart_display (fun rest c hc => ?_)
      (fun rest hrest c hc => (hrest c hc).1) fun rest hrest => ?_
    · rw [hdot] at hc
      cases Option.mem_some_iff.mp hc
      decide
    · exact (hrest '.' (by rw [hdot]; rfl)).2 rfl
  intro first second hfirst hsecond rest rest' hrest hrest' heq
  obtain ⟨hsame, hbehind⟩ := hsegments first.segments second.segments hfirst hsecond rest rest'
    hrest
    hrest' heq
  exact ⟨congrArg DottedName.mk hsame, hbehind⟩

/-! ### Types -/

namespace ScalaType

/-- Type arguments in square brackets, or nothing if there are none. -/
def inSquares : List String → String
  | [] => ""
  | text :: rest => "[" ++ joined ", " (text :: rest) ++ "]"

/-- A type that is not repeated is written as its path and its arguments. -/
theorem display_of_not_isRepeated {type : ScalaType} (h : type.isRepeated = false) :
    type.display = type.name.display ++ inSquares (type.arguments.map display) := by
  obtain ⟨name, arguments⟩ := type
  rw [display, displayAll_eq_map]
  obtain _ | ⟨first, _ | ⟨second, rest⟩⟩ := arguments
  · simp [displayApplied, inSquares]
  · have hname : name ≠ repeatedName := by
      rintro rfl
      exact absurd h (by simp [isRepeated, element?])
    simp [displayApplied, inSquares, hname, String.append_assoc]
  · simp [displayApplied, inSquares, String.append_assoc]

/-- Every type is some type that is not repeated, with a number of stars. -/
theorem exists_stars (type : ScalaType) :
    ∃ stars base, isRepeated base = false ∧ type = repeated^[stars] base := by
  cases helement : type.element? with
  | none => exact ⟨0, type, by simp [isRepeated, helement], rfl⟩
  | some element =>
    have htype := eq_repeated_of_element? helement
    obtain ⟨stars, base, hbase, helement⟩ := element.exists_stars
    exact ⟨stars + 1, base, hbase, by rw [htype, helement, Function.iterate_succ_apply']⟩
termination_by sizeOf type
decreasing_by
  rw [htype]
  simp [repeated]
  omega

/-- A type that is repeated some times is written as that type and so many stars. -/
theorem toList_display_iterate (stars : Nat) (base : ScalaType) :
    (repeated^[stars] base).display.toList = base.display.toList ++ List.replicate stars '*' := by
  induction stars with
  | zero => simp
  | succ stars ih =>
    rw [Function.iterate_succ_apply', repeated, display, displayAll, displayAll, displayApplied,
      if_pos rfl, String.toList_append, ih, List.append_assoc, List.replicate_succ']
    rfl

/-- What is good throughout a repeated type is good throughout the type that is repeated. -/
theorem throughout_of_iterate {good : ScalaType → Prop} {stars : Nat} {base : ScalaType}
    (h : (repeated^[stars] base).Throughout good) : base.Throughout good := by
  induction stars with
  | zero => exact h
  | succ stars ih =>
    rw [Function.iterate_succ_apply', throughout_iff] at h
    exact ih (h.2 _ (List.mem_singleton.mpr rfl))

/-- A type is no larger than it is when it is repeated. -/
theorem sizeOf_le_iterate (stars : Nat) (base : ScalaType) :
    sizeOf base ≤ sizeOf (repeated^[stars] base) := by
  induction stars with
  | zero => exact Nat.le_refl _
  | succ stars ih =>
    rw [Function.iterate_succ_apply', repeated]
    simp
    omega

/-- The arguments of a type are smaller than the type. -/
theorem sizeOf_arguments_lt (type : ScalaType) : sizeOf type.arguments < sizeOf type := by
  obtain ⟨name, arguments⟩ := type
  show sizeOf arguments < sizeOf (mk name arguments)
  rw [mk.sizeOf_spec]
  omega

/-- Type arguments are written between a pair of square brackets. -/
theorem toList_inSquares_cons (text : String) (rest : List String) :
    (inSquares (text :: rest)).toList = '[' :: ((joined ", " (text :: rest)).toList ++ [']']) := by
  simp [inSquares]

/-- A comma and a blank may stand between arguments, and a bracket behind them. -/
theorem toldApart_arguments {good : ScalaType → Prop}
    (h : ToldApart display good (StartsIn [',', ']'])) :
    ToldApart (fun types : List ScalaType => joined ", " (types.map display))
      (fun types => types ≠ [] ∧ ∀ type ∈ types, good type) (StartsIn [']']) := by
  have hcomma : ∀ rest, ", ".toList ++ rest = ',' :: ' ' :: rest := fun _ => rfl
  refine toldApart_joined h (fun rest c hc => ?_) (fun rest hrest c hc => ?_) fun rest hrest => ?_
  · rw [hcomma] at hc
    cases Option.mem_some_iff.mp hc
    exact List.mem_cons_self
  · exact List.mem_cons_of_mem _ (hrest c hc)
  · exact absurd (hrest ',' (by rw [hcomma]; rfl)) (by decide)

/-- Behind a path stands the bracket of its arguments, or what follows the type. -/
theorem startsIn_inSquares (texts : List String) {rest : List Char}
    (h : StartsIn ['*', ',', ']'] rest) :
    StartsIn ['[', '*', ',', ']'] ((inSquares texts).toList ++ rest) := by
  intro c hc
  cases texts with
  | nil => exact List.mem_cons_of_mem _ (h c hc)
  | cons text texts =>
    rw [toList_inSquares_cons] at hc
    cases Option.mem_some_iff.mp hc
    exact List.mem_cons_self

/-- Types that are not repeated are told apart where a star, a comma or a bracket follows, if their
arguments are told apart where a comma or a bracket does. -/
theorem toldApart_base {good : ScalaType → Prop}
    (h : ToldApart display good (StartsIn [',', ']'])) :
    ToldApart display (fun type => type.isRepeated = false ∧ type.name.Quotable
      ∧ ∀ argument ∈ type.arguments, good argument) (StartsIn ['*', ',', ']']) := by
  have hends : ∀ c ∈ ['[', '*', ',', ']'], continuesWord c = false ∧ c ≠ '.' := by
    simp only [List.forall_mem_cons, List.not_mem_nil, false_implies, implies_true]
    decide
  have hopen : ∀ {text : String} {texts : List String} {rest rest' : List Char},
      StartsIn ['*', ',', ']'] rest →
      rest ≠ (inSquares (text :: texts)).toList ++ rest' := by
    rintro text texts rest rest' hrest rfl
    rw [toList_inSquares_cons] at hrest
    exact absurd (hrest '[' rfl) (by decide)
  rintro ⟨name, arguments⟩ ⟨name', arguments'⟩ ⟨hfirst, hname, hgood⟩ ⟨hsecond, hname', hgood'⟩
    rest rest' hrest hrest' heq
  rw [display_of_not_isRepeated hfirst, display_of_not_isRepeated hsecond, String.toList_append,
    String.toList_append, List.append_assoc, List.append_assoc] at heq
  obtain ⟨rfl, hbehind⟩ := DottedName.toldApart_display name name' hname hname' _ _
    (fun c hc => hends c (startsIn_inSquares _ hrest c hc))
    (fun c hc => hends c (startsIn_inSquares _ hrest' c hc)) heq
  rcases arguments with - | ⟨x, more⟩ <;> rcases arguments' with - | ⟨y, others⟩
  · exact ⟨rfl, hbehind⟩
  · exact absurd hbehind (hopen hrest)
  · exact absurd hbehind.symm (hopen hrest')
  · simp only [List.map_cons, toList_inSquares_cons, List.cons_append, List.append_assoc,
      List.nil_append, List.cons.injEq, true_and] at hbehind
    have hclose : ∀ rest, StartsIn [']'] (']' :: rest) := fun _ c hc => by
      cases Option.mem_some_iff.mp hc
      exact List.mem_cons_self
    obtain ⟨hsame, hrests⟩ := toldApart_arguments h (x :: more) (y :: others)
      ⟨List.cons_ne_nil _ _, hgood⟩ ⟨List.cons_ne_nil _ _, hgood'⟩ _ _ (hclose _) (hclose _) hbehind
    exact ⟨congrArg (ScalaType.mk name) hsame, (List.cons.inj hrests).2⟩

/-- Every path in the type is not empty, and its names can be written between backquotes. -/
def Quotable (type : ScalaType) : Prop :=
  type.Throughout fun part => part.name.Quotable

/-- Whether all paths in a type can be written so is computed. -/
instance : DecidablePred Quotable := fun _ => inferInstanceAs (Decidable (_ ∧ _))

/-- Types are told apart where a comma or a bracket follows. -/
theorem toldApart_display : ToldApart display Quotable (StartsIn [',', ']']) := by
  -- By size, since the arguments of what is left without stars are no part of the syntax of a type.
  suffices ∀ n, ToldApart display (fun type => sizeOf type < n ∧ type.Quotable)
      (StartsIn [',', ']']) from
    fun first second hfirst hsecond => this (max (sizeOf first) (sizeOf second) + 1) first second
      ⟨by omega, hfirst⟩ ⟨by omega, hsecond⟩
  intro n
  induction n with
  | zero => exact fun _ _ hgood => absurd hgood.1 (Nat.not_lt_zero _)
  | succ n ih =>
    have hgood : ∀ {stars : Nat} {base : ScalaType}, sizeOf (repeated^[stars] base) < n + 1 →
        (repeated^[stars] base).Quotable →
        base.name.Quotable
          ∧ ∀ argument ∈ base.arguments, sizeOf argument < n ∧ argument.Quotable := by
      intro stars base hsize hquotable
      obtain ⟨hname, harguments⟩ := throughout_iff.mp (throughout_of_iterate hquotable)
      refine ⟨hname, fun argument hin => ⟨?_, harguments argument hin⟩⟩
      have hbase := sizeOf_le_iterate stars base
      have hargument := List.sizeOf_lt_of_mem hin
      have hbody := base.sizeOf_arguments_lt
      omega
    rintro first second ⟨hsize, hfirst⟩ ⟨hsize', hsecond⟩ rest rest' hrest hrest' heq
    obtain ⟨stars, base, hbase, rfl⟩ := first.exists_stars
    obtain ⟨stars', base', hbase', rfl⟩ := second.exists_stars
    rw [toList_display_iterate, toList_display_iterate, List.append_assoc, List.append_assoc] at heq
    have hstars : ∀ {stars : Nat} {rest : List Char}, StartsIn [',', ']'] rest →
        StartsIn ['*', ',', ']'] (List.replicate stars '*' ++ rest) := by
      intro stars rest hrest c hc
      cases stars with
      | zero => exact List.mem_cons_of_mem _ (hrest c hc)
      | succ stars =>
        cases Option.mem_some_iff.mp hc
        exact List.mem_cons_self
    obtain ⟨rfl, hbehind⟩ := toldApart_base ih base base' ⟨hbase, hgood hsize hfirst⟩
      ⟨hbase', hgood hsize' hsecond⟩ _ _ (hstars hrest) (hstars hrest') heq
    have hnone : ∀ c ∈ [',', ']'], (c == '*') = false := by
      simp only [List.forall_mem_cons, List.not_mem_nil, false_implies, implies_true]
      decide
    have hall : ∀ stars, ∀ c ∈ List.replicate stars '*', (c == '*') = true := fun _ c hc =>
      beq_iff_eq.mpr (List.eq_of_mem_replicate hc)
    obtain ⟨hcount, hrests⟩ := append_inj_of_test (hall stars) (hall stars')
      (fun c hc => hnone c (hrest c hc)) (fun c hc => hnone c (hrest' c hc)) hbehind
    have hsame : stars = stars' := by
      simpa using congrArg List.length hcount
    exact ⟨by rw [hsame], hrests⟩

end ScalaType

/-- Two types are written alike only if they are the same, as long as no name in them is empty or
has a backquote, and no path is empty. A name that is not empty is read with underscores for its
backquotes. -/
theorem display_unambiguous :
    (∀ first second : ScalaType, first.Quotable → second.Quotable →
        first.display = second.display → first = second)
      ∧ ∀ name : Identifier, name.raw ≠ "" → Identifier.ofDisplay name.display
          = ⟨String.ofList (name.raw.toList.map Identifier.withoutBackquote)⟩ := by
  refine ⟨fun first second hfirst hsecond heq => ?_, fun name => Identifier.ofDisplay_display_eq⟩
  have hnil : StartsIn [',', ']'] [] := fun _ hc => by cases hc
  exact (ScalaType.toldApart_display first second hfirst hsecond [] [] hnil hnil (by rw [heq])).1

/-- A comma in a name is none between arguments, and a star in a name makes no repeated type. -/
theorem display_unambiguous_marks :
    let pair : ScalaType := ⟨.single ⟨"Map"⟩, [.plain "a", .plain "b*"]⟩
    let starred : ScalaType := ⟨.single ⟨"Map"⟩, [.repeated (.plain "a, b")]⟩
    let called : ScalaType := .function [.repeated .string]
    pair.Quotable ∧ starred.Quotable ∧ pair.display ≠ starred.display
      ∧ called.display = "js.Function0[String*]"
      ∧ (∀ type : ScalaType, type.Quotable → type.display = "js.Function0[String*]" → type = called)
      ∧ Identifier.ofDisplay (Identifier.mk "a`b").display = ⟨"a_b"⟩ := by
  intro pair starred called
  have hpair : pair.Quotable := by decide
  have hstarred : starred.Quotable := by decide
  have hcalled : called.display = "js.Function0[String*]" := by decide +kernel
  refine ⟨hpair, hstarred, fun heq => ?_, hcalled, fun type htype heq => ?_, ?_⟩
  · exact absurd (display_unambiguous.1 pair starred hpair hstarred heq) (by decide)
  · exact display_unambiguous.1 type called htype (by decide) (heq.trans hcalled.symm)
  · exact display_unambiguous.2 ⟨"a`b"⟩ (by decide)

end Facade
