import Facade.Definition.Render
import Mathlib.Data.List.Chain

/-!
# Comments hold any text

A placeholder is written as a comment with a text that may hold anything, also the delimiters of
comments. `Comment.separate` walks over the text once for each delimiter, and takes the two
characters of one that it finds together, although delimiters overlap: a slash between two stars
ends one and starts another. What matters is only which characters stand side by side. A walk leaves
no pair of its own kind (`isChain_separate`), and since it puts nothing but spaces between
characters it makes no pair of another kind (`isChain_separate_of_isChain`).

Comments nest in Scala, so one that is opened inside of another has to be closed there as well
(`Comment.behind?`). `comment_enclosed` says that what is written is one comment, with the text
inside, and with spaces in the text where delimiters were and nowhere else.
-/

set_option autoImplicit false

namespace Facade

namespace Comment

/-- Two characters that delimit a comment if they stand side by side. -/
def Delimits (first second : Char) : Prop :=
  first = '/' ∧ second = '*' ∨ first = '*' ∧ second = '/'

/-- A text with a space between some of the pairs of characters that delimit a comment. -/
inductive Spaced : List Char → List Char → Prop where
  | nil : Spaced [] []
  | keep {c : Char} {text spaced : List Char} : Spaced text spaced →
      Spaced (c :: text) (c :: spaced)
  | space {c d : Char} {text spaced : List Char} : Delimits c d →
      Spaced (d :: text) (d :: spaced) → Spaced (c :: d :: text) (c :: ' ' :: d :: spaced)

/-- What is behind a number of open comments, the innermost closed first. -/
def behindOpen : Nat → List Char → Option (List Char)
  | 0, text => some text
  | _ + 1, [] => none
  | depth + 1, '/' :: '*' :: rest => behindOpen (depth + 2) rest
  | depth + 1, '*' :: '/' :: rest => behindOpen depth rest
  | depth + 1, _ :: rest => behindOpen (depth + 1) rest

/-- What is behind the comment that a text starts with, comments inside of it included. -/
def behind? : List Char → Option (List Char)
  | '/' :: '*' :: rest => behindOpen 1 rest
  | _ => none

example : behind? "/* a /* b */ c */ d".toList = some " d".toList := by decide

/-! ### Characters side by side -/

section

variable {first second : Char} {text : List Char}

/-- The first character stays the first. -/
theorem head?_separate (first second : Char) (text : List Char) :
    (separate first second text).head? = text.head? := by
  fun_cases separate first second text <;> rfl

/-- A walk leaves no two characters together that it is to separate. -/
theorem isChain_separate (hne : first ≠ second) (hfirst : first ≠ ' ') (hsecond : second ≠ ' ')
    (text : List Char) :
    (separate first second text).IsChain fun c d => ¬ (c = first ∧ d = second) := by
  fun_induction separate first second text with
  | case1 c d rest hpair ih =>
    obtain ⟨rfl, rfl⟩ : c = first ∧ d = second := by simpa using hpair
    -- The second character of the pair is not the first one of another.
    refine .cons_cons (fun h => hsecond h.2.symm) (.cons_cons (fun h => hfirst h.1.symm) ?_)
    exact ih.cons fun _ _ h => hne h.1.symm
  | case2 c d rest hpair ih =>
    refine ih.cons fun e he h => hpair ?_
    rw [head?_separate] at he
    cases Option.some.inj he
    simpa using h
  | case3 text hshort =>
    match text with
    | [] => exact .nil
    | [c] => exact .singleton c
    | c :: d :: rest => exact absurd rfl (hshort c d rest)

/-- Characters that may stand side by side do so behind a walk as well, if spaces may stand
anywhere. -/
theorem isChain_separate_of_isChain {R : Char → Char → Prop} (h : text.IsChain R)
    (hbefore : ∀ c, R c ' ') (hbehind : ∀ c, R ' ' c) (first second : Char) :
    (separate first second text).IsChain R := by
  fun_induction separate first second text with
  | case1 c d rest hpair ih =>
    obtain ⟨hhead, hrest⟩ := List.isChain_cons.mp (List.isChain_cons_cons.mp h).2
    refine .cons_cons (hbefore c) (.cons_cons (hbehind d) ((ih hrest).cons fun e he => ?_))
    rw [head?_separate] at he
    exact hhead e he
  | case2 c d rest hpair ih =>
    obtain ⟨hcd, hrest⟩ := List.isChain_cons_cons.mp h
    refine (ih hrest).cons fun e he => ?_
    rw [head?_separate] at he
    cases Option.some.inj he
    exact hcd
  | case3 => exact h

end

/-- In a text without delimiters, no two characters that stand side by side are one. -/
def IsPlain (text : List Char) : Prop :=
  text.IsChain fun c d => ¬ Delimits c d

/-- A text that is made harmless has no delimiters. -/
theorem isPlain_defuse (text : List Char) : IsPlain (defuse text) := by
  have hopening : (defuse text).IsChain fun c d => ¬ (c = '/' ∧ d = '*') :=
    isChain_separate_of_isChain (isChain_separate (by decide) (by decide) (by decide) text)
      (fun _ h => by cases h.2) (fun _ h => by cases h.1) '*' '/'
  have hclosing : (defuse text).IsChain fun c d => ¬ (c = '*' ∧ d = '/') :=
    isChain_separate (by decide) (by decide) (by decide) _
  rw [List.isChain_iff_forall_rel_of_append_cons_cons] at hopening hclosing
  exact List.isChain_iff_forall_rel_of_append_cons_cons.mpr fun c d front behind htext =>
    not_or.mpr ⟨hopening htext, hclosing htext⟩

/-! ### Spaces between them -/

/-- Spaces between delimiters leave the first character. -/
theorem Spaced.head?_eq {text spaced : List Char} (h : Spaced text spaced) :
    spaced.head? = text.head? := by
  cases h <;> rfl

/-- A walk over a text puts spaces between delimiters only. -/
theorem spaced_separate {first second : Char} (hdelimits : Delimits first second)
    (text : List Char) : Spaced text (separate first second text) := by
  fun_induction separate first second text with
  | case1 c d rest hpair ih =>
    obtain ⟨rfl, rfl⟩ : c = first ∧ d = second := by simpa using hpair
    exact .space hdelimits ih.keep
  | case2 c d rest hpair ih => exact ih.keep
  | case3 text hshort =>
    induction text with
    | nil => exact .nil
    | cons c rest ih =>
      cases rest with
      | nil => exact .keep .nil
      | cons d rest => exact absurd rfl (hshort c d rest)

/-- Where one walk puts a space, no other one does, so two walks are like one. -/
theorem Spaced.trans {text between spaced : List Char} (h : Spaced text between)
    (h' : Spaced between spaced) : Spaced text spaced := by
  induction h generalizing spaced with
  | nil => exact h'
  | @keep c text between hrest ih =>
    cases h' with
    | keep h' => exact (ih h').keep
    | @space _ d between spaced hdelimits h' =>
      obtain ⟨text, rfl⟩ := List.head?_eq_some_iff.mp hrest.head?_eq.symm
      exact .space hdelimits (ih h')
  | @space c d text between hdelimits hrest ih =>
    cases h' with
    | keep h' =>
      cases h' with
      | @keep _ _ spaced h' =>
        obtain ⟨spaced, rfl⟩ := List.head?_eq_some_iff.mp h'.head?_eq
        exact .space hdelimits (ih h')
      | space hspace => rcases hspace with ⟨h, -⟩ | ⟨h, -⟩ <;> cases h
    | space hspace => rcases hspace with ⟨-, h⟩ | ⟨-, h⟩ <;> cases h

/-- Both walks over a text put spaces between delimiters only. -/
theorem spaced_defuse (text : List Char) : Spaced text (defuse text) :=
  (spaced_separate (.inl ⟨rfl, rfl⟩) text).trans (spaced_separate (.inr ⟨rfl, rfl⟩) _)

/-! ### The end of a comment -/

/-- A character that starts no delimiter is passed over. -/
theorem behindOpen_cons {c : Char} {rest : List Char} (h : ∀ d ∈ rest.head?, ¬ Delimits c d)
    (depth : Nat) : behindOpen (depth + 1) (c :: rest) = behindOpen (depth + 1) rest := by
  rw [behindOpen]
  · rintro more rfl rfl
    exact h '*' rfl (.inl ⟨rfl, rfl⟩)
  · rintro more rfl rfl
    exact h '/' rfl (.inr ⟨rfl, rfl⟩)

/-- A space is no part of a delimiter. -/
theorem not_delimits_space (c : Char) : ¬ Delimits c ' ' ∧ ¬ Delimits ' ' c := by
  simp [Delimits]

/-- A text without delimiters is passed over, and the space behind it. -/
theorem behindOpen_append {text : List Char} (h : IsPlain text) (depth : Nat) (rest : List Char) :
    behindOpen (depth + 1) (text ++ ' ' :: rest) = behindOpen (depth + 1) rest := by
  induction text with
  | nil => exact behindOpen_cons (fun d _ => (not_delimits_space d).2) depth
  | cons c text ih =>
    obtain ⟨hhead, htext⟩ := List.isChain_cons.mp h
    rw [List.cons_append, behindOpen_cons, ih htext]
    intro d hd
    cases text with
    | nil =>
      cases Option.some.inj hd
      exact (not_delimits_space c).1
    | cons => exact hhead d hd

/-! ### What is written -/

/-- What is written, between what the comment starts and ends with. -/
def framed (front text behind : List Char) : List Char :=
  front ++ ' ' :: ("???".toList ++ ' ' :: (defuse text ++ ' ' :: behind))

/-- A comment is written between a slash and a star at both ends. -/
theorem toList_display (text : String) :
    (display text).toList = framed ['/', '*'] text.toList ['*', '/'] := by
  simp [display, framed]

/-- Of two texts with a space between them, it is enough to look at each. -/
theorem isChain_space {R : Char → Char → Prop} (hspace : ∀ c, R c ' ' ∧ R ' ' c)
    {front behind : List Char} (h : front.IsChain R) (h' : behind.IsChain R) :
    (front ++ ' ' :: behind).IsChain R := by
  refine h.append (h'.cons fun c _ => (hspace c).2) fun c _ d hd => ?_
  cases Option.some.inj hd
  exact (hspace c).1

/-- The text itself makes no delimiter, nor does it with what is around it. -/
theorem isChain_framed {R : Char → Char → Prop} (hR : ∀ c d, ¬ Delimits c d → R c d)
    {front behind : List Char} (h : front.IsChain R) (text : List Char) (h' : behind.IsChain R) :
    (framed front text behind).IsChain R := by
  have hspace (c : Char) : R c ' ' ∧ R ' ' c :=
    (not_delimits_space c).imp (hR _ _) (hR _ _)
  have hmarks : IsPlain "???".toList := by
    show List.IsChain _ ['?', '?', '?']
    simp [Delimits]
  exact isChain_space hspace h (isChain_space hspace (hmarks.imp hR)
    (isChain_space hspace ((isPlain_defuse text).imp hR) h'))

/-- The delimiter that opens is only at the start. -/
theorem eq_nil_of_opens {text front behind : List Char}
    (h : framed ['/', '*'] text ['*', '/'] = front ++ '/' :: '*' :: behind) : front = [] := by
  cases front with
  | nil => rfl
  | cons c front =>
    have htail : framed ['*'] text ['*', '/'] = front ++ '/' :: '*' :: behind :=
      (List.cons.inj h).2
    have hchain : (framed ['*'] text ['*', '/']).IsChain fun c d => ¬ (c = '/' ∧ d = '*') :=
      isChain_framed (fun _ _ h => fun hpair => h (.inl hpair)) (.singleton _) text (by simp)
    exact absurd ⟨rfl, rfl⟩ (List.isChain_iff_forall_rel_of_append_cons_cons.mp hchain htail)

/-- The delimiter that closes is only at the end. -/
theorem eq_nil_of_closes {text front behind : List Char}
    (h : framed ['/', '*'] text ['*', '/'] = front ++ '*' :: '/' :: behind) : behind = [] := by
  rcases List.eq_nil_or_concat behind with rfl | ⟨behind, last, rfl⟩
  · rfl
  · have hlast : framed ['/', '*'] text ['*'] ++ ['/']
        = front ++ '*' :: '/' :: behind ++ [last] := by
      simpa [framed] using h
    have hinit := (List.append_inj' hlast rfl).1
    have hchain : (framed ['/', '*'] text ['*']).IsChain fun c d => ¬ (c = '*' ∧ d = '/') :=
      isChain_framed (fun _ _ h => fun hpair => h (.inr hpair)) (by simp) text (.singleton _)
    exact absurd ⟨rfl, rfl⟩ (List.isChain_iff_forall_rel_of_append_cons_cons.mp hchain hinit)

/-- The comment ends where what is written does. -/
theorem behind?_framed (text behind : List Char) :
    behind? (framed ['/', '*'] text ['*', '/'] ++ behind) = some behind := by
  have hmarks : IsPlain ['?', '?', '?'] := by simp [IsPlain, Delimits]
  calc behind? (framed ['/', '*'] text ['*', '/'] ++ behind)
    _ = behindOpen 1 ([] ++ ' ' :: (['?', '?', '?'] ++ ' ' ::
          (defuse text ++ ' ' :: '*' :: '/' :: behind))) := by
      simp [framed, behind?]
    _ = behindOpen 1 ('*' :: '/' :: behind) := by
      rw [behindOpen_append .nil, behindOpen_append hmarks, behindOpen_append (isPlain_defuse text)]
    _ = some behind := by rw [behindOpen, behindOpen]

end Comment

/-- A placeholder is a line with one comment. The delimiters are where it starts and where it ends,
and nowhere else, so it ends there whatever comes behind it. It holds the text with spaces only
between characters that delimit a comment. -/
theorem comment_enclosed (text : String) (page : Page) : ∃ inside,
    ((Definition.comment text).write page).text
        = page.text ++ page.margin ++ Comment.display text ++ "\n"
      ∧ Comment.display text = "/* ??? " ++ String.ofList inside ++ " */"
      ∧ Comment.Spaced text.toList inside
      ∧ (∀ front behind,
        (Comment.display text).toList = front ++ '/' :: '*' :: behind → front = [])
      ∧ (∀ front behind,
        (Comment.display text).toList = front ++ '*' :: '/' :: behind → behind = [])
      ∧ ∀ behind, Comment.behind? ((Comment.display text).toList ++ behind) = some behind := by
  refine ⟨Comment.defuse text.toList, rfl, rfl, Comment.spaced_defuse _, ?_, ?_, ?_⟩
  all_goals rw [Comment.toList_display]
  · exact fun _ _ => Comment.eq_nil_of_opens
  · exact fun _ _ => Comment.eq_nil_of_closes
  · exact Comment.behind?_framed _

end Facade
