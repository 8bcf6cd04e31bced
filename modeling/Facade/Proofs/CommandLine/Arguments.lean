import Facade.CommandLine.Arguments

/-!
# Arguments that ask for quiet

The option that keeps warnings back has no part in how the other arguments are read. Reading
arguments behind it gives what reading them alone gives, with the option set, unless they set it
themselves: then it is given twice. `read_quiet_cons` says this of whole command lines, and
`Follows` of each step on the way there.
-/

set_option autoImplicit false

namespace Facade.CommandLine

/-- What arguments say, and that warnings are kept back. -/
def Options.quieted (options : Options) : Options := { options with quiet := true }

/-- The same request, without the warnings of a translation. -/
def Request.quieted : Request → Request
  | .translate options input => .translate options.quieted input
  | request => request

/-- What was read of the arguments so far, and that warnings are kept back. -/
def State.quieted : State → State
  | .reading options waiting => .reading options.quieted waiting
  | .asked request => .asked request.quieted

/-- A second reading that finds what a first one finds, but for the option, or finds the option
repeated. -/
def Follows {α : Type} (quieted : α → α) (first second : Except UsageError α) : Prop :=
  second = first.map quieted ∨ second = .error .repeatedOption

namespace Follows

variable {α β γ : Type} {quieted : α → α} {quieted' : β → β}

/-- What is found again follows. -/
theorem ok (a : α) : Follows quieted (.ok a) (.ok (quieted a)) := .inl rfl

/-- An error that is found again follows. -/
theorem error (e : UsageError) : Follows quieted (.error e) (.error e) := .inl rfl

/-- Both readings go on from what they found. -/
theorem bind {first second : Except UsageError α} {f g : α → Except UsageError β}
    (h : Follows quieted first second) (hf : ∀ a, Follows quieted' (f a) (g (quieted a))) :
    Follows quieted' (first >>= f) (second >>= g) := by
  rcases h with rfl | rfl
  · cases first with
    | error e => exact error e
    | ok a => exact hf a
  · exact .inr rfl

/-- Both readings go on from the same. -/
theorem both (shared : Except UsageError γ) {f g : γ → Except UsageError β}
    (hf : ∀ c, Follows quieted' (f c) (g c)) :
    Follows quieted' (shared >>= f) (shared >>= g) := by
  cases shared with
  | error e => exact error e
  | ok c => exact hf c

/-- A choice follows if both of its branches do. -/
theorem ite {condition : Prop} [Decidable condition]
    {first second first' second' : Except UsageError α} (hthen : Follows quieted first second)
    (helse : Follows quieted first' second') :
    Follows quieted (if condition then first else first')
      (if condition then second else second') := by
  split
  · exact hthen
  · exact helse

end Follows

/-! ### Steps -/

/-- To set the value of an option follows. -/
theorem setValue_quieted (options : Options) (option : ValueOption) (text : String) :
    Follows Options.quieted (options.setValue option text)
      (options.quieted.setValue option text) := by
  cases option with
  | output => exact .both (path text) fun text => .both (setOnce options.output text) fun _ => .ok _
  | package => exact .both (setOnce options.package text) fun _ => .ok _
  | config => exact .both (path text) fun text => .both (setOnce options.config text) fun _ => .ok _
  | indent =>
    rw [Options.setValue, Options.setValue]
    cases count? text with
    | none => exact .error _
    | some n => exact .both (setOnce options.indent n) fun _ => .ok _

/-- So does to set the input. -/
theorem setInput_quieted (options : Options) (text : String) :
    Follows Options.quieted (options.setInput text) (options.quieted.setInput text) :=
  .ite (.error _) (.both (path text) fun _ => .ok _)

/-- So does to turn on a switch, which may be the one for quiet. -/
theorem switch_quieted (options : Options) (option : Switch) :
    Follows State.quieted (State.switch options option) (State.switch options.quieted option) := by
  cases option with
  | noHeader => exact .both (switchOnce options.noHeader) fun _ => .ok _
  | debug => exact .both (switchOnce options.debug) fun _ => .ok _
  -- The second reading has the option already.
  | quiet => exact .inr rfl
  | help => exact .ok _
  | version => exact .ok _

/-- So does to read a long option. -/
theorem readLong_quieted (options : Options) (word : List Char) :
    Follows State.quieted (readLong options word) (readLong options.quieted word) := by
  unfold readLong
  obtain ⟨name, attached⟩ := splitEquals word
  cases hname : longOption? name with
  | none => simpa only [hname] using .error _
  | some option =>
    cases option with
    | value option =>
      cases attached with
      | none => simpa only [hname] using .ok (State.reading options (some option))
      | some text =>
        simpa only [hname] using
          (setValue_quieted options option text).bind fun _ => .ok (State.reading _ .none)
    | switch option =>
      cases attached with
      | none => simpa only [hname] using switch_quieted options option
      | some text => simpa only [hname] using .error _

/-- So does to read short options in one word. -/
theorem readShort_quieted (options : Options) (letters : List Char) :
    Follows State.quieted (readShort options letters) (readShort options.quieted letters) := by
  induction letters generalizing options with
  | nil => exact .ok _
  | cons letter rest ih =>
    rw [readShort, readShort]
    cases shortOption? letter with
    | none => exact .error _
    | some name =>
      cases name with
      | value option =>
        have hvalue (text : String) : Follows State.quieted
            (options.setValue option text >>= fun options => .ok (.reading options .none))
            (options.quieted.setValue option text >>= fun options =>
              .ok (.reading options .none)) :=
          (setValue_quieted options option text).bind fun _ => .ok _
        dsimp only
        split
        · exact .ok _
        · exact hvalue _
        · exact hvalue _
      | switch option =>
        refine (switch_quieted options option).bind fun state => ?_
        cases state with
        | reading options waiting => exact ih options
        | asked request => exact .ok _

/-- So does to read the words behind the options. -/
theorem readInputs_quieted (options : Options) (words : List String) :
    Follows Options.quieted (readInputs options words) (readInputs options.quieted words) := by
  induction words generalizing options with
  | nil => exact .ok _
  | cons text rest ih => exact (setInput_quieted options text).bind ih

/-- So does to finish. -/
theorem finish_quieted (options : Options) :
    Follows Request.quieted (finish options) (finish options.quieted) := by
  unfold finish
  -- The option says nothing about the input, which alone decides here.
  have hinput : options.quieted.input = options.input := rfl
  rw [hinput]
  cases options.input with
  | none => exact .error _
  | some input => exact .ok _

/-- So does to read all arguments that are left. -/
theorem readFrom_quieted (options : Options) (waiting : Option ValueOption)
    (words : List String) :
    Follows Request.quieted (readFrom options waiting words)
      (readFrom options.quieted waiting words) := by
  induction words generalizing options waiting with
  | nil =>
    rw [readFrom, readFrom]
    exact .ite (.error _) (finish_quieted options)
  | cons word rest ih =>
    -- Behind an option, both readings are in the same state, but for the option.
    have hstate (state : State) :
        Follows Request.quieted
          (match state with
            | .reading options waiting => readFrom options waiting rest
            | .asked request => .ok request)
          (match state.quieted with
            | .reading options waiting => readFrom options waiting rest
            | .asked request => .ok request) := by
      cases state with
      | reading options waiting => exact ih options waiting
      | asked request => exact .ok _
    unfold readFrom
    split
    · exact .ite (.error _) ((readInputs_quieted options rest).bind finish_quieted)
    · exact .ite (.error _) ((readLong_quieted options _).bind hstate)
    · exact .ite (.error _) ((readShort_quieted options _).bind hstate)
    · cases waiting with
      | none => exact (setInput_quieted options word).bind fun options => ih options .none
      | some option =>
        exact (setValue_quieted options option word).bind fun options => ih options .none

/-- Arguments behind the option ask for what they ask for without it, unless they give it again. -/
theorem read_quiet_cons {word : String} (hword : word = "-q" ∨ word = "--quiet")
    (arguments : List String) :
    Follows Request.quieted (read arguments) (read (word :: arguments)) := by
  have hread : read (word :: arguments) = readFrom Options.none.quieted .none arguments := by
    rcases hword with rfl | rfl <;> rfl
  rw [hread]
  exact readFrom_quieted .none .none arguments

end Facade.CommandLine
