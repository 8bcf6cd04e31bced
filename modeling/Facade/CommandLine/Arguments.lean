/-!
# Arguments of a command line

Arguments are taken from left to right. A word that starts with two dashes names an option, one that
starts with a single dash is a run of letters that each name one, and any other word is the value
of the option before it, or else the input. Behind a lone `--` every word is an input. An option
that takes a value finds it behind an equals sign, behind its letter, or in the next word, but never
in a word that names an option itself.

No option may be given twice, and there is exactly one input. The first word that asks for help or
for the version wins over everything behind it, and over a missing input, but not over a fault
before it: `Arguments.read` therefore answers with a `Request`, or with the first `UsageError`.
-/

set_option autoImplicit false

namespace Facade.CommandLine

/-- The options that take a value. -/
inductive ValueOption where
  | output
  | package
  | config
  | indent
deriving DecidableEq

/-- The options that take none. -/
inductive Switch where
  | noHeader
  | debug
  | quiet
  | help
  | version
deriving DecidableEq

/-- What an option is called by. -/
inductive OptionName where
  | value (option : ValueOption)
  | switch (option : Switch)
deriving DecidableEq

/-- The option with a long name. -/
def longOption? : String → Option OptionName
  | "output" => some (.value .output)
  | "package" => some (.value .package)
  | "config" => some (.value .config)
  | "indent" => some (.value .indent)
  | "no-header" => some (.switch .noHeader)
  | "debug" => some (.switch .debug)
  | "quiet" => some (.switch .quiet)
  | "help" => some (.switch .help)
  | "version" => some (.switch .version)
  | _ => none

/-- The option with a letter. -/
def shortOption? : Char → Option OptionName
  | 'o' => some (.value .output)
  | 'p' => some (.value .package)
  | 'd' => some (.switch .debug)
  | 'q' => some (.switch .quiet)
  | 'h' => some (.switch .help)
  | 'V' => some (.switch .version)
  | _ => none

/-- Why a command line cannot be understood. -/
inductive UsageError where
  | unknownOption (text : String)
  | repeatedOption
  | missingValue
  | emptyValue
  | unexpectedValue
  | badNumber (text : String)
  | extraInput (text : String)
  | missingInput
deriving DecidableEq

/-- A fault of the command line in words. -/
def UsageError.message : UsageError → String
  | .unknownOption text => "unexpected argument '" ++ text ++ "' found"
  | .repeatedOption => "an option cannot be used multiple times"
  | .missingValue => "a value is required for an option but none was supplied"
  | .emptyValue => "a value is required but an empty one was supplied"
  | .unexpectedValue => "unexpected value for an option found; no more were expected"
  | .badNumber text => "invalid value '" ++ text ++ "' for '--indent <INDENT>'"
  | .extraInput text => "unexpected argument '" ++ text ++ "' found"
  | .missingInput => "the required argument <INPUT> was not provided"

/-- What the arguments read so far say. -/
structure Options where
  input : Option String
  output : Option String
  package : Option String
  config : Option String
  indent : Option Nat
  noHeader : Bool
  debug : Bool
  quiet : Bool
deriving DecidableEq

/-- What no arguments say. -/
def Options.none : Options := ⟨.none, .none, .none, .none, .none, false, false, false⟩

/-- What a command line asks for. -/
inductive Request where
  | help
  | version
  | translate (options : Options) (input : String)
deriving DecidableEq

/-- Counts are below two to the power of 64. -/
def countLimit : Nat := 18446744073709551616

/-- The count that digits stand for, behind a plus sign or not. -/
def count? (text : String) : Option Nat :=
  let digits :=
    match text.toList with
    | '+' :: rest => rest
    | digits => digits
  if digits.isEmpty || !digits.all Char.isDigit then .none
  else
    let n := digits.foldl (fun n c => n * 10 + (c.toNat - '0'.toNat)) 0
    if n < countLimit then some n else .none

/-- Stores what nothing stored before. -/
def setOnce {α : Type} (present : Option α) (value : α) : Except UsageError (Option α) :=
  if present.isSome then .error .repeatedOption else .ok (some value)

/-- Switches on what was off. -/
def switchOnce (present : Bool) : Except UsageError Bool :=
  if present then .error .repeatedOption else .ok true

/-- A path, which cannot be empty. -/
def path (text : String) : Except UsageError String :=
  if text = "" then .error .emptyValue else .ok text

namespace Options

/-- Gives an option its value. -/
def setValue (options : Options) (option : ValueOption) (text : String) :
    Except UsageError Options :=
  match option with
  | .output => do return { options with output := ← setOnce options.output (← path text) }
  | .package => do return { options with package := ← setOnce options.package text }
  | .config => do return { options with config := ← setOnce options.config (← path text) }
  | .indent =>
    -- A bad number is reported even if the option was given before.
    match count? text with
    | some n => do return { options with indent := ← setOnce options.indent n }
    | .none => .error (.badNumber text)

/-- Takes an input. -/
def setInput (options : Options) (text : String) : Except UsageError Options :=
  if options.input.isSome then .error (.extraInput text)
  else do return { options with input := some (← path text) }

end Options

/-- The arguments read so far: what they say, and the option that waits for its value. Reading may
also have come to a word that asks for something else. -/
inductive State where
  | reading (options : Options) (waiting : Option ValueOption)
  | asked (request : Request)

/-- Turns a switch on. -/
def State.switch (options : Options) : Switch → Except UsageError State
  | .noHeader => do
    return .reading { options with noHeader := ← switchOnce options.noHeader } .none
  | .debug => do return .reading { options with debug := ← switchOnce options.debug } .none
  | .quiet => do return .reading { options with quiet := ← switchOnce options.quiet } .none
  | .help => .ok (.asked .help)
  | .version => .ok (.asked .version)

/-- The parts of a word around its first equals sign. -/
def splitEquals (word : List Char) : String × Option String :=
  (String.ofList (word.takeWhile (· ≠ '=')),
    match word.dropWhile (· ≠ '=') with
    | [] => .none
    | _ :: value => some (String.ofList value))

/-- Reads a word behind its two dashes. -/
def readLong (options : Options) (word : List Char) : Except UsageError State :=
  let (name, attached) := splitEquals word
  match longOption? name, attached with
  | .none, _ => .error (.unknownOption ("--" ++ name))
  | some (.value option), some text => do return .reading (← options.setValue option text) .none
  | some (.value option), .none => .ok (.reading options (some option))
  | some (.switch _), some _ => .error .unexpectedValue
  | some (.switch option), .none => State.switch options option

/-- Reads a run of letters behind its dash. -/
def readShort (options : Options) : List Char → Except UsageError State
  | [] => .ok (.reading options .none)
  | letter :: rest =>
    match shortOption? letter with
    | .none => .error (.unknownOption ("-" ++ String.singleton letter))
    | some (.value option) =>
      match rest with
      | [] => .ok (.reading options (some option))
      | '=' :: text => do
        return .reading (← options.setValue option (String.ofList text)) .none
      | text => do return .reading (← options.setValue option (String.ofList text)) .none
    | some (.switch option) => do
      match ← State.switch options option with
      | .reading options _ => readShort options rest
      | asked => return asked

/-- Reads inputs to the end. -/
def readInputs (options : Options) : List String → Except UsageError Options
  | [] => .ok options
  | text :: rest => do readInputs (← options.setInput text) rest

/-- What the arguments ask for when none is left. -/
def finish (options : Options) : Except UsageError Request :=
  match options.input with
  | some input => .ok (.translate options input)
  | .none => .error .missingInput

/-- Reads arguments to the end. An option that waits for its value gets the next word, unless that
names an option or ends the options. -/
def readFrom (options : Options) (waiting : Option ValueOption) :
    List String → Except UsageError Request
  | [] => if waiting.isSome then .error .missingValue else finish options
  | word :: rest =>
    match word.toList with
    | ['-', '-'] => do
      if waiting.isSome then .error .missingValue
      else finish (← readInputs options rest)
    | '-' :: '-' :: name => do
      if waiting.isSome then .error .missingValue
      else
        match ← readLong options name with
        | .reading options waiting => readFrom options waiting rest
        | .asked request => return request
    | '-' :: letter :: letters => do
      if waiting.isSome then .error .missingValue
      else
        match ← readShort options (letter :: letters) with
        | .reading options waiting => readFrom options waiting rest
        | .asked request => return request
    -- A word without a dash in front, or a lone dash.
    | _ => do
      match waiting with
      | some option => readFrom (← options.setValue option word) .none rest
      | .none => readFrom (← options.setInput word) .none rest

/-- Reads the arguments of a command line. -/
def read (arguments : List String) : Except UsageError Request :=
  readFrom .none .none arguments

end Facade.CommandLine
