import Facade.CommandLine.Arguments
import Facade.CommandLine.Files
import Facade.Definition.Margin
import Facade.Report
import Facade.Settings.Basic
import Facade.Translation.Text

/-!
# A run of the command line

A run is a function of its arguments and of the world around it. Its `Outcome` holds everything that
it does: the exit code, what it prints, and the one file that it writes, if any. Every setting comes
from the arguments if they give it, else from the settings file, else from the defaults.

A run fails with code 2 if the arguments cannot be understood, and with code 1 if anything that it
needs is not as it should be. It breaks off with code 101 if a margin of the facade is wider than
the machinery of output can write. A run that fails has neither printed a facade nor written a file.
-/

set_option autoImplicit false

namespace Facade.CommandLine

/-- The name and the version of the program. -/
def versionText : String := "ts-importer 0.1.0\n"

/-- What the program says about its arguments. -/
def helpText : String :=
  Text.joined "\n"
    ["Import TypeScript declaration files as Scala.js facades",
     "",
     "Usage: ts-importer [OPTIONS] <INPUT>",
     "",
     "Arguments:",
     "  <INPUT>  Declaration file to import (.d.ts)",
     "",
     "Options:",
     "  -o, --output <OUTPUT>    Write the Scala source here instead of stdout",
     "  -p, --package <PACKAGE>  Dotted package for the generated declarations "
       ++ "(default: config, then `importedjs`)",
     "      --config <CONFIG>    Config file "
       ++ "(default: ts-importer.toml in the current directory, if present)",
     "      --no-header          Omit the `import scala.scalajs.js` header",
     "      --indent <INDENT>    Spaces per indentation level",
     "  -d, --debug              Enable verbose debug logging (or set TS_IMPORTER_LOG)",
     "  -q, --quiet              Suppress warnings",
     "  -h, --help               Print help",
     "  -V, --version            Print version",
     ""]

/-- The settings file that is read when no other is named, if it is there. -/
def settingsPath : String := "ts-importer.toml"

/-- Everything that a run does. -/
structure Outcome where
  exit : Nat
  stdout : String
  stderr : String
  written : Option (String × String)
deriving DecidableEq

/-- Why a run fails, once its arguments are understood. -/
inductive Failure where
  | settingsUnreadable (path : String) (fault : FileFault)
  | settingsInvalid (path : String)
  | inputUnreadable (path : String) (fault : FileFault)
  | syntaxError (file : SourceFile) (error : SyntaxError)
  /-- The run breaks off while the facade is written out. -/
  | marginTooWide
  | outputUnwritable (path : String) (fault : FileFault)

/-- A failure as it is printed. The reason why the settings cannot be read is given twice, as part
of the failure and as its cause. -/
def Failure.report : Failure → String
  | .settingsUnreadable path fault =>
    "error: failed to read " ++ path ++ ": " ++ fault.message ++ ": " ++ fault.message ++ "\n"
  | .settingsInvalid path => "error: invalid config " ++ path ++ "\n"
  | .inputUnreadable path fault =>
    "error: failed to read " ++ path ++ ": " ++ fault.message ++ "\n"
  | .syntaxError file error => error.report file
  | .marginTooWide => "Formatting argument out of range\n"
  | .outputUnwritable path fault =>
    "error: failed to write " ++ path ++ ": " ++ fault.message ++ "\n"

/-- The exit code of a failure. -/
def Failure.exit : Failure → Nat
  | .marginTooWide => 101
  | _ => 1

/-- Reads a settings file. -/
def readSettings (world : World) (path : String) : Except Failure Settings :=
  match world.read path with
  | .error fault => .error (.settingsUnreadable path fault)
  | .ok text =>
    match Settings.ofText? text with
    | none => .error (.settingsInvalid path)
    | some settings => .ok settings

/-- The settings of a run. -/
def settings (world : World) (options : Options) : Except Failure Settings :=
  match options.config with
  | some path => readSettings world path
  -- Only the file that nobody asked for may be missing.
  | none => if world.has settingsPath then readSettings world settingsPath else .ok .none

/-- The package that the facade of a run goes into. -/
def packageOf (options : Options) (settings : Settings) : DottedName :=
  .ofText (options.package.getD settings.packageName)

/-- How the facade of a run is laid out. -/
def layoutOf (options : Options) (settings : Settings) : Layout :=
  ⟨options.indent.getD settings.layout.indent, !options.noHeader && settings.layout.header⟩

/-- The translation of the input of a run. -/
def translation (world : World) (options : Options) (input : String) :
    Except Failure Translation := do
  -- Settings that cannot be read are reported even if the input cannot be read either.
  let settings ← settings world options
  match world.read input with
  | .error fault => .error (.inputUnreadable input fault)
  | .ok text =>
    match Document.ofText text with
    | .error error => .error (.syntaxError ⟨input, text⟩ error)
    | .ok document =>
      let path := packageOf options settings
      let layout := layoutOf options settings
      if (document.toPackage path).value.fits layout then .ok (document.translate path layout)
      else .error .marginTooWide

/-- What a run says about losses: those with a place in the input first. -/
def warnings (world : World) (options : Options) (input : String) (translation : Translation) :
    String :=
  if options.quiet then ""
  else
    let file : SourceFile := ⟨input, (world.read input).toOption.getD ""⟩
    Text.joined "" (translation.reports file)

/-- A run that was asked for a translation. -/
def runTranslation (world : World) (options : Options) (input : String) : Outcome :=
  match translation world options input with
  | .error failure => ⟨failure.exit, "", failure.report, none⟩
  | .ok translation =>
    let warnings := warnings world options input translation
    match options.output with
    | none => ⟨0, translation.code, warnings, none⟩
    | some path =>
      -- The warnings are printed before anything is written.
      match world.refusesWriting path with
      | some fault => ⟨1, "", warnings ++ (Failure.outputUnwritable path fault).report, none⟩
      | none => ⟨0, "", warnings, some (path, translation.code)⟩

/-- A run. -/
def run (world : World) (arguments : List String) : Outcome :=
  match read arguments with
  | .error error => ⟨2, "", "error: " ++ error.message ++ "\n", none⟩
  | .ok .help => ⟨0, helpText, "", none⟩
  | .ok .version => ⟨0, versionText, "", none⟩
  | .ok (.translate options input) => runTranslation world options input

/-- The paths that a run may read. -/
def pathsRead (arguments : List String) : List String :=
  match read arguments with
  | .ok (.translate options input) => [options.config.getD settingsPath, input]
  | _ => []

/-- A run in a directory. What it writes to a device of output shows there. -/
def Files.run (files : Files) (arguments : List String) : Outcome :=
  let outcome := CommandLine.run files.world arguments
  match outcome.written with
  | none => outcome
  | some (path, text) =>
    match files.deviceAt path with
    | some .output => { outcome with stdout := outcome.stdout ++ text }
    | some .error => { outcome with stderr := outcome.stderr ++ text }
    | _ => outcome

/-- The files after a run in a directory. -/
def Files.afterRun (files : Files) (arguments : List String) : Files :=
  match (CommandLine.run files.world arguments).written with
  | none => files
  | some (path, text) => files.put path text

end Facade.CommandLine
