import Facade.CommandLine.Run
import Facade.Proofs.CommandLine.Arguments
import Facade.Proofs.CommandLine.Files
import Facade.Proofs.Definition.Margin

/-!
# A run does all of its work or nothing

A run that is asked for a translation has a `Job`: what its arguments say, what its settings say,
and the document in its input. `Job.Ready` lists what has to hold of the world for the job to be
done, from the arguments to the output. `fails_or_ready` is the dichotomy that everything here rests
on: either the run fails, and has then printed no facade and written no file, or its job is ready,
and `Job.Ready.delivers` says what it does.

`Job.package` and `Job.layout` take every value from the arguments if they give it, else from the
settings, else from the defaults. One condition is about the machinery of output: the margins of the
facade must not be wider than it can write.
-/

set_option autoImplicit false

namespace Facade.CommandLine

/-! ### What a run works on -/

/-- What a run works on: what its arguments and its settings say, the text of its input, and the
document that the text is read as. -/
structure Job where
  options : Options
  input : String
  settings : Settings
  text : String
  document : Document

namespace Job

/-- The package of the facade. -/
def package (job : Job) : DottedName :=
  .ofText ((job.options.package <|> job.settings.package).getD "importedjs")

/-- The layout of the facade. The arguments can only keep the imports away. -/
def layout (job : Job) : Layout where
  indent := (job.options.indent <|> job.settings.indent).getD 2
  header := !job.options.noHeader && job.settings.header.getD true

/-- The rows of the facade. -/
def rows (job : Job) : List Row :=
  (job.document.toPackage job.package).value.rows job.layout.header

/-- The facade as text, with what was lost on the way. -/
def translation (job : Job) : Translation :=
  job.document.translate job.package job.layout

/-- What the job has to say of losses. -/
def said (job : Job) : String :=
  Text.joined "" (job.translation.reports ⟨job.input, job.text⟩)

end Job

/-- A file can be read, and says what the settings say. -/
def Holds (world : World) (path : String) (settings : Settings) : Prop :=
  ∃ text, world.read path = .ok text ∧ Settings.ofText? text = some settings

/-- The settings of a run: those of the file that is named, else of the one that is there, else
none. -/
def Loads (world : World) (options : Options) (settings : Settings) : Prop :=
  match options.config with
  | some path => Holds world path settings
  | none => if world.has settingsPath then Holds world settingsPath settings else settings = .none

/-- The settings load, and the input can be read, parses, and can be written as a facade. -/
structure Job.Found (world : World) (job : Job) : Prop where
  settings : Loads world job.options job.settings
  input : world.read job.input = .ok job.text
  parses : Document.ofText job.text = .ok job.document
  margins : ∀ depth ∈ rowDepths job.rows, depth * job.layout.indent ≤ Layout.widestMargin

/-- Arguments ask for a job that can be done, and its output can be written. -/
structure Job.Ready (world : World) (arguments : List String) (job : Job) : Prop where
  asked : read arguments = .ok (.translate job.options job.input)
  found : job.Found world
  output : ∀ path, job.options.output = some path → world.refusesWriting path = none

/-! ### What a run does -/

/-- The code went to the output if there is one, else it was printed. -/
structure Outcome.Delivers (outcome : Outcome) (output : Option String) (code : String) : Prop where
  exit : outcome.exit = 0
  stdout : outcome.stdout = if output.isNone then code else ""
  written : outcome.written = output.map fun path => (path, code)

/-- Nothing was printed, but for the reason, and nothing was written. -/
structure Outcome.Fails (outcome : Outcome) : Prop where
  exit : outcome.exit ≠ 0
  stdout : outcome.stdout = ""
  written : outcome.written = none

/-- An outcome that differs from another in nothing but in what is said before. -/
structure Outcome.Says (outcome : Outcome) (said : String) (quiet : Outcome) : Prop where
  exit : outcome.exit = quiet.exit
  stdout : outcome.stdout = quiet.stdout
  written : outcome.written = quiet.written
  stderr : outcome.stderr = said ++ quiet.stderr

/-- Arguments that differ from others in nothing but that they ask for quiet. -/
def Quiets (arguments quiet : List String) : Prop :=
  read quiet = (read arguments).map Request.quieted

/-- What is said: the losses of the job, or nothing. -/
def Said (world : World) (arguments : List String) (said : String) : Prop :=
  said = "" ∨ ∃ job : Job, read arguments = .ok (.translate job.options job.input)
    ∧ job.Found world ∧ said = job.said

variable {world : World} {arguments : List String} {options : Options} {input : String} {job : Job}

/-- A flag in front asks for quiet and for nothing else, if it is not there already. -/
theorem quiets_cons {word : String} (hword : word = "-q" ∨ word = "--quiet")
    (honce : read (word :: arguments) ≠ .error .repeatedOption) :
    Quiets arguments (word :: arguments) :=
  (read_quiet_cons hword arguments).resolve_right honce

/-- The settings that are read from a file are what the file says. -/
theorem readSettings_eq_ok_iff {path : String} {settings : Settings} :
    readSettings world path = .ok settings ↔ Holds world path settings := by
  rw [readSettings, Holds]
  cases hread : world.read path with
  | error fault => simp
  | ok text => cases hsettings : Settings.ofText? text <;> simp [hsettings]

/-- The settings of a run are those that load. -/
theorem settings_eq_ok_iff {settings : Settings} :
    CommandLine.settings world options = .ok settings ↔ Loads world options settings := by
  rw [CommandLine.settings, Loads]
  cases options.config with
  | some path => exact readSettings_eq_ok_iff
  | none =>
    cases world.has settingsPath with
    | true => exact readSettings_eq_ok_iff
    | false => simp [eq_comm]

/-- The package that a run takes is that of its job. -/
theorem packageOf_job (job : Job) : packageOf job.options job.settings = job.package := by
  rw [packageOf, Job.package]
  cases job.options.package <;> rfl

/-- So is the layout. -/
theorem layoutOf_job (job : Job) : layoutOf job.options job.settings = job.layout := by
  rw [layoutOf, Job.layout]
  cases job.options.indent <;> rfl

/-- A facade is made exactly from what is found. -/
theorem translation_eq_ok_iff {translation : Translation} :
    CommandLine.translation world options input = .ok translation
      ↔ ∃ job : Job, job.options = options ∧ job.input = input ∧ job.Found world
          ∧ job.translation = translation := by
  constructor
  · intro h
    rw [CommandLine.translation] at h
    -- Settings, input, document and margins: whatever is missing, there is no translation.
    cases hsettings : CommandLine.settings world options with
    | error failure => simp [hsettings, bind, Except.bind] at h
    | ok settings =>
      simp only [hsettings, bind, Except.bind] at h
      cases hread : world.read input with
      | error fault => simp [hread] at h
      | ok text =>
        simp only [hread] at h
        cases hparses : Document.ofText text with
        | error error => simp [hparses] at h
        | ok document =>
          simp only [hparses] at h
          let job : Job := ⟨options, input, settings, text, document⟩
          have hpackage : packageOf options settings = job.package := packageOf_job job
          have hlayout : layoutOf options settings = job.layout := layoutOf_job job
          rw [hpackage, hlayout] at h
          split at h
          · rename_i hfits
            exact ⟨job, rfl, rfl, ⟨settings_eq_ok_iff.mp hsettings, hread, hparses,
              (Package.fits_iff _ _).mp hfits⟩, Except.ok.inj h⟩
          · simp at h
  · rintro ⟨job, rfl, rfl, hfound, rfl⟩
    have hfits := (Package.fits_iff _ _).mpr hfound.margins
    rw [CommandLine.translation, settings_eq_ok_iff.mpr hfound.settings]
    simp only [bind, Except.bind, hfound.input, hfound.parses, packageOf_job, layoutOf_job]
    rw [if_pos hfits, Job.translation]

/-! ### The end of a run -/

/-- What becomes of a facade: its code is printed or written, and something is said before. -/
def concluded (world : World) (output : Option String) (code said : String) : Outcome :=
  match output with
  | none => ⟨0, code, said, none⟩
  | some path =>
    match world.refusesWriting path with
    | some fault => ⟨1, "", said ++ (Failure.outputUnwritable path fault).report, none⟩
    | none => ⟨0, "", said, some (path, code)⟩

section

variable (world : World) (output : Option String) (code said : String)

/-- A facade is delivered if its output can be written. -/
theorem delivers_concluded (h : ∀ path, output = some path → world.refusesWriting path = none) :
    (concluded world output code said).Delivers output code := by
  cases output with
  | none => exact ⟨rfl, rfl, rfl⟩
  | some path =>
    rw [concluded, h path rfl]
    exact ⟨rfl, rfl, rfl⟩

/-- A run fails at the end if the output cannot be written. -/
theorem fails_concluded_or :
    (concluded world output code said).Fails
      ∨ ∀ path, output = some path → world.refusesWriting path = none := by
  cases output with
  | none => exact .inr fun path hpath => absurd hpath (by simp)
  | some path =>
    rw [concluded]
    cases hrefuses : world.refusesWriting path with
    | some fault => exact .inl ⟨Nat.one_ne_zero, rfl, rfl⟩
    | none => exact .inr fun other hother => Option.some.inj hother ▸ hrefuses

/-- What is said before changes nothing else. -/
theorem says_concluded :
    (concluded world output code said).Says said (concluded world output code "") := by
  cases output with
  | none => exact ⟨rfl, rfl, rfl, (String.append_empty).symm⟩
  | some path =>
    rw [concluded, concluded]
    cases world.refusesWriting path with
    | some fault => exact ⟨rfl, rfl, rfl, by simp⟩
    | none => exact ⟨rfl, rfl, rfl, (String.append_empty).symm⟩

end

/-- A run that finds all that its facade takes comes to its end. -/
theorem runTranslation_of_found (h : job.Found world) :
    runTranslation world job.options job.input
      = concluded world job.options.output job.translation.code
          (if job.options.quiet then "" else job.said) := by
  have hwarnings : warnings world job.options job.input job.translation
      = if job.options.quiet then "" else job.said := by
    rw [warnings, h.input, Job.said]
    rfl
  rw [runTranslation, translation_eq_ok_iff.mpr ⟨job, rfl, rfl, h, rfl⟩]
  simp only [hwarnings]
  rfl

/-- A failure never exits with zero. -/
theorem Failure.exit_ne_zero (failure : Failure) : failure.exit ≠ 0 := by
  cases failure <;> simp [Failure.exit]

/-- A run with arguments that ask for a translation fails, or its job is ready. -/
theorem fails_or_ready (world : World) {arguments : List String}
    (hhelp : read arguments ≠ .ok .help) (hversion : read arguments ≠ .ok .version) :
    (run world arguments).Fails ∨ ∃ job : Job, job.Ready world arguments := by
  cases hread : read arguments with
  | error error =>
    rw [run, hread]
    exact .inl ⟨Nat.succ_ne_zero 1, rfl, rfl⟩
  | ok request =>
    cases request with
    | help => exact absurd hread hhelp
    | version => exact absurd hread hversion
    | translate options input =>
      have hrun : run world arguments = runTranslation world options input := by rw [run, hread]
      cases htranslation : CommandLine.translation world options input with
      | error failure =>
        rw [hrun, runTranslation, htranslation]
        exact .inl ⟨failure.exit_ne_zero, rfl, rfl⟩
      | ok translation =>
        obtain ⟨job, rfl, rfl, hfound, rfl⟩ := translation_eq_ok_iff.mp htranslation
        -- From here on only the output can refuse.
        rw [hrun, runTranslation_of_found hfound]
        exact (fails_concluded_or world job.options.output job.translation.code _).imp id
          fun houtput => ⟨job, hread, hfound, houtput⟩

/-- A job that is ready is done: its code goes to the one place that it is asked for. -/
theorem Job.Ready.delivers (h : job.Ready world arguments) :
    (run world arguments).Delivers job.options.output job.translation.code := by
  have hrun : run world arguments = runTranslation world job.options job.input := by
    rw [run, h.asked]
  rw [hrun, runTranslation_of_found h.found]
  exact delivers_concluded world _ _ _ h.output

/-- The code of a job is what its text is translated to. -/
theorem Job.Found.translates (h : job.Found world) :
    translate job.text job.package job.layout = .ok job.translation := by
  rw [translate, h.parses, Job.translation]

/-- Quiet keeps back what is said of losses, and nothing else. -/
theorem says_of_quiets {quiet : List String} (world : World) (h : Quiets arguments quiet) :
    ∃ said, Said world arguments said ∧ (run world arguments).Says said (run world quiet) := by
  rw [Quiets] at h
  cases hread : read arguments with
  | error error =>
    rw [hread] at h
    rw [run, run, hread, h]
    exact ⟨"", .inl rfl, rfl, rfl, rfl, String.empty_append.symm⟩
  | ok request =>
    rw [hread] at h
    cases request with
    | help | version =>
      rw [run, run, hread, h]
      exact ⟨"", .inl rfl, rfl, rfl, rfl, String.empty_append.symm⟩
    | translate options input =>
      have hquiet : read quiet = .ok (.translate options.quieted input) := h
      have hrun : run world arguments = runTranslation world options input := by rw [run, hread]
      have hrun' : run world quiet = runTranslation world options.quieted input := by
        rw [run, hquiet]
      cases htranslation : CommandLine.translation world options input with
      | error failure =>
        -- Losses are said once there is a translation, so neither run says any.
        have hsame : CommandLine.translation world options.quieted input = .error failure :=
          htranslation
        rw [hrun, hrun', runTranslation, runTranslation, htranslation, hsame]
        exact ⟨"", .inl rfl, rfl, rfl, rfl, String.empty_append.symm⟩
      | ok translation =>
        obtain ⟨job, rfl, rfl, hfound, -⟩ := translation_eq_ok_iff.mp htranslation
        -- Nothing that is found depends on whether quiet is asked for.
        let silent : Job := { job with options := job.options.quieted }
        have hsilent : silent.Found world := ⟨hfound.1, hfound.2, hfound.3, hfound.4⟩
        have hquietRun : runTranslation world job.options.quieted job.input
            = concluded world job.options.output job.translation.code "" :=
          runTranslation_of_found hsilent
        rw [hrun, hrun', runTranslation_of_found hfound, hquietRun]
        refine ⟨_, ?_, says_concluded world _ _ _⟩
        split
        · exact .inl rfl
        · exact .inr ⟨job, hread, hfound, rfl⟩

/-! ### A run in a directory -/

/-- How a directory takes up a code, and what is printed then. Without an output the code is
printed. An output leads to a place, and only there may something have changed: in the directory the
code stands at it, and outside of it the directory does not change at all, but what is written to
the device of output is printed. -/
def Files.Receives (before : Files) (output : Option String) (code : String) (after : Files)
    (stdout : String) : Prop :=
  match output with
  | none => stdout = code ∧ after = before
  | some path => ∃ place, before.target path = .ok place
      ∧ (∀ other, other ≠ place → after.entry other = before.entry other)
      ∧ match place with
        | .inside _ =>
          (∃ name, after.entry place = .file name code) ∧ after.read path = .ok code ∧ stdout = ""
        | .outside _ =>
          after = before ∧ stdout = if before.deviceAt path = some .output then code else ""

namespace Files

variable {files : Files} {path text : String}

/-- A run that writes nothing leaves the directory as it is. -/
theorem run_of_written_eq_none (h : (CommandLine.run files.world arguments).written = none) :
    files.run arguments = CommandLine.run files.world arguments
      ∧ files.afterRun arguments = files := by
  simp only [run, afterRun, h, and_self]

/-- A run in a directory exits as the run in its world. -/
theorem exit_run (files : Files) (arguments : List String) :
    (files.run arguments).exit = (CommandLine.run files.world arguments).exit := by
  simp only [run]
  split
  · rfl
  · split <;> rfl

/-- Something that is written to the output device is printed behind all else. -/
theorem stdout_run_of_written
    (h : (CommandLine.run files.world arguments).written = some (path, text)) :
    (files.run arguments).stdout = (CommandLine.run files.world arguments).stdout
      ++ if files.deviceAt path = some .output then text else "" := by
  simp only [run, h]
  cases files.deviceAt path with
  | none => simp
  | some device => cases device <;> simp

/-- Something that is written stands in the directory behind the run. -/
theorem afterRun_of_written
    (h : (CommandLine.run files.world arguments).written = some (path, text)) :
    files.afterRun arguments = files.put path text := by
  simp only [afterRun, h]

/-- Inside of the directory there are no devices. -/
theorem deviceAt_of_target_inside {names : List Step}
    (htarget : files.target path = .ok (.inside names)) : files.deviceAt path = none := by
  rw [deviceAt, htarget]
  simp only [entry]
  cases files.isDirectory names.reverse with
  | true => rfl
  | false =>
    cases files.find? names.reverse with
    | none => rfl
    | some found => rfl

/-- The code of a job that is ready is received at the one place that it is asked for. -/
theorem receives_afterRun (h : job.Ready files.world arguments) :
    files.Receives job.options.output job.translation.code (files.afterRun arguments)
      (files.run arguments).stdout := by
  obtain ⟨-, hstdout, hwritten⟩ := h.delivers
  cases houtput : job.options.output with
  | none =>
    rw [houtput] at hstdout hwritten
    obtain ⟨hrun, hafter⟩ := run_of_written_eq_none hwritten
    rw [Receives, hrun, hafter]
    exact ⟨hstdout, rfl⟩
  | some path =>
    rw [houtput] at hstdout hwritten
    have hprinted := stdout_run_of_written hwritten
    rw [hstdout] at hprinted
    obtain ⟨place, htarget, hentry, -⟩ := refusesWriting_eq_none_iff.mp (h.output path houtput)
    rw [Receives, afterRun_of_written hwritten, hprinted]
    refine ⟨place, htarget, ?_⟩
    cases place with
    | inside names =>
      -- What a write does to the entries says both that the code is there and that all else stays.
      have hput := entry_put job.translation.code htarget hentry
      refine ⟨fun other hother => by rw [hput, if_neg hother], ⟨_, (hput _).trans (if_pos rfl)⟩,
        read_put job.translation.code htarget hentry, ?_⟩
      rw [deviceAt_of_target_inside htarget]
      rfl
    | outside names =>
      have hput : files.put path job.translation.code = files := by rw [put, htarget]
      rw [hput]
      exact ⟨fun _ _ => rfl, rfl, String.empty_append⟩

/-- Runs that write the same do the same to a directory, and one says what the other does. -/
theorem says_run {quiet : List String} {said : String}
    (h : (CommandLine.run files.world arguments).Says said
      (CommandLine.run files.world quiet)) :
    (files.run arguments).Says said (files.run quiet)
      ∧ files.afterRun arguments = files.afterRun quiet := by
  obtain ⟨hexit, hstdout, hwritten, hstderr⟩ := h
  refine ⟨?_, by simp only [afterRun, hwritten]⟩
  simp only [run, hwritten]
  cases hquiet : (CommandLine.run files.world quiet).written with
  | none => exact ⟨hexit, hstdout, hwritten, hstderr⟩
  | some written =>
    obtain ⟨path, text⟩ := written
    dsimp only
    cases files.deviceAt path with
    | none => exact ⟨hexit, hstdout, hwritten, hstderr⟩
    | some device =>
      cases device with
      | output => exact ⟨hexit, by simp only [hstdout], rfl, hstderr⟩
      | error => exact ⟨hexit, hstdout, rfl, by simp only [hstderr, String.append_assoc]⟩
      | _ => exact ⟨hexit, hstdout, hwritten, hstderr⟩

end Files

/-! ### All or nothing -/

/-- A run does all that it is asked for or nothing, whatever the world is like. -/
structure World.RunsWhole (world : World) (arguments : List String) : Prop where
  exit_eq_zero_iff : (run world arguments).exit = 0 ↔ ∃ job : Job, job.Ready world arguments
  delivers : ∀ job : Job, job.Ready world arguments →
    translate job.text job.package job.layout = .ok job.translation
      ∧ (run world arguments).Delivers job.options.output job.translation.code
  fails : (run world arguments).exit ≠ 0 → (run world arguments).Fails
  quiet : ∀ quiet, Quiets arguments quiet →
    ∃ said, Said world arguments said ∧ (run world arguments).Says said (run world quiet)

/-- A run in a directory does all that it is asked for, or leaves it as it is. -/
structure Files.RunsWhole (files : Files) (arguments : List String) : Prop where
  exit_eq_zero_iff : (files.run arguments).exit = 0 ↔ ∃ job : Job, job.Ready files.world arguments
  receives : ∀ job : Job, job.Ready files.world arguments →
    translate job.text job.package job.layout = .ok job.translation
      ∧ files.Receives job.options.output job.translation.code (files.afterRun arguments)
          (files.run arguments).stdout
  fails : (files.run arguments).exit ≠ 0 →
    (files.run arguments).stdout = "" ∧ files.afterRun arguments = files
  quiet : ∀ quiet, Quiets arguments quiet →
    ∃ said, Said files.world arguments said ∧ (files.run arguments).Says said (files.run quiet)
      ∧ files.afterRun arguments = files.afterRun quiet

/-- Every run that is not asked for help or for the version does all or nothing. -/
theorem World.runsWhole (world : World) (hhelp : CommandLine.read arguments ≠ .ok .help)
    (hversion : CommandLine.read arguments ≠ .ok .version) : world.RunsWhole arguments where
  exit_eq_zero_iff := by
    constructor
    · intro hexit
      exact (fails_or_ready world hhelp hversion).resolve_left fun hfails => hfails.exit hexit
    · rintro ⟨job, hready⟩
      exact hready.delivers.exit
  delivers job hready := ⟨hready.found.translates, hready.delivers⟩
  fails hexit := by
    refine (fails_or_ready world hhelp hversion).resolve_right ?_
    rintro ⟨job, hready⟩
    exact hexit hready.delivers.exit
  quiet _ hquiets := says_of_quiets world hquiets

/-- So does every such run in a directory. -/
theorem Files.runsWhole (files : Files) (hhelp : CommandLine.read arguments ≠ .ok .help)
    (hversion : CommandLine.read arguments ≠ .ok .version) : files.RunsWhole arguments where
  exit_eq_zero_iff := by
    rw [Files.exit_run]
    exact (files.world.runsWhole hhelp hversion).exit_eq_zero_iff
  receives job hready := ⟨hready.found.translates, Files.receives_afterRun hready⟩
  fails hexit := by
    rw [Files.exit_run] at hexit
    have hfails := (files.world.runsWhole hhelp hversion).fails hexit
    obtain ⟨hrun, hafter⟩ := Files.run_of_written_eq_none hfails.written
    exact ⟨hrun ▸ hfails.stdout, hafter⟩
  quiet quiet hquiets := by
    obtain ⟨said, hsaid, hsays⟩ := says_of_quiets files.world hquiets
    exact ⟨said, hsaid, Files.says_run hsays⟩

/-- A directory with a declaration file and a settings file. -/
def settledFiles : Files :=
  ⟨[("a.d.ts", "type X = number;"),
    ("ts-importer.toml", "package = \"lib\"\n[emit]\nindent = 3\n")]⟩

/-- Arguments that leave the package and the indentation to the settings file. -/
def settledArguments : List String := ["--no-header", "-o", "out.scala", "a.d.ts"]

/-- The job of these arguments in this directory. -/
def settledJob : Job where
  options := ⟨some "a.d.ts", some "out.scala", none, none, none, true, false, false⟩
  input := "a.d.ts"
  settings := ⟨some "lib", some 3, none⟩
  text := "type X = number;"
  document := ⟨[.alias "X" [] (.primitive .number)], []⟩

/-- The job can be done in this directory. -/
theorem ready_settledJob : settledJob.Ready settledFiles.world settledArguments where
  asked := by rfl
  found := {
    settings := by
      have hhas : settledFiles.world.has settingsPath = true := by decide +kernel
      have hread : settledFiles.read settingsPath
          = .ok "package = \"lib\"\n[emit]\nindent = 3\n" := by rfl
      have hsettings : Settings.ofText? "package = \"lib\"\n[emit]\nindent = 3\n"
          = some settledJob.settings := by decide +kernel
      rw [Loads]
      exact (if_pos hhas).symm ▸ ⟨_, hread, hsettings⟩
    input := by rfl
    parses := by with_unfolding_all rfl
    margins := (Package.fits_iff _ _).mp (by decide +kernel) }
  output := by
    intro path hpath
    obtain rfl : "out.scala" = path := Option.some.inj hpath
    decide +kernel

/-- All is there that the run needs, but for room for the margin. -/
example : (settledFiles.run ["--indent", "65536", "a.d.ts"]).exit = 101 := by decide +kernel

end Facade.CommandLine
