import Facade.CommandLine.Path

/-!
# The files that a run sees

A run reads at most two files and writes at most one. `World` is all that it needs to know of the
files around it: what reading a path gives, and whether a path can be written. `Files` is a small
world of its own, a directory that holds texts under names, somewhere in the tree of directories of
a system; `Files.put` is what writing does to it.

A path is walked name by name. Whatever is not a directory ends the walk with a fault if a name
follows it, so a path through a missing directory is missing even if it comes back by two dots.
`Files.walk` says this; reading and writing differ only in what a slash at the end of a path means.
-/

set_option autoImplicit false

namespace Facade.CommandLine

/-- Why a path cannot be read or written. -/
inductive FileFault where
  | missing
  | isDirectory
  | notDirectory
  | nameTooLong
  | noSpace
  | notText
  | other (reason : String)
deriving DecidableEq

/-- A fault in the words of the system. -/
def FileFault.message : FileFault → String
  | .missing => "No such file or directory (os error 2)"
  | .isDirectory => "Is a directory (os error 21)"
  | .notDirectory => "Not a directory (os error 20)"
  | .nameTooLong => "File name too long (os error 36)"
  | .noSpace => "No space left on device (os error 28)"
  | .notText => "stream did not contain valid UTF-8"
  | .other reason => reason

/-- What a run can find out about files. -/
structure World where
  read : String → Except FileFault String
  refusesWriting : String → Option FileFault

/-- Whether something is there under a path. -/
def World.has (world : World) (path : String) : Bool :=
  match world.read path with
  | .error .missing => false
  | .error .notDirectory => false
  | .error .nameTooLong => false
  | _ => true

/-- Files by their names, relative to a directory. A name may lead through further directories. -/
structure Files where
  entries : List (String × String)

namespace Files

/-- The names that lead to a file. -/
def stepsOf (name : String) : List Step :=
  (stepsOfPath name).filter (· ≠ here)

/-- The file that names lead to. -/
def find? (files : Files) (names : List Step) : Option (String × String) :=
  files.entries.find? fun entry => stepsOf entry.1 == names

/-- Whether names lead to a directory. -/
def isDirectory (files : Files) (names : List Step) : Bool :=
  names.isEmpty || files.entries.any fun entry =>
    names.isPrefixOf (stepsOf entry.1) && names.length < (stepsOf entry.1).length

/-- What stands at a place. -/
def entry (files : Files) : Location → Entry
  | .outside names => entryOutside names
  | .inside names =>
    if files.isDirectory names.reverse then .directory
    else
      match files.find? names.reverse with
      | some (name, text) => .file name text
      | none => .nothing

/-- The place that names lead to. Only the last one may lead to nothing. -/
def walk (files : Files) : Location → List Step → Except FileFault Location
  | place, [] => .ok place
  | place, name :: rest =>
    match files.entry place with
    | .nothing => .error .missing
    | .file _ _ | .device _ => .error .notDirectory
    | .directory =>
      if name = here then files.walk place rest
      else if name = above then files.walk place.parent rest
      else if maxStepBytes < (String.ofList name).utf8ByteSize then .error .nameTooLong
      else files.walk (place.child name) rest

/-- The place that a path leads to, after its names have been settled. -/
def locate (files : Files) (path : String) (names : List Step) : Except FileFault Location :=
  if path = "" then .error .missing
  else if maxPathBytes < path.utf8ByteSize then .error .nameTooLong
  else files.walk (.ofPath path) names

/-- The place to read from. A slash at the end asks for the directory itself. -/
def source (files : Files) (path : String) : Except FileFault Location :=
  files.locate path
    (if endsInSlash path then stepsOfPath path ++ [here] else stepsOfPath path)

/-- The place to write to. A slash at the end makes it a directory, whether it is there or not. -/
def target (files : Files) (path : String) : Except FileFault Location :=
  files.locate path
    (if endsInSlash path then (stepsOfPath path).dropLast ++ [here] else stepsOfPath path)

/-- What reading from a path gives. -/
def read (files : Files) (path : String) : Except FileFault String := do
  match files.entry (← files.source path) with
  | .file _ text => .ok text
  | .device _ => .ok ""
  | .directory => .error .isDirectory
  | .nothing => .error .missing

/-- Why a path cannot be written to. -/
def refusesWriting (files : Files) (path : String) : Option FileFault :=
  match files.target path with
  | .error fault => some fault
  | .ok place =>
    match files.entry place with
    | .directory => some .isDirectory
    | .device .full => some .noSpace
    | _ => none

/-- The world of a run in the directory. -/
def world (files : Files) : World where
  read := files.read
  refusesWriting := files.refusesWriting

/-- The name of the file at names, whether it is there or not. -/
def nameOf (files : Files) (names : List Step) : String :=
  match files.find? names with
  | some (name, _) => name
  | none => String.ofList (['/'].intercalate names)

/-- The files after a text was written to a path. What is written outside of the directory leaves no
trace in it. -/
def put (files : Files) (path text : String) : Files :=
  match files.target path with
  | .ok (.inside names) =>
    let names := names.reverse
    ⟨files.entries.filter (fun entry => stepsOf entry.1 ≠ names) ++ [(files.nameOf names, text)]⟩
  | _ => files

/-- The device that a path leads to. -/
def deviceAt (files : Files) (path : String) : Option Device :=
  match files.target path with
  | .error _ => none
  | .ok place =>
    match files.entry place with
    | .device device => some device
    | _ => none

/-- The files that are not as they were before. -/
def changedSince (files before : Files) : List (String × String) :=
  files.entries.filter fun entry => entry ∉ before.entries

end Files

end Facade.CommandLine
