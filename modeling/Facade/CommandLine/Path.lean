/-!
# Paths

A path is a list of names between slashes. It starts at the root of the system or in the directory
of the run, and each of its names leads on: to the same directory, to the one around, or to what
stands under the name. A `Location` is where one gets to in this way.

Of the system outside of the directory of the run little is known, and `entryOutside` says what: the
directories at its root, and the devices that a run may be told to read or write.
-/

set_option autoImplicit false

namespace Facade.CommandLine

/-! ### Paths -/

/-- A name on a path. -/
abbrev Step := List Char

/-- The parts of a path between its slashes. -/
def partsOfPath : List Char → List Step
  | [] => [[]]
  | c :: rest =>
    if c = '/' then [] :: partsOfPath rest
    else match partsOfPath rest with
      | [] => [[c]]
      | part :: more => (c :: part) :: more

/-- The names on a path. Slashes may be doubled. -/
def stepsOfPath (path : String) : List Step :=
  (partsOfPath path.toList).filter (· ≠ [])

/-- A name that stays where it is. -/
def here : Step := ['.']

/-- A name that leads to the directory around. -/
def above : Step := ['.', '.']

/-- The bytes that a name may have. -/
def maxStepBytes : Nat := 255

/-- The bytes that a path may have. -/
def maxPathBytes : Nat := 4095

/-- Whether a path starts at the root of the system. -/
def isAbsolute (path : String) : Bool :=
  path.toList.head? == some '/'

/-- Whether a path ends in a slash, so that it can only be that of a directory. -/
def endsInSlash (path : String) : Bool :=
  path.toList.getLast? == some '/'

/-! ### Locations -/

/-- A place in the tree of directories: in the directory of the run, or outside of it, with the
names that lead there from that directory or from the root. The last name comes first. -/
inductive Location where
  | inside (names : List Step)
  | outside (names : List Step)
deriving DecidableEq

namespace Location

/-- The directory that holds the one of the run, which has a name that nobody knows. -/
def temporary : Location := .outside ["tmp".toList]

/-- The directory around a place. The root is around itself. -/
def parent : Location → Location
  | .inside [] => temporary
  | .inside (_ :: names) => .inside names
  | .outside names => .outside names.tail

/-- The place that a name leads to. -/
def child (name : Step) : Location → Location
  | .inside names => .inside (name :: names)
  | .outside names => .outside (name :: names)

/-- Where a path starts. -/
def ofPath (path : String) : Location :=
  if isAbsolute path then .outside [] else .inside []

end Location

/-! ### What stands outside of the directory of the run -/

/-- What a path can lead to that holds no text of its own. Reading from it gives nothing; what is
written to it is gone, shows as output, or, if it is always full, cannot be written. -/
inductive Device where
  | null
  | full
  | input
  | output
  | error
deriving DecidableEq

/-- The devices and the names that they have in the directory of devices. -/
def devices : List (String × Device) :=
  [("null", .null), ("full", .full), ("stdin", .input), ("stdout", .output), ("stderr", .error)]

/-- The directories at the root of a system. -/
def rootDirectories : List String :=
  ["bin", "boot", "dev", "etc", "home", "lib", "media", "mnt", "opt", "proc", "root", "run", "sbin",
    "srv", "sys", "tmp", "usr", "var"]

/-- What stands at a place. -/
inductive Entry where
  | directory
  | file (name text : String)
  | device (device : Device)
  | nothing

/-- What stands at a place outside of the directory of the run. -/
def entryOutside : List Step → Entry
  | [] => .directory
  | [name] => if rootDirectories.contains (String.ofList name) then .directory else .nothing
  | [name, directory] =>
    match devices.lookup (String.ofList name) with
    | some device => if directory = "dev".toList then .device device else .nothing
    | none => .nothing
  | _ => .nothing

end Facade.CommandLine
