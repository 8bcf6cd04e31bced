import Facade.CommandLine.Run

/-!
# The program

Reads the files that a run may read, hands them to the run, and does what its outcome says. Only one
thing is left to find out on the way: whether the output can be written shows when it is tried, and
if it cannot, the run is the one of a world that refuses it.
-/

set_option autoImplicit false

namespace Facade.CommandLine

/-- A reason in the words of the system, with its number. -/
def numbered (reason : String) (code : UInt32) : FileFault :=
  .other (reason ++ " (os error " ++ toString code ++ ")")

/-- Why the system could not read or write a path. Errors of one kind differ only in the number: a
directory where a file is wanted, say, and a file where a directory is wanted. -/
def faultOf : IO.Error → FileFault
  | .noFileOrDirectory _ _ _ => .missing
  | .inappropriateType _ 21 _ => .isDirectory
  | .inappropriateType _ _ _ => .notDirectory
  | .invalidArgument _ 36 _ => .nameTooLong
  | .resourceExhausted _ 28 _ => .noSpace
  | .invalidArgument _ code reason => numbered reason code
  | .resourceExhausted _ code reason => numbered reason code
  | .permissionDenied _ code reason => numbered reason code
  | error => .other (toString error)

/-- Reads a file of text. -/
def readFile (path : String) : IO (Except FileFault String) := do
  try
    let handle ← IO.FS.Handle.mk path .read
    match String.fromUTF8? (← handle.readBinToEnd) with
    | some text => return .ok text
    | none => return .error .notText
  catch error => return .error (faultOf error)

/-- Writes a file of text, to the last byte. -/
def writeFile (path text : String) : IO Unit := do
  let handle ← IO.FS.Handle.mk path .write
  handle.putStr text
  handle.flush

/-- The world of a run that may read some paths, in which every path can be written. -/
def worldOf (known : List (String × Except FileFault String)) : World where
  read path := ((known.find? (·.1 == path)).map (·.2)).getD (.error .missing)
  refusesWriting _ := none

/-- Prints what a run prints, and answers with its exit code. -/
def conclude (outcome : Outcome) : IO UInt32 := do
  (← IO.getStderr).putStr outcome.stderr
  (← IO.getStdout).putStr outcome.stdout
  return outcome.exit.toUInt32

end Facade.CommandLine

open Facade.CommandLine

/-- Reads what a run may read, and does the run. If its output cannot be written, the run is done
over in a world that refuses it. -/
def main (arguments : List String) : IO UInt32 := do
  let known ← (pathsRead arguments).mapM fun path => return (path, ← readFile path)
  let world := worldOf known
  let outcome := run world arguments
  match outcome.written with
  | none => conclude outcome
  | some (path, text) =>
    try
      writeFile path text
      conclude outcome
    catch error =>
      conclude (run { world with refusesWriting := fun _ => some (faultOf error) } arguments)
