import Facade.Text.Width
import Facade.Translation.Text

/-!
# Reports to people

A report is a headline, and for what has a place in the file also a snippet: the place, the line
that it is on, and a marker below it.

```text
error: expected type, found keyword
  ┌─ input.d.ts:2:16
  │
2 │ declare var y: ;
  │                ^ error occurs here
```

The marker stands in the terminal columns of the character that it is about, so it is as wide as
that character and starts where that starts. At the end of the text it stands one column further
on. The line is shown without what ends it and with its tabs as spaces.
-/

set_option autoImplicit false

namespace Facade

open Facade.Text

/-- A file that reports are about. -/
structure SourceFile where
  name : String
  text : String

namespace Report

/-- Characters that end a line, and are not shown there. -/
def endsLine (c : Char) : Bool :=
  c == '\n' || c == '\r' || c == '\x00'

/-- A line around an offset: its part before the offset, and its part from there on. -/
def lineAround (text : List Char) (offset : Nat) : List Char × List Char :=
  (((upToByte offset text).reverse.takeWhile (· ≠ '\n')).reverse,
    (fromByte offset text).takeWhile (· ≠ '\n'))

/-- A line without what ends it. -/
def trimEnd (line : List Char) : List Char :=
  (line.reverse.dropWhile endsLine).reverse

/-- A line as it is shown: tabs become spaces. -/
def shownLine (line : List Char) : String :=
  String.ofList ((withColumns 0 line).flatMap fun (c, width) =>
    if c = '\t' then List.replicate width ' ' else [c])

/-- The columns that a part of a line takes. -/
def totalColumns (line : List (Char × Nat)) : Nat :=
  line.foldl (fun total item => total + item.2) 0

/-- The marker below a line, for the character behind its first `count`. Without such a character it
stands behind the line, unless the place is yet further on. -/
def marker (line : List Char) (count : Nat) : String :=
  let columns := withColumns 0 line
  let blank := List.replicate (totalColumns (columns.take count)) ' '
  String.ofList <| blank ++
    match columns[count]? with
    | some (_, width) => List.replicate width '^'
    | none => if count = columns.length then ['^'] else [' ']

/-- The place in the file, the line, and the marker with a label behind it. -/
def snippet (file : SourceFile) (position : Nat) (label : String) : String :=
  let text := file.text.toList
  let place := Place.ofByte text position
  let (before, behind) := lineAround text position
  let line := trimEnd (before ++ behind)
  let number := toString place.line
  let margin := String.ofList (List.replicate number.length ' ')
  margin ++ " ┌─ " ++ file.name ++ ":" ++ number ++ ":" ++ toString place.column ++ "\n"
    ++ margin ++ " │\n"
    ++ number ++ " │ " ++ shownLine line ++ "\n"
    ++ margin ++ " │ " ++ marker line before.length ++ label ++ "\n"

end Report

/-- The report of what keeps a file from being read. -/
def SyntaxError.report (error : SyntaxError) (file : SourceFile) : String :=
  "error: " ++ error.fault.message ++ "\n"
    ++ Report.snippet file error.position " error occurs here" ++ "\n"

/-- The report of a rest parameter that lost its dots. -/
def LostRest.report (lost : LostRest) (file : SourceFile) : String :=
  "warning: " ++ lost.message ++ "\n" ++ Report.snippet file lost.position "" ++ "\n"

/-- The report of a loss without a place in the file. -/
def Warning.report (warning : Warning) : String :=
  "warning: " ++ warning.display ++ "\n\n"

/-- The reports of what a translation lost: first what has a place in the file. -/
def Translation.reports (translation : Translation) (file : SourceFile) : List String :=
  translation.lost.map (·.report file) ++ translation.warnings.map Warning.report

end Facade
