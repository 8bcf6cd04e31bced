import Facade.Definition.Page
import Facade.Settings.Toml

/-!
# Settings

What a settings file may say: the package that facades go into, and how they are laid out. A key may
be given once, and an unknown key or a value of the wrong type makes the whole file invalid. The
layout has a table of its own, `emit`, which can be written under a header, as an inline table, with
dotted keys, or as an array of all its values in order. `Section` keeps track of that: a table
written in one of these ways is closed to the others.
-/

set_option autoImplicit false

namespace Facade

/-- What a settings file says. -/
structure Settings where
  package : Option String
  indent : Option Nat
  header : Option Bool
deriving DecidableEq

namespace Settings

/-- Settings that say nothing. -/
def none : Settings := ⟨.none, .none, .none⟩

/-- The package of facades that no setting names. -/
def defaultPackage : String := "importedjs"

/-- The package that facades go into. -/
def packageName (settings : Settings) : String :=
  settings.package.getD defaultPackage

/-- How facades are laid out. -/
def layout (settings : Settings) : Layout :=
  ⟨settings.indent.getD Layout.standard.indent, settings.header.getD Layout.standard.header⟩

/-- Sets the package, which nothing set before. -/
def setPackage (settings : Settings) : Toml.Value → Option Settings
  | .string text =>
    if settings.package.isSome then .none else some { settings with package := some text }
  | _ => .none

/-- Sets the indentation, which nothing set before. -/
def setIndent (settings : Settings) : Toml.Value → Option Settings
  | .integer n =>
    if settings.indent.isSome || n < 0 then .none
    else some { settings with indent := some n.toNat }
  | _ => .none

/-- Sets whether there are imports on top, which nothing set before. -/
def setHeader (settings : Settings) : Toml.Value → Option Settings
  | .boolean b =>
    if settings.header.isSome then .none else some { settings with header := some b }
  | _ => .none

/-- Sets a key of the table of the layout. -/
def setLayoutKey (settings : Settings) : List String → Toml.Value → Option Settings
  | ["indent"], value => settings.setIndent value
  | ["header"], value => settings.setHeader value
  | _, _ => .none

/-- Sets the keys of an inline table, in order. -/
def setLayoutKeys : Settings → List (List String × Toml.Value) → Option Settings
  | settings, [] => some settings
  | settings, (key, value) :: rest => do setLayoutKeys (← settings.setLayoutKey key value) rest

/-- Sets the whole table of the layout. Of an array only the first two values count, and both have
to be there. -/
def setLayout (settings : Settings) : Toml.Value → Option Settings
  | .table entries => settings.setLayoutKeys entries
  | .array (indent :: header :: _) => do (← settings.setIndent indent).setHeader header
  | _ => .none

/-- How the table of the layout was written so far: not at all, with dotted keys, or as a whole. -/
inductive Section where
  | absent
  | dotted
  | closed
deriving DecidableEq

/-- Reads pairs that stand outside of all tables, and the header of the table of the layout, behind
which all pairs belong to that. -/
def ofLines (table : Section) (inside : Bool) : Settings → List Toml.Line → Option Settings
  | settings, [] => some settings
  | settings, .pair key value :: rest => do
    if inside then ofLines table inside (← settings.setLayoutKey key value) rest
    else
      match key, table with
      | ["package"], _ => ofLines table inside (← settings.setPackage value) rest
      | ["emit"], .absent => ofLines .closed inside (← settings.setLayout value) rest
      | ["emit", key], .absent | ["emit", key], .dotted =>
        ofLines .dotted inside (← settings.setLayoutKey [key] value) rest
      | _, _ => .none
  | settings, .table key :: rest =>
    if key = ["emit"] && table = .absent then ofLines .closed true settings rest else .none
  | _, .element _ :: _ => .none

/-- Reads a settings file. -/
def ofText? (text : String) : Option Settings := do
  ofLines .absent false .none (← Toml.lines? text)

end Settings

end Facade
