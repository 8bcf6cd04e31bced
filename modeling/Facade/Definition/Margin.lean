import Facade.Definition.Render

/-!
# How wide the margin of a facade gets

The spaces in front of a line are written by the machinery of formatted output, which counts columns
up to a limit. A facade can be written if its widest margin keeps to it, and that is the margin of
its innermost lines: `Package.levels` counts the levels on which lines of a facade stand, the
outermost included, and `Package.fits` compares.
-/

set_option autoImplicit false

namespace Facade

/-- The widest margin that can be written. -/
def Layout.widestMargin : Nat := 65535

/-- The levels of a field or a method. A constructor without parameters has no line. -/
def Definition.leafLevels : Definition → Nat
  | .field _ => 1
  | .method definition =>
    if definition.name.isConstructor && definition.parameters.isEmpty then 0 else 1
  | _ => 0

mutual

/-- The number of levels on which a definition has lines. -/
def Definition.levels (header : Bool) : Definition → Nat
  | .comment _ => 1
  | .package definition => definition.levels header
  | .class ⟨_, _, _, _, _, ⟨items, _⟩⟩ => itemLevels header items + 1
  | .object ⟨_, _, ⟨items, _⟩⟩ => itemLevels header items + 1
  | .field definition => (Definition.field definition).leafLevels
  | .method definition => (Definition.method definition).leafLevels

/-- The number of levels on which a package has lines. One without a name has no lines of its own
but its imports. -/
def Package.levels (header : Bool) : Package → Nat
  | ⟨name, _, ⟨items, _⟩⟩ =>
    if name.isEmpty then max header.toNat (blockLevels header items)
    else blockLevels header items + 1

/-- The number of levels of what is in a package. Its fields and methods are in an object. -/
def blockLevels (header : Bool) : List Definition → Nat
  | [] => 0
  | definition :: rest =>
    max (if definition.isGlobal then definition.leafLevels + 1 else definition.levels header)
      (blockLevels header rest)

/-- The number of levels of what is in a class or an object. -/
def itemLevels (header : Bool) : List Definition → Nat
  | [] => 0
  | definition :: rest => max (definition.levels header) (itemLevels header rest)

end

/-- Whether a facade can be written in a layout. -/
def Package.fits (layout : Layout) (package : Package) : Bool :=
  (package.levels layout.header - 1) * layout.indent ≤ Layout.widestMargin

end Facade
