import Facade.Declaration.Display
import Facade.Definition.Identifier

/-!
# What a translation warns of

A facade cannot say everything that a declaration file says. Every loss is a `Warning`, and a
computation that may lose something answers with a `Noted` value: the value, and the warnings in the
order in which they arose. Noted computations follow each other as a monad, and `warnings_bind`
says that their warnings then follow each other too.
-/

set_option autoImplicit false

namespace Facade

/-- A loss, by its cause. -/
inductive Warning where
  /-- Something without a counterpart became a comment. -/
  | keptAsComment (text : String)
  /-- A type without a counterpart became any value. -/
  | widened (type : TypeExpr)
  /-- A function type became the type of all functions. -/
  | untypedFunction (type : TypeExpr)
  /-- The type parameters of a constructor of a class were dropped. -/
  | genericConstructor (name : Identifier)
  /-- A property was dropped. -/
  | skippedProperty (member : Member)

/-- The three kinds of losses: replaced by a comment, said less exactly, and dropped. -/
inductive Warning.Kind where
  | unsupported
  | simplified
  | skipped
deriving DecidableEq

namespace Warning

/-- How a kind of losses is written. -/
def Kind.spelling : Kind → String
  | .unsupported => "unsupported"
  | .simplified => "simplified"
  | .skipped => "skipped"

/-- Which kind a loss is of. -/
def kind : Warning → Kind
  | .keptAsComment _ => .unsupported
  | .widened _ => .simplified
  | .untypedFunction _ => .simplified
  | .genericConstructor _ => .simplified
  | .skippedProperty _ => .skipped

/-- The loss in words. -/
def message : Warning → String
  | .keptAsComment text => "`" ++ text ++ "` kept as a comment"
  | .widened type => "type `" ++ type.display ++ "` mapped to js.Any"
  | .untypedFunction type => "function type `" ++ type.display ++ "` mapped to js.Function"
  | .genericConstructor name =>
    "type parameters dropped from constructor of `" ++ name.display ++ "`"
  | .skippedProperty member => "property `" ++ member.display ++ "` skipped"

/-- The loss in words, behind its kind. -/
def display (warning : Warning) : String :=
  warning.kind.spelling ++ ": " ++ warning.message

end Warning

/-- A value, and what was lost on the way to it. -/
structure Noted (α : Type) where
  value : α
  warnings : List Warning

namespace Noted

variable {α β : Type}

/-- Computations follow each other, and so do their warnings. -/
instance : Monad Noted where
  pure value := ⟨value, []⟩
  bind first next :=
    let second := next first.value
    ⟨second.value, first.warnings ++ second.warnings⟩

/-- Notes a loss. -/
def warn (warning : Warning) : Noted Unit := ⟨(), [warning]⟩

/-- A value by itself is the value. -/
@[simp] theorem value_pure (a : α) : (pure a : Noted α).value = a := rfl

/-- It warns of nothing. -/
@[simp] theorem warnings_pure (a : α) : (pure a : Noted α).warnings = [] := rfl

/-- The value of two computations in a row is that of the second. -/
@[simp] theorem value_bind (first : Noted α) (next : α → Noted β) :
    (first >>= next).value = (next first.value).value := rfl

/-- Their warnings are those of the first and then those of the second. -/
@[simp] theorem warnings_bind (first : Noted α) (next : α → Noted β) :
    (first >>= next).warnings = first.warnings ++ (next first.value).warnings := rfl

end Noted

end Facade
