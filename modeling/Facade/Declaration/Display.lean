import Facade.Declaration.Basic
import Facade.Text.Joined

/-!
# Declarations as text

The text of a declaration, in the syntax it is read from, on one line and with a fixed layout:
`, ` between the items of a list, ` | ` and ` & ` between the parts of a type, `; ` behind every
member. Placeholders for what has no counterpart in a facade quote it.

The functions follow the types: one for each type of the mutual block and one for each list of it,
which answers with the list of the texts and leaves the separator to its caller. An array type is
written with brackets behind its element, whichever way it was written first.
-/

set_option autoImplicit false

namespace Facade

open Facade.Text (joined)

/-- A list in angle brackets, or nothing for the empty list. -/
def inAngles : List String → String
  | [] => ""
  | item :: rest => "<" ++ joined ", " (item :: rest) ++ ">"

/-- Members in braces, each followed by a semicolon. -/
def inBraces : List String → String
  | [] => "\x7b\x7d"
  | item :: rest => "\x7b " ++ joined " " ((item :: rest).map (· ++ ";")) ++ " \x7d"

/-- A name applied to type arguments. The name of arrays with one argument is written as brackets
behind that. -/
def applied : List String → List String → String
  | ["Array"], [element] => element ++ "[]"
  | path, arguments => joined "." path ++ inAngles arguments

/-- The question mark behind the name of what may be left out. -/
def optionalMark (optional : Bool) : String :=
  if optional then "?" else ""

/-- The three dots in front of a rest parameter. -/
def restMark : Option TypeExpr → String
  | some (.repeated _) => "..."
  | _ => ""

mutual

/-- A type expression as text. -/
def TypeExpr.display : TypeExpr → String
  | .primitive type => type.spelling
  | .named path arguments => applied path (displayTypes arguments)
  | .object members => inBraces (displayMembers members)
  | .function signature => signature.displayAsFunction
  | .constructor signature => "new " ++ signature.displayAsFunction
  | .repeated element => element.display ++ "[]"
  | .union types => joined " | " (displayTypes types)
  | .intersection types => joined " & " (displayTypes types)
  | .tuple types => "[" ++ joined ", " (displayTypes types) ++ "]"
  | .literal text => text
  | .query path => "typeof " ++ joined "." path
  | .parenthesized inner => "(" ++ inner.display ++ ")"

/-- Each of several types as text. -/
def displayTypes : List TypeExpr → List String
  | [] => []
  | type :: rest => type.display :: displayTypes rest

/-- A signature with an arrow before its result. -/
def Signature.displayAsFunction : Signature → String
  | ⟨typeParameters, parameters, result⟩ =>
    inAngles (displayTypeParameters typeParameters)
      ++ "(" ++ joined ", " (displayParameters parameters) ++ ") => " ++ displayResult result

/-- A signature with a colon before its result. -/
def Signature.display : Signature → String
  | ⟨typeParameters, parameters, result⟩ =>
    inAngles (displayTypeParameters typeParameters)
      ++ "(" ++ joined ", " (displayParameters parameters) ++ ")" ++ displayAnnotation result

/-- The result of a function type, where a missing one is any value. -/
def displayResult : Option TypeExpr → String
  | none => "any"
  | some type => type.display

/-- A colon and a type, if there is one. -/
def displayAnnotation : Option TypeExpr → String
  | none => ""
  | some type => ": " ++ type.display

/-- A word and a type, if there is one. -/
def displayClause (word : String) : Option TypeExpr → String
  | none => ""
  | some type => word ++ type.display

/-- A type parameter as text, with its bound and its default. -/
def TypeParameter.display : TypeParameter → String
  | ⟨name, bound, default⟩ =>
    name ++ displayClause " extends " bound ++ displayClause " = " default

/-- Each of several type parameters as text. -/
def displayTypeParameters : List TypeParameter → List String
  | [] => []
  | parameter :: rest => parameter.display :: displayTypeParameters rest

/-- A parameter as text. -/
def Parameter.display : Parameter → String
  | ⟨name, optional, type⟩ =>
    restMark type ++ name ++ optionalMark optional ++ displayAnnotation type

/-- Each of several parameters as text. -/
def displayParameters : List Parameter → List String
  | [] => []
  | parameter :: rest => parameter.display :: displayParameters rest

/-- A member as text, without the semicolon behind it. -/
def Member.display : Member → String
  | .call signature => signature.display
  | .construct signature => "new " ++ signature.display
  | .index parameter type => "[" ++ parameter.display ++ "]: " ++ type.display
  | .property name optional type => name ++ optionalMark optional ++ displayAnnotation type
  | .method name optional signature => name ++ optionalMark optional ++ signature.display
  | .static member => "static " ++ member.display

/-- Each of several members as text. -/
def displayMembers : List Member → List String
  | [] => []
  | member :: rest => member.display :: displayMembers rest

end

/-- A word and the types that follow it, if there are any. -/
def typesClause (word : String) : List TypeExpr → String
  | [] => ""
  | type :: rest => word ++ joined ", " (displayTypes (type :: rest))

mutual

/-- A declaration as text. -/
def Declaration.display : Declaration → String
  | .variable name type => "var " ++ name ++ displayAnnotation type ++ ";"
  | .function name signature => "function " ++ name ++ signature.display ++ ";"
  | .interface name typeParameters parents members =>
    "interface " ++ name ++ inAngles (displayTypeParameters typeParameters)
      ++ typesClause " extends " parents ++ " " ++ inBraces (displayMembers members)
  | .alias name typeParameters type =>
    "type " ++ name ++ inAngles (displayTypeParameters typeParameters) ++ " = " ++ type.display
      ++ ";"
  | .class name typeParameters parent interfaces members =>
    "class " ++ name ++ inAngles (displayTypeParameters typeParameters)
      ++ displayClause " extends " parent ++ typesClause " implements " interfaces ++ " "
      ++ inBraces (displayMembers members)
  | .namespace path declarations =>
    "namespace " ++ joined "." path ++ " \x7b " ++ displayDeclarations declarations ++ "\x7d"
  | .unsupported text => text

/-- Declarations as text, each followed by a space. -/
def displayDeclarations : List Declaration → String
  | [] => ""
  | declaration :: rest => declaration.display ++ " " ++ displayDeclarations rest

end

end Facade
