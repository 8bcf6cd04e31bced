import Facade.Proofs.Declaration.Formed
import Facade.Proofs.Token.Writes
import Facade.Declaration.Display

/-!
# The lexemes of printed types

A type is printed on one line, and the scanner makes lexemes of the line again. `TypeExpr.lexemes`
says which, without a look at characters: the functions follow those that print, and
`TypeExpr.writes` says that the two agree.

That takes some conditions on the type (`printable`). A member whose name is no word and no number
is printed without its quotes, a character that is shown by its code point is not read back, and
two brackets `<` in a row are another mark. The remaining condition, on the elements of arrays, is
one of the reader and not of the scanner.
-/

set_option autoImplicit false

namespace Facade

open Facade.Text

/-! ### Conditions -/

/-- A type that may be followed by brackets without parentheses around it. -/
def TypeExpr.isElement (type : TypeExpr) : Bool :=
  !(type.isUnion || type.isIntersection || type.isArrow)

/-- A type that starts with an angle bracket when it is printed. -/
def TypeExpr.startsWithAngle : TypeExpr → Bool
  | .function signature => !signature.typeParameters.isEmpty
  | _ => false

/-- A literal that is no string, or a string whose characters are quoted as themselves or by a
backslash and one character. -/
def IsPlainLiteral (text : String) : Prop :=
  (∀ value, text ≠ quoted value)
    ∨ ∃ value, text = quoted value ∧ ∀ c ∈ value.toList, Quoted.isShort c = true

/-- Whether a lexeme is a string. -/
def Lexeme.isString : Lexeme → Bool
  | .string _ => true
  | _ => false

/-- What is asked of types and members so that they are printed in a form that is read back: no
member has a name that can only be written as a string, no string is shown by code points, no
element of an array needs parentheses that it does not have, and no type argument starts with an
angle bracket. -/
def printable : Check where
  type
    | .named path arguments => (∀ element, path = ["Array"] → arguments = [element] →
        element.isElement = true) ∧ ∀ first ∈ arguments.head?, first.startsWithAngle = false
    | .repeated element => element.isElement = true
    | .literal text => IsPlainLiteral text
    | _ => True
  signature _ := True
  typeParameter _ := True
  parameter _ := True
  member member := member.NamedBy fun lexeme => lexeme.Scanned ∧ lexeme.isString = false
  declaration _ := True

/-! ### Lexemes -/

/-- The lexeme of a name of a member, or of a literal that is no string. -/
def Lexeme.ofSpelling (text : String) : Lexeme :=
  match text.toList with
  | c :: rest => if Cursor.startsNumber c rest then .number text else Cursor.wordLexeme text
  | [] => Cursor.wordLexeme text

/-- The lexemes of a literal. -/
def literalLexemes (text : String) : List Lexeme :=
  match text.toList with
  | '"' :: rest => [.string (String.ofList (Cursor.readQuoted '"' rest 0).value)]
  | '-' :: rest => [.mark .minus, .number (String.ofList rest)]
  | _ => [Lexeme.ofSpelling text]

/-- The lexemes of a path. -/
def pathLexemes (path : List String) : List Lexeme :=
  List.intercalate [.mark .dot] (path.map fun name => [Cursor.wordLexeme name])

/-- Items with commas between them. -/
def commaLexemes (items : List (List Lexeme)) : List Lexeme :=
  List.intercalate [.mark .comma] items

/-- Items in angle brackets, or nothing. -/
def angleLexemes : List (List Lexeme) → List Lexeme
  | [] => []
  | item :: rest => [.mark .less] ++ (commaLexemes (item :: rest) ++ [.mark .greater])

/-- Members in braces. -/
def braceLexemes (items : List (List Lexeme)) : List Lexeme :=
  [.mark .braceOpen] ++ (items.flatMap (· ++ [.mark .semicolon]) ++ [.mark .braceClose])

/-- A name with type arguments. -/
def appliedLexemes : List String → List (List Lexeme) → List Lexeme
  | ["Array"], [element] => element ++ [.mark .bracketOpen, .mark .bracketClose]
  | path, arguments => pathLexemes path ++ angleLexemes arguments

/-- The question mark of what may be left out. -/
def optionalLexemes (optional : Bool) : List Lexeme :=
  if optional then [.mark .question] else []

/-- The dots in front of a parameter with a rest type. -/
def restLexemes : Option TypeExpr → List Lexeme
  | some (.repeated _) => [.mark .ellipsis]
  | _ => []

mutual

/-- The lexemes of a type. -/
def TypeExpr.lexemes : TypeExpr → List Lexeme
  | .primitive type => [Cursor.wordLexeme type.spelling]
  | .named path arguments => appliedLexemes path (typeLexemes arguments)
  | .object members => braceLexemes (memberLexemes members)
  | .function signature => signature.functionLexemes
  | .constructor signature => [.word .newWord] ++ signature.functionLexemes
  | .repeated element => element.lexemes ++ [.mark .bracketOpen, .mark .bracketClose]
  | .union types => List.intercalate [.mark .bar] (typeLexemes types)
  | .intersection types => List.intercalate [.mark .ampersand] (typeLexemes types)
  | .tuple types =>
    [.mark .bracketOpen] ++ (commaLexemes (typeLexemes types) ++ [.mark .bracketClose])
  | .literal text => literalLexemes text
  | .query path => [.word .typeofWord] ++ pathLexemes path
  | .parenthesized inner => [.mark .parenOpen] ++ (inner.lexemes ++ [.mark .parenClose])

/-- The lexemes of each of several types. -/
def typeLexemes : List TypeExpr → List (List Lexeme)
  | [] => []
  | type :: rest => type.lexemes :: typeLexemes rest

/-- The lexemes of a signature with an arrow before its result. -/
def Signature.functionLexemes : Signature → List Lexeme
  | ⟨typeParameters, parameters, result⟩ =>
    angleLexemes (typeParameterLexemes typeParameters)
      ++ ([.mark .parenOpen] ++ (commaLexemes (parameterLexemes parameters) ++ ([.mark .parenClose]
        ++ ([.mark .arrow] ++ resultLexemes result))))

/-- The lexemes of a signature with a colon before its result. -/
def Signature.lexemes : Signature → List Lexeme
  | ⟨typeParameters, parameters, result⟩ =>
    angleLexemes (typeParameterLexemes typeParameters)
      ++ ([.mark .parenOpen] ++ (commaLexemes (parameterLexemes parameters) ++ ([.mark .parenClose]
        ++ clauseLexemes (.mark .colon) result)))

/-- The lexemes of a result, which is `any` if it is left out. -/
def resultLexemes : Option TypeExpr → List Lexeme
  | none => [.word .anyWord]
  | some type => type.lexemes

/-- The lexemes of a type behind another lexeme. -/
def clauseLexemes (lexeme : Lexeme) : Option TypeExpr → List Lexeme
  | none => []
  | some type => [lexeme] ++ type.lexemes

/-- The lexemes of a type parameter, with its bound and its default. -/
def TypeParameter.lexemes : TypeParameter → List Lexeme
  | ⟨name, bound, default⟩ => [Cursor.wordLexeme name]
    ++ (clauseLexemes (.word .extendsWord) bound ++ clauseLexemes (.mark .assign) default)

/-- The lexemes of each of several type parameters. -/
def typeParameterLexemes : List TypeParameter → List (List Lexeme)
  | [] => []
  | parameter :: rest => parameter.lexemes :: typeParameterLexemes rest

/-- The lexemes of a parameter. -/
def Parameter.lexemes : Parameter → List Lexeme
  | ⟨name, optional, type⟩ => restLexemes type ++ ([Cursor.wordLexeme name]
    ++ (optionalLexemes optional ++ clauseLexemes (.mark .colon) type))

/-- The lexemes of each of several parameters. -/
def parameterLexemes : List Parameter → List (List Lexeme)
  | [] => []
  | parameter :: rest => parameter.lexemes :: parameterLexemes rest

/-- The lexemes of a member, without the semicolon behind it. -/
def Member.lexemes : Member → List Lexeme
  | .call signature => signature.lexemes
  | .construct signature => [.word .newWord] ++ signature.lexemes
  | .index parameter type => [.mark .bracketOpen] ++ (parameter.lexemes
    ++ ([.mark .bracketClose] ++ ([.mark .colon] ++ type.lexemes)))
  | .property name optional type => [.ofSpelling name]
    ++ (optionalLexemes optional ++ clauseLexemes (.mark .colon) type)
  | .method name optional signature => [.ofSpelling name]
    ++ (optionalLexemes optional ++ signature.lexemes)
  | .static member => [.word .staticWord] ++ member.lexemes

/-- The lexemes of each of several members. -/
def memberLexemes : List Member → List (List Lexeme)
  | [] => []
  | member :: rest => member.lexemes :: memberLexemes rest

end

end Facade
