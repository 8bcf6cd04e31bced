import Facade.Declaration.Reader
import Facade.Text.Quoted

/-!
# Reading types and members

The grammar of type expressions, of signatures, and of the members of interfaces, classes and object
types. Every part takes the reader of types as a parameter, so none of them is recursive by itself;
`TypeExpr.reader` closes the circle at the end.

A parenthesis may open a function type or enclose a type. `closesBeforeArrow` decides by looking
for the parenthesis that closes it and for the arrow behind that, so the reader never has to go
back.
-/

set_option autoImplicit false

namespace Facade

namespace Reader

/-! ### Names -/

/-- Dots with names behind them. A dot without a name behind it is left in place. -/
def splitDotted : List Token → List String × List Token
  | dot :: name :: rest =>
    if dot.lexeme = .mark .dot then
      match name.lexeme.bindingName? with
      | some text =>
        let (more, rest) := splitDotted rest
        (text :: more, rest)
      | none => ([], dot :: name :: rest)
    else ([], dot :: name :: rest)
  | tokens => ([], tokens)

/-- A name, qualified or not. -/
def qualifiedName : Reader (List String) := do
  let first ← bindingName
  let rest ← take splitDotted
  return first :: rest

/-! ### Signatures -/

/-- A type behind a lexeme, if the lexeme comes next. -/
def typeAfter (type : Reader TypeExpr) (lexeme : Lexeme) : Reader (Option TypeExpr) := do
  if ← accept lexeme then return some (← type) else return none

/-- A type parameter with its bound and its default. -/
def typeParameter (type : Reader TypeExpr) : Reader TypeParameter := do
  let name ← bindingName
  let bound ← typeAfter type (.word .extendsWord)
  let default ← typeAfter type (.mark .assign)
  return ⟨name, bound, default⟩

/-- Type parameters in angle brackets, or none. -/
def typeParameters (type : Reader TypeExpr) : Reader (List TypeParameter) := do
  if ← accept (.mark .less) then
    let parameters ← separated (typeParameter type) .comma
    closeAngle
    return parameters
  else
    return []

/-- The type that is kept of a rest parameter whose dots stand at a position. -/
def restType (position : Nat) (name : String) (type : Option TypeExpr) :
    Reader (Option TypeExpr) :=
  match type.bind TypeExpr.arrayElement? with
  | some element => return some (.repeated element)
  | none => do
    remark ⟨name, type, position⟩
    return type

/-- A parameter. -/
def parameter (type : Reader TypeExpr) : Reader Parameter := do
  -- A remark on lost dots is about the place of the dots.
  let position ← look Stream.position
  let isRest ← accept (.mark .ellipsis)
  let name ← bindingName
  let optional ← accept (.mark .question)
  let annotation ← typeAfter type (.mark .colon)
  if isRest then
    return ⟨name, optional, ← restType position name annotation⟩
  else
    return ⟨name, optional, annotation⟩

/-- A parameter, or the type of the receiver, which is read over: it constrains the callers and is
none of the parameters they pass. -/
def parameterOrReceiver (type : Reader TypeExpr) : Reader (Option Parameter) := do
  if ← accept (.word .thisWord) then
    expect .colon
    let _ ← type
    return none
  else
    return some (← parameter type)

/-- Parameters in parentheses. -/
def parameters (type : Reader TypeExpr) : Reader (List Parameter) := do
  expect .parenOpen
  let all ← separatedUntil .parenClose (parameterOrReceiver type) (accept (.mark .comma))
  expect .parenClose
  return all.filterMap id

/-- A signature with a colon before its result. -/
def signature (type : Reader TypeExpr) : Reader Signature := do
  let typeParameters ← typeParameters type
  let parameters ← parameters type
  let result ← typeAfter type (.mark .colon)
  return ⟨typeParameters, parameters, result⟩

/-- A signature with an arrow before its result, which has to be there. -/
def functionSignature (type : Reader TypeExpr) : Reader Signature := do
  let typeParameters ← typeParameters type
  let parameters ← parameters type
  expect .arrow
  let result ← type
  return ⟨typeParameters, parameters, some result⟩

/-! ### Members -/

/-- Whether the lexeme shows that the word before it was a name and no modifier. -/
def endsName : Option Lexeme → Bool
  | some (.mark m) =>
    m ∈ [.colon, .question, .parenOpen, .less, .semicolon, .comma, .braceClose]
  | _ => false

/-- The words that may modify a member. -/
def isModifierWord : Lexeme → Bool
  | .word w => w ∈ [.staticWord, .publicWord, .privateWord, .protectedWord]
  | .name text => text == "readonly" || text == "abstract"
  | _ => false

/-- Takes the modifiers off the tokens of a member, and tells whether `static` is one of them. -/
def splitModifiers : List Token → Bool × List Token
  | [] => (false, [])
  | token :: rest =>
    if isModifierWord token.lexeme && !endsName (rest.head?.map Token.lexeme) then
      let (isStatic, rest) := splitModifiers rest
      (isStatic || token.lexeme == .word .staticWord, rest)
    else
      (false, token :: rest)

/-- Whether a signature starts with the lexeme. -/
def startsSignature (next : Option Lexeme) : Bool :=
  next == some (.mark .parenOpen) || next == some (.mark .less)

/-- A member behind its modifiers. -/
def memberBody (type : Reader TypeExpr) : Reader Member := do
  if ← accept (.mark .bracketOpen) then
    let parameter ← parameter type
    expect .bracketClose
    expect .colon
    return .index parameter (← type)
  if startsSignature (← look Stream.next?) then
    return .call (← signature type)
  -- Anywhere else, `new` is the name of a member.
  if (← look Stream.next?) = some (.word .newWord) && startsSignature (← look Stream.second?) then
    skip
    return .construct (← signature type)
  let name ← propertyName
  let optional ← accept (.mark .question)
  if startsSignature (← look Stream.next?) then
    return .method name optional (← signature type)
  return .property name optional (← typeAfter type (.mark .colon))

/-- A member. -/
def member (type : Reader TypeExpr) : Reader Member := do
  let isStatic ← take splitModifiers
  let member ← memberBody type
  return if isStatic then .static member else member

/-- Takes any semicolons. -/
def splitSemicolons (tokens : List Token) : Unit × List Token :=
  ((), tokens.dropWhile (·.lexeme == .mark .semicolon))

/-- What separates members: a semicolon or a comma, and then any number of semicolons. -/
def memberSeparator : Reader Bool := do
  let found ← if ← accept (.mark .semicolon) then pure true else accept (.mark .comma)
  if found then take splitSemicolons
  return found

/-- Members in braces. -/
def members (type : Reader TypeExpr) : Reader (List Member) := do
  expect .braceOpen
  let members ← separatedUntil .braceClose (member type) memberSeparator
  expect .braceClose
  return members

/-! ### Types -/

/-- Whether the parenthesis that closes the innermost of the open ones is followed by an arrow.
Counts the open parentheses. -/
def closesBeforeArrow : Nat → List Token → Bool
  | _, [] => false
  | depth, token :: rest =>
    if token.lexeme = .mark .parenOpen then closesBeforeArrow (depth + 1) rest
    else if token.lexeme = .mark .parenClose then
      -- The parenthesis that was opened first is closed.
      if depth ≤ 1 then rest.head?.map Token.lexeme == some (.mark .arrow)
      else closesBeforeArrow (depth - 1) rest
    else closesBeforeArrow depth rest

/-- Whether the parenthesis that comes next opens a function type. -/
def opensFunctionType (stream : Stream) : Bool :=
  closesBeforeArrow 0 stream.tokens

/-- Pairs of empty brackets, by their number. -/
def splitBrackets : List Token → Nat × List Token
  | opening :: closing :: rest =>
    if opening.lexeme = .mark .bracketOpen && closing.lexeme = .mark .bracketClose then
      let (more, rest) := splitBrackets rest
      (more + 1, rest)
    else (0, opening :: closing :: rest)
  | tokens => (0, tokens)

/-- The primitive type that a word names. -/
def primitive? : Word → Option Primitive
  | .anyWord => some .any
  | .voidWord => some .void
  | .numberWord => some .number
  | .boolWord => some .bool
  | .booleanWord => some .boolean
  | .stringWord => some .string
  | _ => none

/-- Type arguments in angle brackets, or none. -/
def typeArguments (type : Reader TypeExpr) : Reader (List TypeExpr) := do
  if ← accept (.mark .less) then
    let arguments ← separated type .comma
    closeAngle
    return arguments
  else
    return []

/-- A type that starts with a word. -/
def wordType (type : Reader TypeExpr) (w : Word) : Reader TypeExpr :=
  match w, primitive? w with
  | _, some primitive => do
    skip
    return .primitive primitive
  | .trueWord, _ | .falseWord, _ | .nullWord, _ | .thisWord, _ => do
    skip
    return .literal w.spelling
  | .typeofWord, _ => do
    skip
    return .query (← qualifiedName)
  | .newWord, _ => do
    skip
    return .constructor (← functionSignature type)
  | _, _ => fail .type

/-- A type that starts with a mark. -/
def markType (type : Reader TypeExpr) : Mark → Reader TypeExpr
  | .minus => do
    match ← look Stream.second? with
    | some (.number text) =>
      skip
      skip
      return .literal ("-" ++ text)
    | _ => fail .type
  | .braceOpen => return .object (← members type)
  | .bracketOpen => do
    skip
    let types ← separatedUntil .bracketClose type (accept (.mark .comma))
    expect .bracketClose
    return .tuple types
  | .parenOpen => do
    if ← look opensFunctionType then
      return .function (← functionSignature type)
    else
      skip
      let inner ← type
      expect .parenClose
      return .parenthesized inner
  -- Only a function type starts with type parameters.
  | .less => return .function (← functionSignature type)
  | _ => fail .type

/-- A type without a suffix and without operators. -/
def primaryType (type : Reader TypeExpr) : Reader TypeExpr := do
  match ← look Stream.next? with
  | some (.name _) =>
    let path ← qualifiedName
    return .named path (← typeArguments type)
  | some (.string value) =>
    skip
    return .literal (Text.quoted value)
  | some (.number text) =>
    skip
    return .literal text
  | some (.word w) => wordType type w
  | some (.mark m) => markType type m
  | none => fail .type

/-- A type with any number of empty brackets behind it. -/
def suffixedType (type : Reader TypeExpr) : Reader TypeExpr := do
  let element ← primaryType type
  let depth ← take splitBrackets
  return depth.repeat TypeExpr.array element

/-- The only one of the types, or all of them together. -/
def oneOrAll (together : List TypeExpr → TypeExpr) : List TypeExpr → TypeExpr
  | [type] => type
  | types => together types

/-- Types joined by ampersands. -/
def intersectionType (type : Reader TypeExpr) : Reader TypeExpr :=
  oneOrAll .intersection <$> separated (suffixedType type) .ampersand

/-- Types joined by bars. A bar may also come first. -/
def unionType (type : Reader TypeExpr) : Reader TypeExpr := do
  let _ ← accept (.mark .bar)
  oneOrAll .union <$> separated (intersectionType type) .bar

end Reader

/-- The reader of type expressions. -/
def TypeExpr.reader : Reader TypeExpr :=
  Reader.recursive (Reader.fail .type) Reader.unionType

end Facade
