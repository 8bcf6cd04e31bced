import Facade.Declaration.TypeReader
import Facade.Text.Place

/-!
# Reading declaration files

A declaration starts with any number of `export` and `declare`, which change nothing, and goes on
with the word that tells its kind. Statements that the reader knows but has no form for are kept as
they are written: imports, enumerations, modules named by a string, and exports of anything but a
declaration. `splitStatement` finds the end of such a statement by counting brackets.

`Document.ofText` reads a whole file. Reading needs the characters of the file for the statements
that are kept as they are written, and for nothing else; the readers take them as a parameter.
-/

set_option autoImplicit false

namespace Facade

/-- A declaration file, with remarks on the rest parameters that lost their dots. -/
structure Document where
  declarations : List Declaration
  lost : List LostRest

namespace Reader

/-! ### Statements that are kept as they are written -/

/-- Whether the tokens start a statement that is kept as it is written. -/
def startsStatement (tokens : List Token) : Bool :=
  match tokens.head?.map Token.lexeme, tokens.tail.head?.map Token.lexeme with
  | some (.word .importWord), _ | some (.word .enumWord), _ => true
  | some (.word .constWord), some (.word .enumWord) => true
  | some (.word .exportWord), some (.mark m) => m ∈ [.assign, .braceOpen, .star]
  | some (.word .exportWord), some (.word .defaultWord) => true
  | some (.word .exportWord), some (.name text) => text == "as"
  | some (.word .moduleWord), some (.string _) => true
  | _, _ => false

/-- Takes the words that change nothing off the front of a declaration, and tells whether a
statement that is kept as it is written comes behind them. -/
def splitModifierWords : List Token → Bool × List Token
  | [] => (false, [])
  | token :: rest =>
    if startsStatement (token :: rest) then (true, token :: rest)
    else if token.lexeme = .word .exportWord || token.lexeme = .word .declareWord then
      splitModifierWords rest
    else (false, token :: rest)

/-- How the walk over a statement ends: behind its last token, at a closing bracket that none of its
own opens, or at the end of the text inside brackets. -/
inductive StatementEnd where
  | done (stop : Nat) (rest : List Token)
  | stray (rest : List Token)
  | unclosed

/-- Walks over a statement. It ends behind a semicolon outside brackets, or behind a brace that
closes the last open bracket and a semicolon that may follow that, or before a closing brace that
belongs to what encloses it. Brackets are counted without regard to their kind. `stop` is where the
last token ended. -/
def splitStatement : (depth stop : Nat) → List Token → StatementEnd
  | 0, stop, [] => .done stop []
  | _ + 1, _, [] => .unclosed
  | depth, stop, token :: rest =>
    match token.lexeme, depth with
    -- The brace closes the namespace around the statement.
    | .mark .braceClose, 0 => .done stop (token :: rest)
    | .mark .parenClose, 0 | .mark .bracketClose, 0 => .stray (token :: rest)
    | .mark .semicolon, 0 => .done token.stop rest
    | .mark .braceClose, 1 =>
      match rest with
      | ⟨.mark .semicolon, _, behind⟩ :: rest => .done behind rest
      | rest => .done token.stop rest
    | .mark .parenOpen, _ | .mark .bracketOpen, _ | .mark .braceOpen, _ =>
      splitStatement (depth + 1) token.stop rest
    | .mark .parenClose, _ | .mark .bracketClose, _ | .mark .braceClose, _ =>
      splitStatement (depth - 1) token.stop rest
    | _, _ => splitStatement depth token.stop rest

/-- A statement that is kept as it is written, from the position where its declaration starts. -/
def statement (text : List Char) (position : Nat) : Reader Declaration := fun stream =>
  match splitStatement 0 position stream.tokens with
  | .done stop rest =>
    .ok ⟨.unsupported (String.ofList (Text.slice text position stop)), [],
      { stream with tokens := rest }⟩
  | .stray rest => fail .declaration { stream with tokens := rest }
  | .unclosed => fail .closingBracket { stream with tokens := [] }

/-! ### Declarations -/

/-- Takes a semicolon if there is one. -/
def optionalSemicolon : Reader Unit := do
  let _ ← accept (.mark .semicolon)

/-- Types behind a word, if the word comes next. -/
def typesAfter (w : Word) : Reader (List TypeExpr) := do
  if ← accept (.word w) then separated TypeExpr.reader .comma else return []

/-- A variable, behind the word that introduces it. -/
def variableBody : Reader Declaration := do
  let name ← bindingName
  let type ← typeAfter TypeExpr.reader (.mark .colon)
  optionalSemicolon
  return .variable name type

/-- A function, behind its first word. -/
def functionBody : Reader Declaration := do
  let name ← bindingName
  let signature ← signature TypeExpr.reader
  optionalSemicolon
  return .function name signature

/-- An interface, behind its first word. -/
def interfaceBody : Reader Declaration := do
  let name ← bindingName
  let typeParameters ← typeParameters TypeExpr.reader
  let parents ← typesAfter .extendsWord
  return .interface name typeParameters parents (← members TypeExpr.reader)

/-- A class, behind its first word. -/
def classBody : Reader Declaration := do
  let name ← bindingName
  let typeParameters ← typeParameters TypeExpr.reader
  let parent ← typeAfter TypeExpr.reader (.word .extendsWord)
  let interfaces ← typesAfter .implementsWord
  return .class name typeParameters parent interfaces (← members TypeExpr.reader)

/-- A type alias, behind its first word. -/
def aliasBody : Reader Declaration := do
  let name ← bindingName
  let typeParameters ← typeParameters TypeExpr.reader
  expect .assign
  let type ← TypeExpr.reader
  optionalSemicolon
  return .alias name typeParameters type

/-- Declarations with semicolons between them, up to where a test says to stop. What stands there is
left in place. -/
def declarations (stops : Option Lexeme → Bool) (declaration : Reader Declaration) :
    Reader (List Declaration) :=
  recursive (pure []) fun more => do
    if stops (← look Stream.next?) then return []
    if ← accept (.mark .semicolon) then more
    else return (← declaration) :: (← more)

/-- A namespace, behind its first word. -/
def namespaceBody (declaration : Reader Declaration) : Reader Declaration := do
  let path ← separated bindingName .dot
  expect .braceOpen
  let stops (next : Option Lexeme) := next == some (.mark .braceClose) || next.isNone
  let inner ← declarations stops declaration
  expect .braceClose
  return .namespace path inner

/-- A declaration behind the words that change nothing. -/
def declarationBody (declaration : Reader Declaration) : Reader Declaration := do
  match ← look Stream.next? with
  | some (.word .varWord) | some (.word .letWord) | some (.word .constWord) =>
    skip
    variableBody
  | some (.word .functionWord) =>
    skip
    functionBody
  | some (.word .interfaceWord) =>
    skip
    interfaceBody
  | some (.word .classWord) =>
    skip
    classBody
  | some (.word .typeWord) =>
    -- Only a name behind it makes `type` the first word of an alias.
    if ((← look Stream.second?).bind Lexeme.bindingName?).isSome then
      skip
      aliasBody
    else fail .declaration
  | some (.word .moduleWord) | some (.word .namespaceWord) =>
    skip
    namespaceBody declaration
  | _ => fail .declaration

/-- A declaration, or a statement that is kept as it is written. -/
def declarationOrStatement (text : List Char) (declaration : Reader Declaration) :
    Reader Declaration := do
  let position ← look Stream.position
  if ← take splitModifierWords then statement text position else declarationBody declaration

/-- The reader of declarations of a text. -/
def declaration (text : List Char) : Reader Declaration :=
  recursive (fail .declaration) (declarationOrStatement text)

end Reader

namespace Document

/-- Reads all tokens of a text. -/
def ofStream (text : List Char) (stream : Stream) : Except SyntaxError Document :=
  match Reader.declarations Option.isNone (Reader.declaration text) stream with
  | .ok reading => .ok ⟨reading.value, reading.lost⟩
  | .error error => .error error

/-- Reads a declaration file. -/
def ofText (text : String) : Except SyntaxError Document :=
  match Token.scan text with
  | .ok tokens => ofStream text.toList ⟨tokens, text.utf8ByteSize⟩
  | .error error => .error (.ofScan error)

end Document

/-- The place of an error in the text that it is about. -/
def SyntaxError.place (error : SyntaxError) (text : String) : Text.Place :=
  Text.Place.ofByte text.toList error.position

end Facade
