import Facade.Proofs.Checked.Scanner
import Facade.Proofs.Declaration.Respect.Declarations

/-!
# A parser that checks where it stands

The parser stands at an index in a list of cells, which ends with a cell for the end of the text.
It looks a cell up by its index, takes one off a number to count brackets down, and cuts the text
where it keeps a statement or reports an error. Each of these is checked, as the scanner checks its
cuts, and `none` again stands for the failure that no caller can handle. The errors of the grammar
are a different thing: they are answers, with the line and the column that they are reported at.

The grammar is that of the readers, written for the operations of the parser, with its loops as
loops and its counters as counters. `recursive` is the only way to go round or to call oneself: a
call more than there are cells is a failure as well.
-/

set_option autoImplicit false

namespace Facade.Checked

open Facade.Text

/-! ### What a parser does -/

/-- The cells of a text, the index where the parser stands, and what it has remarked on so far. -/
structure State where
  cells : List Cell
  pos : Nat
  lost : List LostRest

/-- An error, with the place where people find it. -/
structure Failure where
  error : SyntaxError
  place : Place

/-- What a parser does. It knows the text. -/
def Machine (α : Type) : Type :=
  List Char → State → Option (Except Failure (α × State))

/-- The difference of two numbers, which has to be one. -/
def sub? (n m : Nat) : Option Nat :=
  if m ≤ n then some (n - m) else none

/-- The offset of the last line feed. -/
def lastLineFeed? : List Char → Option Nat
  | [] => none
  | c :: rest =>
    match lastLineFeed? rest with
    | some offset => some (c.utf8Size + offset)
    | none => if c = '\n' then some 0 else none

/-- The place of an offset: the line feeds in front of it are counted, and the characters behind the
last of them. -/
def place? (text : List Char) (offset : Nat) : Option Place := do
  let front ← slice? text 0 offset
  let lineStart := (lastLineFeed? front).elim 0 (· + 1)
  let line ← slice? front lineStart (byteLength front)
  return ⟨front.count '\n' + 1, line.length + 1⟩

/-- Reports an error. -/
def report {α : Type} (text : List Char) (error : SyntaxError) : Option (Except Failure α) := do
  let position := min error.position (byteLength text)
  return .error ⟨⟨error.fault, position⟩, ← place? text position⟩

namespace Machine

variable {α β : Type}

/-- Machines follow each other, and the first that fails ends them. -/
instance : Monad Machine where
  pure value := fun _ state => some (.ok (value, state))
  bind machine next := fun text state =>
    match machine text state with
    | none => none
    | some (.error failure) => some (.error failure)
    | some (.ok (value, state)) => next value text state

/-- A failure that no caller can handle. -/
def stuck : Machine α := fun _ _ => none

/-- Goes on only with an answer. -/
def check (answer : Option α) : Machine α := fun _ state =>
  answer.map fun value => .ok (value, state)

/-- The part of the text between two offsets. -/
def cut (start stop : Nat) : Machine (List Char) := fun text =>
  check (slice? text start stop) text

/-- Where the parser stands. -/
def getState : Machine State := fun _ state =>
  some (.ok (state, state))

/-- Changes where the parser stands. -/
def modify (f : State → State) : Machine Unit := fun _ state =>
  some (.ok ((), f state))

/-- The last index of a cell. -/
def lastIndex : Machine Nat := do
  check (sub? (← getState).cells.length 1)

/-- The cell that comes a number of cells behind the next, or the last. -/
def ahead (n : Nat) : Machine Cell := do
  let state ← getState
  check state.cells[min (state.pos + n) (← lastIndex)]?

/-- What comes next. -/
def peek : Machine (Option Lexeme) := do
  return (← ahead 0).kind

/-- What comes second. -/
def peekSecond : Machine (Option Lexeme) := do
  return (← ahead 1).kind

/-- The offset where the next cell starts. -/
def position : Machine Nat := do
  return (← ahead 0).start

/-- Takes the next cell. The last is never passed. -/
def advance : Machine Cell := do
  let cell ← ahead 0
  let last ← lastIndex
  if (← getState).pos < last then modify fun state => { state with pos := state.pos + 1 }
  return cell

/-- Takes the next cell if it is a given one, and tells whether it was. -/
def accept (lexeme : Lexeme) : Machine Bool := do
  if (← peek) = some lexeme then
    let _ ← advance
    return true
  else return false

/-- Fails with an error. -/
def raise (error : SyntaxError) : Machine α := fun text _ =>
  report text error

/-- Fails at the next cell, which is not what was wanted. -/
def fail (wanted : Wanted) : Machine α := do
  let cell ← ahead 0
  raise ⟨.expected wanted cell.kind, cell.start⟩

/-- Takes the next cell, which has to be the mark. -/
def expect (mark : Mark) : Machine Unit := do
  unless ← accept (.mark mark) do fail (.mark mark)

/-- Takes the next cell if it is one that a function has an answer for. -/
def expectSome (wanted : Wanted) (f : Lexeme → Option α) : Machine α := do
  match (← peek).bind f with
  | some value =>
    let _ ← advance
    return value
  | none => fail wanted

/-- Takes the name of a variable, a parameter or a type. -/
def bindingName : Machine String :=
  expectSome .name Lexeme.bindingName?

/-- Takes the name of a member. -/
def propertyName : Machine String :=
  expectSome .propertyName Lexeme.propertyName?

/-- Writes a shorter mark over the one where the parser stands. -/
def shorten (mark : Mark) : Machine Unit := do
  let state ← getState
  let cell ← check state.cells[state.pos]?
  let shorter : Cell := ⟨some (.mark mark), cell.start + 1, cell.stop⟩
  modify fun state => { state with cells := state.cells.set state.pos shorter }

/-- Takes one `>`. Of a longer mark the rest stays where it is. -/
def closeAngle : Machine Unit := do
  match (← peek).bind fun lexeme => match lexeme with
    | .mark mark => mark.behindAngle?
    | _ => none with
  | some none =>
    let _ ← advance
  | some (some behind) => shorten behind
  | none => fail (.mark .greater)

/-- Leaves a remark. -/
def remark (lost : LostRest) : Machine Unit :=
  modify fun state => { state with lost := state.lost ++ [lost] }

/-- A body that may call itself, but only a number of times. -/
def nested (body : Machine α → Machine α) : Nat → Machine α
  | 0 => stuck
  | depth + 1 => body (nested body depth)

/-- A body that may call itself as many times as there are cells. -/
def recursive (body : Machine α → Machine α) : Machine α := fun text state =>
  nested body state.cells.length text state

/-- Items with a separator between neighbours. -/
def separated (item : Machine α) (separator : Mark) : Machine (List α) :=
  recursive fun more => do
    let first ← item
    if ← accept (.mark separator) then
      return first :: (← more)
    else
      return [first]

/-- Items up to a closing mark, which is left in place. -/
def separatedUntil (close : Mark) (item : Machine α) (separator : Machine Bool) :
    Machine (List α) :=
  recursive fun more => do
    if (← peek) = some (.mark close) then return []
    let first ← item
    if ← separator then
      return first :: (← more)
    else
      return [first]

/-! ### Signatures -/

/-- Dots with names behind them. -/
def dotted : Machine (List String) :=
  recursive fun more => do
    let dot ← peek
    let name ← peekSecond
    if dot = some (.mark .dot) ∧ (name.bind Lexeme.bindingName?).isSome then
      let _ ← advance
      let first ← bindingName
      return first :: (← more)
    else
      return []

/-- A name, qualified or not. -/
def qualifiedName : Machine (List String) := do
  let first ← bindingName
  return first :: (← dotted)

/-- A type behind a lexeme, if the lexeme comes next. -/
def typeAfter (type : Machine TypeExpr) (lexeme : Lexeme) : Machine (Option TypeExpr) := do
  if ← accept lexeme then return some (← type) else return none

/-- A type parameter with its bound and its default. -/
def typeParameter (type : Machine TypeExpr) : Machine TypeParameter := do
  let name ← bindingName
  let bound ← typeAfter type (.word .extendsWord)
  let default ← typeAfter type (.mark .assign)
  return ⟨name, bound, default⟩

/-- Type parameters in angle brackets, or none. -/
def typeParameters (type : Machine TypeExpr) : Machine (List TypeParameter) := do
  if ← accept (.mark .less) then
    let parameters ← separated (typeParameter type) .comma
    closeAngle
    return parameters
  else
    return []

/-- The type that is kept of a rest parameter whose dots stand at a position. -/
def restType (position : Nat) (name : String) (type : Option TypeExpr) :
    Machine (Option TypeExpr) :=
  match type.bind TypeExpr.arrayElement? with
  | some element => return some (.repeated element)
  | none => do
    remark ⟨name, type, position⟩
    return type

/-- A parameter. -/
def parameter (type : Machine TypeExpr) : Machine Parameter := do
  let position ← position
  let isRest ← accept (.mark .ellipsis)
  let name ← bindingName
  let optional ← accept (.mark .question)
  let annotation ← typeAfter type (.mark .colon)
  if isRest then
    return ⟨name, optional, ← restType position name annotation⟩
  else
    return ⟨name, optional, annotation⟩

/-- A parameter, or the type of the receiver, which is read over. -/
def parameterOrReceiver (type : Machine TypeExpr) : Machine (Option Parameter) := do
  if ← accept (.word .thisWord) then
    expect .colon
    let _ ← type
    return none
  else
    return some (← parameter type)

/-- Parameters in parentheses. -/
def parameters (type : Machine TypeExpr) : Machine (List Parameter) := do
  expect .parenOpen
  let all ← separatedUntil .parenClose (parameterOrReceiver type) (accept (.mark .comma))
  expect .parenClose
  return all.filterMap id

/-- A signature with a colon before its result. -/
def signature (type : Machine TypeExpr) : Machine Signature := do
  let typeParameters ← typeParameters type
  let parameters ← parameters type
  let result ← typeAfter type (.mark .colon)
  return ⟨typeParameters, parameters, result⟩

/-- A signature with an arrow before its result. -/
def functionSignature (type : Machine TypeExpr) : Machine Signature := do
  let typeParameters ← typeParameters type
  let parameters ← parameters type
  expect .arrow
  let result ← type
  return ⟨typeParameters, parameters, some result⟩

/-! ### Members -/

/-- Takes the modifiers of a member, and tells whether `static` is one of them. -/
def modifiers : Machine Bool :=
  recursive fun more => do
    let word ← peek
    let behind ← peekSecond
    if word.any Reader.isModifierWord && !Reader.endsName behind then
      let _ ← advance
      let isStatic ← more
      return isStatic || word == some (.word .staticWord)
    else
      return false

/-- A member behind its modifiers. -/
def memberBody (type : Machine TypeExpr) : Machine Member := do
  if ← accept (.mark .bracketOpen) then
    let parameter ← parameter type
    expect .bracketClose
    expect .colon
    return .index parameter (← type)
  if Reader.startsSignature (← peek) then
    return .call (← signature type)
  if (← peek) = some (.word .newWord) && Reader.startsSignature (← peekSecond) then
    let _ ← advance
    return .construct (← signature type)
  let name ← propertyName
  let optional ← accept (.mark .question)
  if Reader.startsSignature (← peek) then
    return .method name optional (← signature type)
  return .property name optional (← typeAfter type (.mark .colon))

/-- A member. -/
def member (type : Machine TypeExpr) : Machine Member := do
  let isStatic ← modifiers
  let member ← memberBody type
  return if isStatic then .static member else member

/-- Takes any semicolons. -/
def semicolons : Machine Unit :=
  recursive fun more => do
    if ← accept (.mark .semicolon) then more

/-- What separates members: a semicolon or a comma, and then any number of semicolons. -/
def memberSeparator : Machine Bool := do
  let found ← if ← accept (.mark .semicolon) then pure true else accept (.mark .comma)
  if found then semicolons
  return found

/-- Members in braces. -/
def members (type : Machine TypeExpr) : Machine (List Member) := do
  expect .braceOpen
  let members ← separatedUntil .braceClose (member type) memberSeparator
  expect .braceClose
  return members

/-! ### Types -/

/-- Looks for the parenthesis that closes the first, one cell after the other, and counts the open
ones. -/
def closesBeforeArrow : Nat × Nat → Machine ((Nat × Nat) ⊕ Bool)
  | (depth, index) => do
    let state ← getState
    if index < state.cells.length then
      match (← check state.cells[index]?).kind with
      | none => return .inr false
      | some lexeme =>
        if lexeme = .mark .parenOpen then return .inl (depth + 1, index + 1)
        else if lexeme = .mark .parenClose then
          let depth ← check (sub? depth 1)
          if depth = 0 then
            return .inr ((state.cells[index + 1]?.bind Cell.kind) == some (.mark .arrow))
          else return .inl (depth, index + 1)
        else return .inl (depth, index + 1)
    else return .inr false

/-- Whether the parenthesis that comes next opens a function type. -/
def opensFunctionType : Machine Bool := do
  let state ← getState
  loop stuck closesBeforeArrow (state.cells.length + 1) (0, state.pos)

/-- Pairs of empty brackets, by their number. -/
def brackets : Machine Nat :=
  recursive fun more => do
    let opening ← peek
    let closing ← peekSecond
    if opening = some (.mark .bracketOpen) ∧ closing = some (.mark .bracketClose) then
      let _ ← advance
      let _ ← advance
      return (← more) + 1
    else
      return 0

/-- Type arguments in angle brackets, or none. -/
def typeArguments (type : Machine TypeExpr) : Machine (List TypeExpr) := do
  if ← accept (.mark .less) then
    let arguments ← separated type .comma
    closeAngle
    return arguments
  else
    return []

/-- A type that starts with a word. -/
def wordType (type : Machine TypeExpr) (w : Word) : Machine TypeExpr :=
  match w, Reader.primitive? w with
  | _, some primitive => do
    let _ ← advance
    return .primitive primitive
  | .trueWord, _ | .falseWord, _ | .nullWord, _ | .thisWord, _ => do
    let _ ← advance
    return .literal w.spelling
  | .typeofWord, _ => do
    let _ ← advance
    return .query (← qualifiedName)
  | .newWord, _ => do
    let _ ← advance
    return .constructor (← functionSignature type)
  | _, _ => fail .type

/-- A type that starts with a mark. -/
def markType (type : Machine TypeExpr) : Mark → Machine TypeExpr
  | .minus => do
    match ← peekSecond with
    | some (.number text) =>
      let _ ← advance
      let _ ← advance
      return .literal ("-" ++ text)
    | _ => fail .type
  | .braceOpen => return .object (← members type)
  | .bracketOpen => do
    let _ ← advance
    let types ← separatedUntil .bracketClose type (accept (.mark .comma))
    expect .bracketClose
    return .tuple types
  | .parenOpen => do
    if ← opensFunctionType then
      return .function (← functionSignature type)
    else
      let _ ← advance
      let inner ← type
      expect .parenClose
      return .parenthesized inner
  | .less => return .function (← functionSignature type)
  | _ => fail .type

/-- A type without a suffix and without operators. -/
def primaryType (type : Machine TypeExpr) : Machine TypeExpr := do
  match ← peek with
  | some (.name _) =>
    let path ← qualifiedName
    return .named path (← typeArguments type)
  | some (.string value) =>
    let _ ← advance
    return .literal (Text.quoted value)
  | some (.number text) =>
    let _ ← advance
    return .literal text
  | some (.word w) => wordType type w
  | some (.mark m) => markType type m
  | none => fail .type

/-- A type with any number of empty brackets behind it. -/
def suffixedType (type : Machine TypeExpr) : Machine TypeExpr := do
  let element ← primaryType type
  let depth ← brackets
  return depth.repeat TypeExpr.array element

/-- Types joined by ampersands. -/
def intersectionType (type : Machine TypeExpr) : Machine TypeExpr := do
  return Reader.oneOrAll .intersection (← separated (suffixedType type) .ampersand)

/-- Types joined by bars. -/
def unionType (type : Machine TypeExpr) : Machine TypeExpr := do
  let _ ← accept (.mark .bar)
  return Reader.oneOrAll .union (← separated (intersectionType type) .bar)

/-- A type. -/
def typeExpr : Machine TypeExpr :=
  recursive unionType

/-! ### Statements that are kept as they are written -/

/-- Whether a statement that is kept as it is written comes next. -/
def startsStatement : Machine Bool := do
  return Simulation.opensStatement (← peek) (← peekSecond)

/-- Takes the words that change nothing, and tells whether a statement that is kept as it is written
comes behind them. -/
def modifierWords : Machine Bool :=
  recursive fun more => do
    if ← startsStatement then return true
    if ← accept (.word .exportWord) then more
    else if ← accept (.word .declareWord) then more
    else return false

/-- The marks that open a bracket. -/
def openingBrackets : List Lexeme :=
  [.mark .parenOpen, .mark .bracketOpen, .mark .braceOpen]

/-- The marks that close one. -/
def closingBrackets : List Lexeme :=
  [.mark .parenClose, .mark .bracketClose, .mark .braceClose]

/-- Takes one cell of a statement, and counts the open brackets. `stop` is where the last cell
ended. -/
def walkOne : Nat × Nat → Machine ((Nat × Nat) ⊕ Nat)
  | (depth, stop) => do
    match ← peek with
    | none => if 0 < depth then fail .closingBracket else return .inr stop
    | some lexeme =>
      if lexeme = .mark .braceClose ∧ depth = 0 then
        return .inr stop
      else if (lexeme = .mark .parenClose ∨ lexeme = .mark .bracketClose) ∧ depth = 0 then
        fail .declaration
      else
        let cell ← advance
        if lexeme ∈ openingBrackets then
          return .inl (depth + 1, cell.stop)
        else if lexeme ∈ closingBrackets then
          let depth ← check (sub? depth 1)
          if lexeme = .mark .braceClose ∧ depth = 0 then
            if (← peek) = some (.mark .semicolon) then
              return .inr (← advance).stop
            else
              return .inr cell.stop
          else
            return .inl (depth, cell.stop)
        else if lexeme = .mark .semicolon ∧ depth = 0 then
          return .inr cell.stop
        else
          return .inl (depth, cell.stop)

/-- A statement that is kept as it is written, from the position where its declaration starts. -/
def statement (start : Nat) : Machine Declaration := do
  let state ← getState
  let stop ← loop stuck walkOne (state.cells.length + 1) (0, start)
  return .unsupported (String.ofList (← cut start stop))

/-! ### Declarations -/

/-- Takes a semicolon if there is one. -/
def optionalSemicolon : Machine Unit := do
  let _ ← accept (.mark .semicolon)

/-- Types behind a word, if the word comes next. -/
def typesAfter (w : Word) : Machine (List TypeExpr) := do
  if ← accept (.word w) then separated typeExpr .comma else return []

/-- A variable, behind the word that introduces it. -/
def variableBody : Machine Declaration := do
  let name ← bindingName
  let type ← typeAfter typeExpr (.mark .colon)
  optionalSemicolon
  return .variable name type

/-- A function, behind its first word. -/
def functionBody : Machine Declaration := do
  let name ← bindingName
  let signature ← signature typeExpr
  optionalSemicolon
  return .function name signature

/-- An interface, behind its first word. -/
def interfaceBody : Machine Declaration := do
  let name ← bindingName
  let typeParameters ← typeParameters typeExpr
  let parents ← typesAfter .extendsWord
  return .interface name typeParameters parents (← members typeExpr)

/-- A class, behind its first word. -/
def classBody : Machine Declaration := do
  let name ← bindingName
  let typeParameters ← typeParameters typeExpr
  let parent ← typeAfter typeExpr (.word .extendsWord)
  let interfaces ← typesAfter .implementsWord
  return .class name typeParameters parent interfaces (← members typeExpr)

/-- A type alias, behind its first word. -/
def aliasBody : Machine Declaration := do
  let name ← bindingName
  let typeParameters ← typeParameters typeExpr
  expect .assign
  let type ← typeExpr
  optionalSemicolon
  return .alias name typeParameters type

/-- Declarations with semicolons between them, up to where a test says to stop. -/
def declarations (stops : Option Lexeme → Bool) (declaration : Machine Declaration) :
    Machine (List Declaration) :=
  recursive fun more => do
    if stops (← peek) then return []
    if ← accept (.mark .semicolon) then more
    else return (← declaration) :: (← more)

/-- A namespace, behind its first word. -/
def namespaceBody (declaration : Machine Declaration) : Machine Declaration := do
  let path ← separated bindingName .dot
  expect .braceOpen
  let stops (next : Option Lexeme) := next == some (.mark .braceClose) || next.isNone
  let inner ← declarations stops declaration
  expect .braceClose
  return .namespace path inner

/-- A declaration behind the words that change nothing. -/
def declarationBody (declaration : Machine Declaration) : Machine Declaration := do
  match ← peek with
  | some (.word .varWord) | some (.word .letWord) | some (.word .constWord) =>
    let _ ← advance
    variableBody
  | some (.word .functionWord) =>
    let _ ← advance
    functionBody
  | some (.word .interfaceWord) =>
    let _ ← advance
    interfaceBody
  | some (.word .classWord) =>
    let _ ← advance
    classBody
  | some (.word .typeWord) =>
    if ((← peekSecond).bind Lexeme.bindingName?).isSome then
      let _ ← advance
      aliasBody
    else fail .declaration
  | some (.word .moduleWord) | some (.word .namespaceWord) =>
    let _ ← advance
    namespaceBody declaration
  | _ => fail .declaration

/-- A declaration, or a statement that is kept as it is written. -/
def declarationOrStatement (declaration : Machine Declaration) : Machine Declaration := do
  let position ← position
  if ← modifierWords then statement position else declarationBody declaration

/-- A declaration. -/
def declaration : Machine Declaration :=
  recursive declarationOrStatement

/-- A whole file. -/
def document : Machine Document := do
  let declarations ← declarations Option.isNone declaration
  return ⟨declarations, (← getState).lost⟩

end Machine

/-- Reads a declaration file. -/
def parse (text : List Char) : Option (Except Failure Document) := do
  match ← tokenize text with
  | .error error => report text (.ofScan error)
  | .ok cells =>
    let answer ← Machine.document text ⟨cells, 0, []⟩
    return answer.map Prod.fst

end Facade.Checked
