import Facade.Declaration.Basic
import Facade.Declaration.Display
import Facade.Token.Scan

/-!
# Readers of tokens

A `Stream` is what is left of the tokens of a text, and a `Reader` takes a value off a stream. It
either fails with a `SyntaxError`, or it answers with the value, the stream behind it, and remarks
on the rest parameters that lost their dots on the way. Readers form a monad: the second goes on
where the first stopped, and remarks come in the order of the text.

There is one way to recurse, `Reader.recursive`: a reader may call itself on whatever is left once
a token has been taken, so calls nest no deeper than there are tokens. To take a single `>` off a
longer mark, as `closeAngle` does, is not to take a token.
-/

set_option autoImplicit false

namespace Facade

/-- What a reader was looking for when it failed. -/
inductive Wanted where
  | mark (mark : Mark)
  | name
  | propertyName
  | type
  | declaration
  | closingBracket
deriving DecidableEq

/-- How messages speak of what was looked for. -/
def Wanted.describe : Wanted → String
  | .mark m => (Lexeme.mark m).describe
  | .name => "identifier"
  | .propertyName => "property name"
  | .type => "type"
  | .declaration => "declaration"
  | .closingBracket => "closing bracket"

/-- Why a text is no declaration file: it has a part that is no token, or a token, or its end, where
something else was wanted. -/
inductive SyntaxFault where
  | scan (fault : ScanFault)
  | expected (wanted : Wanted) (found : Option Lexeme)
deriving DecidableEq

/-- How messages speak of a fault. -/
def SyntaxFault.message : SyntaxFault → String
  | .scan fault => fault.message
  | .expected wanted found => "expected " ++ wanted.describe ++ ", found " ++ describeNext found

/-- A fault and the byte offset that it is reported at. -/
structure SyntaxError where
  fault : SyntaxFault
  position : Nat
deriving DecidableEq

/-- A fault of the scanner, as a fault of the file. -/
def SyntaxError.ofScan (error : ScanError) : SyntaxError :=
  ⟨.scan error.fault, error.position⟩

/-- A rest parameter whose three dots are dropped, because its type is none of arrays or is not
written: its name, its type, and where the dots stand. -/
structure LostRest where
  name : String
  type : Option TypeExpr
  position : Nat

/-- What is said about a rest parameter that lost its dots. -/
def LostRest.message (lost : LostRest) : String :=
  "dropping repeated marker of param `" ++ lost.name ++ "` because " ++
    match lost.type with
    | some type => "its type `" ++ type.display ++ "` is not an array type"
    | none => "it has no array type"

/-- What is left of the tokens of a text, and the byte offset where the text ends. -/
structure Stream where
  tokens : List Token
  stop : Nat
deriving DecidableEq

namespace Stream

/-- What comes next. There is nothing at the end. -/
def next? (stream : Stream) : Option Lexeme :=
  stream.tokens.head?.map Token.lexeme

/-- What comes after the next token. -/
def second? (stream : Stream) : Option Lexeme :=
  stream.tokens.tail.head?.map Token.lexeme

/-- The byte offset where the next token starts, or where the text ends. -/
def position (stream : Stream) : Nat :=
  match stream.tokens with
  | [] => stream.stop
  | token :: _ => token.start

/-- How many tokens are left. -/
def size (stream : Stream) : Nat :=
  stream.tokens.length

/-- The stream behind its next token. -/
def tail (stream : Stream) : Stream :=
  { stream with tokens := stream.tokens.tail }

end Stream

/-- What a reader answers with: a value, remarks, and the stream behind what it took. -/
structure Reading (α : Type) where
  value : α
  lost : List LostRest
  rest : Stream

/-- A reader of values. -/
def Reader (α : Type) : Type :=
  Stream → Except SyntaxError (Reading α)

namespace Reader

variable {α β : Type}

/-- Readers follow each other, the second from where the first leaves the stream. -/
instance : Monad Reader where
  pure value := fun stream => .ok ⟨value, [], stream⟩
  bind reader next := fun stream =>
    match reader stream with
    | .error error => .error error
    | .ok first =>
      match next first.value first.rest with
      | .error error => .error error
      | .ok second => .ok { second with lost := first.lost ++ second.lost }

/-- Fails at the next token, which is not what was wanted. -/
def fail (wanted : Wanted) : Reader α := fun stream =>
  .error ⟨.expected wanted stream.next?, stream.position⟩

/-- Looks at the stream and leaves it as it is. -/
def look (f : Stream → α) : Reader α := fun stream =>
  .ok ⟨f stream, [], stream⟩

/-- Takes what a function takes off the tokens. -/
def take (f : List Token → α × List Token) : Reader α := fun stream =>
  let (value, rest) := f stream.tokens
  .ok ⟨value, [], { stream with tokens := rest }⟩

/-- Leaves a remark. -/
def remark (lost : LostRest) : Reader Unit := fun stream =>
  .ok ⟨(), [lost], stream⟩

/-- Takes the next token, whatever it is. -/
def skip : Reader Unit := fun stream =>
  .ok ⟨(), [], stream.tail⟩

/-- Takes the next token if it is the given one, and tells whether it was. -/
def accept (lexeme : Lexeme) : Reader Bool := fun stream =>
  if stream.next? = some lexeme then .ok ⟨true, [], stream.tail⟩ else .ok ⟨false, [], stream⟩

/-- Takes the next token, which has to be the mark. -/
def expect (mark : Mark) : Reader Unit := do
  unless ← accept (.mark mark) do fail (.mark mark)

/-- Takes the next token if it is one that a function has an answer for. -/
def expectSome (wanted : Wanted) (f : Lexeme → Option α) : Reader α := do
  match (← look Stream.next?).bind f with
  | some value =>
    skip
    pure value
  | none => fail wanted

/-- Takes the name of a variable, a parameter or a type. -/
def bindingName : Reader String :=
  expectSome .name Lexeme.bindingName?

/-- Takes the name of a member. -/
def propertyName : Reader String :=
  expectSome .propertyName Lexeme.propertyName?

/-- Takes one `>` off the stream. Of a longer mark the rest stays, one byte further on. -/
def closeAngle : Reader Unit := fun stream =>
  match stream.tokens with
  | ⟨.mark mark, start, stop⟩ :: rest =>
    match mark.behindAngle? with
    | some none => .ok ⟨(), [], { stream with tokens := rest }⟩
    | some (some behind) =>
      .ok ⟨(), [], { stream with tokens := ⟨.mark behind, start + 1, stop⟩ :: rest }⟩
    | none => fail (.mark .greater) stream
  | _ => fail (.mark .greater) stream

/-! ### Recursion -/

/-- A reader that may call itself, but not deeper than there are tokens in a list. There it is
stuck. -/
def nested (stuck : Reader α) (body : Reader α → Reader α) : List Token → Stream →
    Except SyntaxError (Reading α)
  | [], stream => body stuck stream
  | _ :: depth, stream => body (nested stuck body depth) stream

/-- A reader that may call itself. Calls nest as deep as there are tokens left. -/
def recursive (stuck : Reader α) (body : Reader α → Reader α) : Reader α := fun stream =>
  nested stuck body stream.tokens stream

/-! ### Lists -/

/-- Items with a separator between neighbours, one item at least. -/
def separated (item : Reader α) (separator : Mark) : Reader (List α) :=
  recursive (pure []) fun more => do
    let first ← item
    if ← accept (.mark separator) then
      return first :: (← more)
    else
      return [first]

/-- Items up to a closing mark, which is left in place. A separator has to follow every item but the
last, and may follow that. -/
def separatedUntil (close : Mark) (item : Reader α) (separator : Reader Bool) :
    Reader (List α) :=
  recursive (pure []) fun more => do
    if (← look Stream.next?) = some (.mark close) then return []
    let first ← item
    if ← separator then
      return first :: (← more)
    else
      return [first]

end Reader

end Facade
