/-!
# Tokens

A declaration file is a sequence of tokens: names, reserved words, marks, and literals of strings
and numbers. `Word` and `Mark` are the closed sets of reserved words and marks, each with its
spelling; `Word.ofText?` reads a word back, and `Mark.leading?` finds the longest mark that a text
starts with. A `Lexeme` is what a token is, without its place, and a `Token` adds the two byte
offsets between which it stands.

Reserved words are reserved only in places: `Lexeme.bindingName?` is the name that a lexeme gives to
a variable, a parameter or a type, and `Lexeme.propertyName?` the one that it gives to a member,
where every word will do.
-/

set_option autoImplicit false

namespace Facade

/-- The reserved words. -/
inductive Word where
  | breakWord | caseWord | catchWord | classWord | constWord | continueWord | debuggerWord
  | defaultWord | deleteWord | doWord | elseWord | enumWord | exportWord | extendsWord
  | falseWord | finallyWord | forWord | functionWord | ifWord | implementsWord | importWord
  | inWord | instanceofWord | letWord | newWord | nullWord | packageWord | privateWord
  | protectedWord | publicWord | returnWord | staticWord | superWord | switchWord
  | thisWord | throwWord | trueWord | tryWord | typeofWord | varWord | whileWord | withWord
  | yieldWord | declareWord | interfaceWord | moduleWord | namespaceWord | typeWord
  | anyWord | voidWord | numberWord | boolWord | booleanWord | stringWord
deriving DecidableEq

namespace Word

/-- How a word is written. -/
def spelling : Word → String
  | .breakWord => "break"
  | .caseWord => "case"
  | .catchWord => "catch"
  | .classWord => "class"
  | .constWord => "const"
  | .continueWord => "continue"
  | .debuggerWord => "debugger"
  | .defaultWord => "default"
  | .deleteWord => "delete"
  | .doWord => "do"
  | .elseWord => "else"
  | .enumWord => "enum"
  | .exportWord => "export"
  | .extendsWord => "extends"
  | .falseWord => "false"
  | .finallyWord => "finally"
  | .forWord => "for"
  | .functionWord => "function"
  | .ifWord => "if"
  | .implementsWord => "implements"
  | .importWord => "import"
  | .inWord => "in"
  | .instanceofWord => "instanceof"
  | .letWord => "let"
  | .newWord => "new"
  | .nullWord => "null"
  | .packageWord => "package"
  | .privateWord => "private"
  | .protectedWord => "protected"
  | .publicWord => "public"
  | .returnWord => "return"
  | .staticWord => "static"
  | .superWord => "super"
  | .switchWord => "switch"
  | .thisWord => "this"
  | .throwWord => "throw"
  | .trueWord => "true"
  | .tryWord => "try"
  | .typeofWord => "typeof"
  | .varWord => "var"
  | .whileWord => "while"
  | .withWord => "with"
  | .yieldWord => "yield"
  | .declareWord => "declare"
  | .interfaceWord => "interface"
  | .moduleWord => "module"
  | .namespaceWord => "namespace"
  | .typeWord => "type"
  | .anyWord => "any"
  | .voidWord => "void"
  | .numberWord => "number"
  | .boolWord => "bool"
  | .booleanWord => "boolean"
  | .stringWord => "string"

/-- Every reserved word. -/
def all : List Word :=
  [.breakWord, .caseWord, .catchWord, .classWord, .constWord, .continueWord, .debuggerWord,
   .defaultWord, .deleteWord, .doWord, .elseWord, .enumWord, .exportWord, .extendsWord,
   .falseWord, .finallyWord, .forWord, .functionWord, .ifWord, .implementsWord,
   .importWord, .inWord, .instanceofWord, .letWord, .newWord, .nullWord, .packageWord,
   .privateWord, .protectedWord, .publicWord, .returnWord, .staticWord, .superWord,
   .switchWord, .thisWord, .throwWord, .trueWord, .tryWord, .typeofWord, .varWord,
   .whileWord, .withWord, .yieldWord, .declareWord, .interfaceWord, .moduleWord,
   .namespaceWord, .typeWord, .anyWord, .voidWord, .numberWord, .boolWord, .booleanWord,
   .stringWord]

/-- The reserved word with a spelling. -/
def ofText? (text : String) : Option Word :=
  all.find? fun word => word.spelling == text

/-- The words that may also name a variable, a parameter or a type. -/
def canBind : Word → Bool
  | .declareWord | .moduleWord | .namespaceWord | .typeWord | .anyWord | .numberWord
  | .boolWord | .booleanWord | .stringWord | .letWord | .staticWord | .yieldWord
  | .packageWord | .privateWord | .protectedWord | .publicWord | .implementsWord
  | .interfaceWord => true
  | _ => false

/-- A spelling stands for one word only, so reading it back gives that word. -/
theorem ofText?_spelling (word : Word) : ofText? word.spelling = some word := by
  cases word <;> rfl

end Word

/-- The marks: brackets, separators and operators. -/
inductive Mark where
  | shiftRightUnsigned | strictEqual | strictUnequal | ellipsis | arrow | equal | unequal
  | atMost | atLeast | andAnd | orOr | increment | decrement | plusAssign | minusAssign
  | starAssign | slashAssign | percentAssign | ampersandAssign | barAssign | caretAssign
  | shiftLeft | shiftRight | parenOpen | parenClose | braceOpen | braceClose | bracketOpen
  | bracketClose | less | greater | comma | semicolon | colon | dot | question | assign
  | plus | minus | star | slash | percent | ampersand | bar | caret | bang | tilde | at
deriving DecidableEq

namespace Mark

/-- The characters a mark is written with. -/
def chars : Mark → List Char
  | .shiftRightUnsigned => ['>', '>', '>']
  | .strictEqual => ['=', '=', '=']
  | .strictUnequal => ['!', '=', '=']
  | .ellipsis => ['.', '.', '.']
  | .arrow => ['=', '>']
  | .equal => ['=', '=']
  | .unequal => ['!', '=']
  | .atMost => ['<', '=']
  | .atLeast => ['>', '=']
  | .andAnd => ['&', '&']
  | .orOr => ['|', '|']
  | .increment => ['+', '+']
  | .decrement => ['-', '-']
  | .plusAssign => ['+', '=']
  | .minusAssign => ['-', '=']
  | .starAssign => ['*', '=']
  | .slashAssign => ['/', '=']
  | .percentAssign => ['%', '=']
  | .ampersandAssign => ['&', '=']
  | .barAssign => ['|', '=']
  | .caretAssign => ['^', '=']
  | .shiftLeft => ['<', '<']
  | .shiftRight => ['>', '>']
  | .parenOpen => ['(']
  | .parenClose => [')']
  | .braceOpen => ['{']
  | .braceClose => ['}']
  | .bracketOpen => ['[']
  | .bracketClose => [']']
  | .less => ['<']
  | .greater => ['>']
  | .comma => [',']
  | .semicolon => [';']
  | .colon => [':']
  | .dot => ['.']
  | .question => ['?']
  | .assign => ['=']
  | .plus => ['+']
  | .minus => ['-']
  | .star => ['*']
  | .slash => ['/']
  | .percent => ['%']
  | .ampersand => ['&']
  | .bar => ['|']
  | .caret => ['^']
  | .bang => ['!']
  | .tilde => ['~']
  | .at => ['@']

/-- Every mark, the longer before the shorter. -/
def all : List Mark :=
  [.shiftRightUnsigned, .strictEqual, .strictUnequal, .ellipsis, .arrow, .equal, .unequal,
   .atMost, .atLeast, .andAnd, .orOr, .increment, .decrement, .plusAssign, .minusAssign,
   .starAssign, .slashAssign, .percentAssign, .ampersandAssign, .barAssign, .caretAssign,
   .shiftLeft, .shiftRight, .parenOpen, .parenClose, .braceOpen, .braceClose, .bracketOpen,
   .bracketClose, .less, .greater, .comma, .semicolon, .colon, .dot, .question, .assign,
   .plus, .minus, .star, .slash, .percent, .ampersand, .bar, .caret, .bang, .tilde, .at]

/-- The longest mark that a text starts with. -/
def leading? (text : List Char) : Option Mark :=
  all.find? fun mark => mark.chars.isPrefixOf text

/-- How a mark is written. -/
def spelling (mark : Mark) : String :=
  String.ofList mark.chars

/-- Whether messages write the mark out. The operators that no declaration is made of are only
called operators. -/
def isNamed : Mark → Bool
  | .parenOpen | .parenClose | .braceOpen | .braceClose | .bracketOpen | .bracketClose
  | .less | .greater | .comma | .semicolon | .colon | .dot | .ellipsis | .question | .arrow
  | .assign | .bar | .ampersand | .shiftRight | .shiftRightUnsigned | .atLeast => true
  | _ => false

/-- A closing angle bracket may be the first character of a longer mark. This is what remains of
the mark behind it: nothing of `>` itself, and no answer if the mark does not start with it. -/
def behindAngle? : Mark → Option (Option Mark)
  | .greater => some none
  | .shiftRight => some (some .greater)
  | .shiftRightUnsigned => some (some .shiftRight)
  | .atLeast => some (some .assign)
  | _ => none

/-- No mark is empty. -/
theorem chars_ne_nil (mark : Mark) : mark.chars ≠ [] := by
  cases mark <;> simp [chars]

end Mark

/-- What a token is: a name, a reserved word, a mark, a string by its value, or a number by its
spelling. -/
inductive Lexeme where
  | name (text : String)
  | word (word : Word)
  | mark (mark : Mark)
  | string (value : String)
  | number (text : String)
deriving DecidableEq

namespace Lexeme

/-- How messages speak of a lexeme. -/
def describe : Lexeme → String
  | .name text => "identifier `" ++ text ++ "`"
  | .word w => "keyword `" ++ w.spelling ++ "`"
  | .mark m => "`" ++ (if m.isNamed then m.spelling else "operator") ++ "`"
  | .string _ => "string literal"
  | .number _ => "number literal"

/-- The name that the lexeme gives to a variable, a parameter or a type. -/
def bindingName? : Lexeme → Option String
  | .name text => some text
  | .word w => if w.canBind then some w.spelling else none
  | _ => none

/-- The name that the lexeme gives to a member. -/
def propertyName? : Lexeme → Option String
  | .name text => some text
  | .word w => some w.spelling
  | .string value => some value
  | .number text => some text
  | .mark _ => none

end Lexeme

/-- How messages speak of what comes next, which may be the end of the text. -/
def describeNext : Option Lexeme → String
  | some lexeme => lexeme.describe
  | none => "end of input"

/-- A lexeme and the byte offsets between which it stands. -/
structure Token where
  lexeme : Lexeme
  start : Nat
  stop : Nat
deriving DecidableEq

end Facade
