import Facade.Proofs.Declaration.Moved
import Facade.Proofs.Token.Lines

/-!
# Where a statement ends that is kept as it is written

A statement without a form of its own is well bracketed and ends at its first semicolon outside
brackets. The walk over it counts brackets, and inside of brackets that is enough:
`splitStatement_balanced`. Outside, it also stops behind a closing brace, so it comes as far as the
semicolon only if a brace group is the last thing in front of that (`BracesLast`).
`unsupported_kept_iff` says this of files: the statement becomes one declaration with its text, and
what comes behind is read as it is by itself, exactly if no brace group stands in the middle.
-/

set_option autoImplicit false

namespace Facade

open Facade.Text (byteLength slice)

/-! ### Brackets -/

/-- What closes a bracket. -/
def Mark.closing? : Mark → Option Mark
  | .parenOpen => some .parenClose
  | .bracketOpen => some .bracketClose
  | .braceOpen => some .braceClose
  | _ => none

/-- Whether a lexeme opens or closes a bracket. -/
def Lexeme.isBracket : Lexeme → Bool
  | .mark m => m ∈ [.parenOpen, .parenClose, .bracketOpen, .bracketClose, .braceOpen, .braceClose]
  | _ => false

/-- Two tokens that are the ends of a bracket. -/
def Encloses (opening closing : Token) : Prop :=
  ∃ m close, opening.lexeme = .mark m ∧ closing.lexeme = .mark close ∧ m.closing? = some close

/-- Tokens in which every bracket is closed by one of its kind. -/
inductive Balanced : List Token → Prop where
  | nil : Balanced []
  | plain {token : Token} {rest : List Token} :
      token.lexeme.isBracket = false → Balanced rest → Balanced (token :: rest)
  | group {opening closing : Token} {inner rest : List Token} :
      Encloses opening closing → Balanced inner → Balanced rest →
      Balanced (opening :: (inner ++ closing :: rest))

/-- Balanced tokens without a semicolon outside brackets. -/
inductive Bracketed : List Token → Prop where
  | nil : Bracketed []
  | plain {token : Token} {rest : List Token} :
      token.lexeme.isBracket = false → token.lexeme ≠ .mark .semicolon → Bracketed rest →
      Bracketed (token :: rest)
  | group {opening closing : Token} {inner rest : List Token} :
      Encloses opening closing → Balanced inner → Bracketed rest →
      Bracketed (opening :: (inner ++ closing :: rest))

/-- Such tokens in which nothing follows a brace group that is in no other bracket. Any group may
come last. -/
inductive BracesLast : List Token → Prop where
  | nil : BracesLast []
  | plain {token : Token} {rest : List Token} :
      token.lexeme.isBracket = false → token.lexeme ≠ .mark .semicolon → BracesLast rest →
      BracesLast (token :: rest)
  | group {opening closing : Token} {inner rest : List Token} :
      Encloses opening closing → closing.lexeme ≠ .mark .braceClose → Balanced inner →
      BracesLast rest → BracesLast (opening :: (inner ++ closing :: rest))
  | last {opening closing : Token} {inner : List Token} :
      Encloses opening closing → Balanced inner → BracesLast (opening :: (inner ++ [closing]))

/-- What encloses something is a bracket. -/
theorem Encloses.isBracket {opening closing : Token} (h : Encloses opening closing) :
    opening.lexeme.isBracket = true := by
  obtain ⟨m, close, hopening, -, hclose⟩ := h
  rw [hopening]
  cases m <;> cases hclose <;> rfl

/-- Behind a token that is no bracket, the last group of braces is still the last. -/
theorem BracesLast.tail_of_plain {token : Token} {rest : List Token}
    (h : BracesLast (token :: rest)) (hplain : token.lexeme.isBracket = false) :
    BracesLast rest := by
  cases h with
  | plain _ _ hrest => exact hrest
  | group hencloses => cases hencloses.isBracket.symm.trans hplain
  | last hencloses => cases hencloses.isBracket.symm.trans hplain

/-- A brace group is closed at the very end. -/
theorem BracesLast.getLast?_of_brace {opening : Token} {rest : List Token}
    (h : BracesLast (opening :: rest)) (hbrace : opening.lexeme = .mark .braceOpen) :
    ∃ last, rest.getLast? = some last ∧ last.lexeme = .mark .braceClose := by
  have hcloses : ∀ {closing : Token}, Encloses opening closing →
      closing.lexeme = .mark .braceClose := by
    rintro closing ⟨m, close, hopening, hclosing, hclose⟩
    cases hbrace.symm.trans hopening
    cases hclose
    exact hclosing
  cases h with
  | plain hplain =>
    rw [hbrace] at hplain
    cases hplain
  | group hencloses hnot => exact absurd (hcloses hencloses) hnot
  | last hencloses => exact ⟨_, List.getLast?_concat, hcloses hencloses⟩

namespace Reader

/-! ### The walk -/

/-- An opening bracket makes the walk go one bracket deeper. -/
theorem splitStatement_open {opening closing : Token} (h : Encloses opening closing)
    (depth stop : Nat) (rest : List Token) : splitStatement depth stop (opening :: rest)
      = splitStatement (depth + 1) opening.stop rest := by
  obtain ⟨m, close, hopening, -, hclose⟩ := h
  obtain ⟨lexeme, start, behind⟩ := opening
  cases (hopening : lexeme = .mark m)
  match depth with
  | 0 | 1 | _ + 2 => cases m <;> first | rfl | cases hclose

/-- A bracket that is closed inside of another. -/
theorem splitStatement_close {opening closing : Token} (h : Encloses opening closing)
    (depth stop : Nat) (rest : List Token) : splitStatement (depth + 2) stop (closing :: rest)
      = splitStatement (depth + 1) closing.stop rest := by
  obtain ⟨m, close, -, hclosing, hclose⟩ := h
  obtain ⟨lexeme, start, behind⟩ := closing
  cases (hclosing : lexeme = .mark close)
  cases m <;> cases hclose <;> rfl

/-- A bracket that is no brace may be closed in the middle of a statement. -/
theorem splitStatement_closeLast {opening closing : Token} (h : Encloses opening closing)
    (hbrace : closing.lexeme ≠ .mark .braceClose) (stop : Nat) (rest : List Token) :
    splitStatement 1 stop (closing :: rest) = splitStatement 0 closing.stop rest := by
  obtain ⟨m, close, -, hclosing, hclose⟩ := h
  obtain ⟨lexeme, start, behind⟩ := closing
  cases (hclosing : lexeme = .mark close)
  cases m <;> cases hclose <;> first | rfl | exact absurd rfl hbrace

/-- Inside of brackets, the walk passes over everything that is no bracket. -/
theorem splitStatement_plain {token : Token} (h : token.lexeme.isBracket = false)
    (depth stop : Nat) (rest : List Token) : splitStatement (depth + 1) stop (token :: rest)
      = splitStatement (depth + 1) token.stop rest := by
  obtain ⟨lexeme, start, behind⟩ := token
  match depth with
  | 0 | _ + 1 =>
    cases lexeme with
    | mark m => cases m <;> first | rfl | cases h
    | _ => rfl

/-- Outside of them, it passes over everything but semicolons. -/
theorem splitStatement_plainOutside {token : Token} (h : token.lexeme.isBracket = false)
    (hsemicolon : token.lexeme ≠ .mark .semicolon) (stop : Nat) (rest : List Token) :
    splitStatement 0 stop (token :: rest) = splitStatement 0 token.stop rest := by
  refine splitStatement_of_isIdle ?_ 0 stop rest
  obtain ⟨lexeme, start, behind⟩ := token
  cases lexeme with
  | mark m => cases m <;> first | rfl | exact absurd rfl hsemicolon | cases h
  | _ => rfl

/-- Inside of a bracket, balanced tokens are walked over. -/
theorem splitStatement_balanced {tokens : List Token} (h : Balanced tokens) (depth stop : Nat)
    (rest : List Token) : ∃ behind, splitStatement (depth + 1) stop (tokens ++ rest)
      = splitStatement (depth + 1) behind rest := by
  induction h generalizing depth stop rest with
  | nil => exact ⟨stop, rfl⟩
  | plain hplain _ ih =>
    rw [List.cons_append, splitStatement_plain hplain]
    exact ih depth _ rest
  | @group opening closing inner more hencloses _ _ ihinner ihmore =>
    obtain ⟨behind, hinner⟩ := ihinner (depth + 1) opening.stop (closing :: (more ++ rest))
    obtain ⟨last, hmore⟩ := ihmore depth closing.stop rest
    refine ⟨last, ?_⟩
    simp only [List.cons_append, List.append_assoc]
    rw [splitStatement_open hencloses, hinner, splitStatement_close hencloses, hmore]

/-- A bracket outside brackets is walked over up to its end. -/
theorem splitStatement_group {opening closing : Token} {inner : List Token}
    (h : Encloses opening closing) (hinner : Balanced inner) (stop : Nat) (rest : List Token) :
    ∃ behind, splitStatement 0 stop (opening :: (inner ++ closing :: rest))
      = splitStatement 1 behind (closing :: rest) := by
  rw [splitStatement_open h]
  exact splitStatement_balanced hinner 0 opening.stop (closing :: rest)

/-- A closing brace outside brackets belongs to the statement with a semicolon behind it. -/
theorem splitStatement_brace_semicolon {closing semicolon : Token}
    (hbrace : closing.lexeme = .mark .braceClose) (h : semicolon.lexeme = .mark .semicolon)
    (stop : Nat) (rest : List Token) :
    splitStatement 1 stop (closing :: semicolon :: rest) = .done semicolon.stop rest := by
  obtain ⟨lexeme, start, behind⟩ := closing
  obtain ⟨lexeme', start', behind'⟩ := semicolon
  cases (hbrace : lexeme = .mark .braceClose)
  cases (h : lexeme' = .mark .semicolon)
  rfl

/-- Anything else behind a closing brace is left in place. -/
theorem splitStatement_brace {closing next : Token} (hbrace : closing.lexeme = .mark .braceClose)
    (h : next.lexeme ≠ .mark .semicolon) (stop : Nat) (rest : List Token) :
    splitStatement 1 stop (closing :: next :: rest) = .done closing.stop (next :: rest) := by
  obtain ⟨lexeme, start, behind⟩ := closing
  obtain ⟨lexeme', start', behind'⟩ := next
  cases (hbrace : lexeme = .mark .braceClose)
  cases lexeme' with
  | mark m => cases m <;> first | rfl | exact absurd rfl h
  | _ => rfl

variable {tokens rest : List Token} {semicolon : Token}

/-- A statement with its brace group at the end is walked over up to the semicolon behind it. -/
theorem splitStatement_bracesLast (h : BracesLast tokens)
    (hsemicolon : semicolon.lexeme = .mark .semicolon) (stop : Nat) (rest : List Token) :
    splitStatement 0 stop (tokens ++ semicolon :: rest) = .done semicolon.stop rest := by
  induction h generalizing stop with
  | nil =>
    obtain ⟨lexeme, start, behind⟩ := semicolon
    cases (hsemicolon : lexeme = .mark .semicolon)
    rfl
  | plain hplain hnot _ ih =>
    rw [List.cons_append, splitStatement_plainOutside hplain hnot]
    exact ih _
  -- A group inside brackets other than braces never ends the statement.
  | group hencloses hbrace hinner _ ih =>
    simp only [List.cons_append, List.append_assoc]
    obtain ⟨behind, hgroup⟩ := splitStatement_group hencloses hinner stop _
    rw [hgroup, splitStatement_closeLast hencloses hbrace]
    exact ih _
  | @last opening closing inner hencloses hinner =>
    simp only [List.cons_append, List.append_assoc, List.nil_append]
    obtain ⟨behind, hgroup⟩ := splitStatement_group hencloses hinner stop (semicolon :: rest)
    rw [hgroup]
    by_cases hbrace : closing.lexeme = .mark .braceClose
    · exact splitStatement_brace_semicolon hbrace hsemicolon _ _
    · obtain ⟨lexeme, start, behind⟩ := semicolon
      cases (hsemicolon : lexeme = .mark .semicolon)
      rw [splitStatement_closeLast hencloses hbrace]
      rfl

/-- Bracketed tokens do not start with a semicolon. -/
theorem Bracketed.head_ne_semicolon {token : Token} (h : Bracketed (token :: rest)) :
    token.lexeme ≠ .mark .semicolon := by
  cases h with
  | plain _ hnot => exact hnot
  | group hencloses =>
    intro heq
    have hbracket := hencloses.isBracket
    rw [heq] at hbracket
    cases hbracket

/-- Any other statement ends for the walk behind one of its own tokens. -/
theorem splitStatement_of_not_bracesLast (h : Bracketed tokens) : BracesLast tokens
    ∨ ∀ stop (semicolon : Token) rest, ∃ token ∈ tokens, ∃ more,
      splitStatement 0 stop (tokens ++ semicolon :: rest) = .done token.stop more := by
  induction h with
  | nil => exact .inl .nil
  | @plain token tokens hplain hnot _ ih =>
    refine ih.imp (.plain hplain hnot) fun hends stop semicolon rest => ?_
    obtain ⟨last, hin, more, hdone⟩ := hends token.stop semicolon rest
    refine ⟨last, List.mem_cons_of_mem _ hin, more, ?_⟩
    rw [List.cons_append, splitStatement_plainOutside hplain hnot, hdone]
  | @group opening closing inner tokens hencloses hinner hrest ih =>
    by_cases hbrace : closing.lexeme = .mark .braceClose
    · cases tokens with
      | nil => exact .inl (.last hencloses hinner)
      | cons next tokens =>
        -- A brace group that something other than a semicolon follows ends the statement.
        refine .inr fun stop semicolon rest =>
          ⟨closing, by simp, next :: (tokens ++ semicolon :: rest), ?_⟩
        simp only [List.cons_append, List.append_assoc]
        obtain ⟨behind, hgroup⟩ := splitStatement_group hencloses hinner stop
          (next :: (tokens ++ semicolon :: rest))
        rw [hgroup, splitStatement_brace hbrace (Bracketed.head_ne_semicolon hrest)]
    · refine ih.imp (.group hencloses hbrace hinner) fun hends stop semicolon rest => ?_
      obtain ⟨last, hin, more, hdone⟩ := hends closing.stop semicolon rest
      refine ⟨last, by simp [hin], more, ?_⟩
      simp only [List.cons_append, List.append_assoc]
      obtain ⟨behind, hgroup⟩ := splitStatement_group hencloses hinner stop _
      rw [hgroup, splitStatement_closeLast hencloses hbrace, hdone]

/-! ### Files -/

/-- A statement does not start with a semicolon. -/
theorem next?_ne_semicolon_of_startsStatement {stream : Stream}
    (h : startsStatement stream.tokens = true) : stream.next? ≠ some (.mark .semicolon) := by
  intro hnext
  obtain ⟨tokens, stop⟩ := stream
  cases tokens with
  | nil => cases h
  | cons token rest =>
    rw [startsStatement] at h
    have hfirst : token.lexeme = .mark .semicolon := Option.some.inj hnext
    simp [hfirst] at h

/-- Nor does it start at the end of a file. -/
theorem isNone_of_startsStatement {stream : Stream} (h : startsStatement stream.tokens = true) :
    stream.next?.isNone = false := by
  obtain ⟨tokens, stop⟩ := stream
  cases tokens with
  | nil => cases h
  | cons token rest => rfl

/-- Where neither the end nor a semicolon comes next, the declarations are the next one and those
behind it. -/
theorem declarations_cons {stops : Option Lexeme → Bool}
    (hangle : ∀ lexeme : Lexeme, lexeme.isAngle = true → ¬ stops (some lexeme) = true)
    (text : List Char) {stream rest : Stream} {value : Declaration}
    (hstops : stops stream.next? = false) (hnext : stream.next? ≠ some (.mark .semicolon))
    (h : declaration text stream = .ok ⟨value, [], rest⟩) :
    declarations stops (declaration text) stream
      = (declarations stops (declaration text) >>= fun more => pure (value :: more)) rest := by
  rw [declarations_bind hangle text hstops hnext, bind_of_ok h]

/-- Where a statement starts, the declarations are that and those behind it. -/
theorem declarations_statement {stream : Stream} {behind : Nat} {rest : List Token}
    (text : List Char) (h : startsStatement stream.tokens = true)
    (hsplit : splitStatement 0 stream.position stream.tokens = .done behind rest) :
    declarations Option.isNone (declaration text) stream
      = (declarations Option.isNone (declaration text) >>= fun more =>
          pure (.unsupported (String.ofList (slice text stream.position behind)) :: more))
        ⟨rest, stream.stop⟩ := by
  have hstatement : declaration text stream = .ok ⟨.unsupported (String.ofList
      (slice text stream.position behind)), [], ⟨rest, stream.stop⟩⟩ := by
    rw [declaration_eq, declarationOrStatement, bind_eq]
    simp only [look, bind_eq, take, Simulation.splitModifierWords_found h, if_pos, statement,
      hsplit, List.nil_append]
  exact declarations_cons (fun _ _ => Bool.false_ne_true) text (isNone_of_startsStatement h)
    (next?_ne_semicolon_of_startsStatement h) hstatement

/-- A statement that starts somewhere still starts there when more tokens follow. -/
theorem startsStatement_append {tokens : List Token} (h : startsStatement tokens = true)
    (more : List Token) : startsStatement (tokens ++ more) = true := by
  match tokens with
  | [] => cases h
  | _ :: _ :: _ => exact h
  | [token] =>
    rw [startsStatement] at h ⊢
    obtain ⟨lexeme, start, stop⟩ := token
    cases lexeme with
    | word w => cases w <;> first | rfl | cases h
    | _ => cases h

end Reader

/-- The text of a statement that is kept as it is written, with its tokens, up to the semicolon that
ends it. No blank space comes before it, and what comes behind it is not inside a comment, so a
semicolon is a token there. -/
structure IsStatement (run : String) (tokens : List Token) : Prop where
  scan : Token.scan (run ++ ";")
    = .ok (tokens ++ [⟨.mark .semicolon, run.utf8ByteSize, run.utf8ByteSize + 1⟩])
  front : ∀ first ∈ tokens.head?, first.start = 0
  starts : Reader.startsStatement tokens = true
  bracketed : Bracketed tokens

namespace IsStatement

variable {run text : String} {tokens more : List Token}

/-- The stream of a file that starts with the statement and goes on in the next line. -/
def before (run text : String) (tokens more : List Token) : Stream where
  tokens := tokens ++ ⟨.mark .semicolon, run.utf8ByteSize, run.utf8ByteSize + 1⟩
    :: more.map (Token.shift (run.utf8ByteSize + 2))
  stop := (run ++ ";\n" ++ text).utf8ByteSize

/-- A file that starts with the statement is read from the stream that does. -/
theorem ofText_eq (h : IsStatement run tokens) (hmore : Token.scan text = .ok more) :
    Document.ofText (run ++ ";\n" ++ text)
      = Document.ofStream (run ++ ";\n" ++ text).toList (before run text tokens more) := by
  have hchars : (run ++ ";\n" ++ text).toList = (run ++ ";").toList ++ '\n' :: text.toList := by
    simp
  have hsize : byteLength (run ++ ";").toList = run.utf8ByteSize + 1 := by
    rw [Text.byteLength_toList, String.utf8ByteSize_append]
    rfl
  have hscan : Token.scan (run ++ ";\n" ++ text) = .ok (before run text tokens more).tokens := by
    rw [Token.scan, Cursor.ofText, hchars, Cursor.tokens_lines h.scan, Cursor.tokens_moved hmore,
      hsize]
    exact congrArg Except.ok (List.append_cons _ _ _).symm
  rw [Document.ofText, hscan]
  rfl

/-- In that stream, a statement starts. -/
theorem startsStatement_before (h : IsStatement run tokens) :
    Reader.startsStatement (before run text tokens more).tokens = true :=
  Reader.startsStatement_append h.starts _

/-- That stream stands at the start of the file. -/
theorem position_before (h : IsStatement run tokens) :
    (before run text tokens more).position = 0 := by
  have hstarts := h.starts
  have hfront := h.front
  cases tokens with
  | nil => cases hstarts
  | cons first rest => exact hfront first rfl

/-- The tokens of the statement end where its text does, at the latest. -/
theorem stop_le (h : IsStatement run tokens) : ∀ token ∈ tokens, token.stop ≤ run.utf8ByteSize :=
  Cursor.stop_le_start h.scan

end IsStatement

namespace IsStatement

variable {run text : String} {tokens more rest : List Token} {behind : Nat}

/-- The file starts with the characters that the walk over the statement comes to. -/
theorem declarations_before (h : IsStatement run tokens)
    (hsplit : Reader.splitStatement 0 0 (before run text tokens more).tokens = .done behind rest) :
    Reader.declarations Option.isNone (Reader.declaration (run ++ ";\n" ++ text).toList)
        (before run text tokens more)
      = (Reader.declarations Option.isNone (Reader.declaration (run ++ ";\n" ++ text).toList)
          >>= fun all => pure (.unsupported
            (String.ofList (slice (run ++ ";\n" ++ text).toList 0 behind)) :: all))
        ⟨rest, (before run text tokens more).stop⟩ := by
  have hposition : (before run text tokens more).position = 0 := h.position_before
  have hsplit' : Reader.splitStatement 0 (before run text tokens more).position
      (before run text tokens more).tokens = .done behind rest := by
    rw [hposition]
    exact hsplit
  have hread := Reader.declarations_statement (run ++ ";\n" ++ text).toList
    h.startsStatement_before hsplit'
  rwa [hposition] at hread

/-- What comes behind the statement is the rest of the file, moved. -/
theorem moved_eq (run text : String) (tokens more : List Token) :
    Stream.moved (byteLength (run ++ ";\n").toList) ⟨more, text.utf8ByteSize⟩
      = ⟨more.map (Token.shift (run.utf8ByteSize + 2)), (before run text tokens more).stop⟩ := by
  have hsize : byteLength (run ++ ";\n").toList = run.utf8ByteSize + 2 := by
    rw [Text.byteLength_toList, String.utf8ByteSize_append]
    rfl
  rw [hsize, Stream.moved, before, String.utf8ByteSize_append, String.utf8ByteSize_append]
  exact congrArg (Stream.mk _) (Nat.add_comm _ _)

/-- Up to the semicolon, these are the characters of the statement. -/
theorem slice_semicolon (run text : String) :
    String.ofList (slice (run ++ ";\n" ++ text).toList 0 (run.utf8ByteSize + 1)) = run ++ ";" := by
  have hchars : (run ++ ";\n" ++ text).toList = (run ++ ";").toList ++ '\n' :: text.toList := by
    simp
  have hsize : run.utf8ByteSize + 1 = byteLength (run ++ ";").toList := by
    rw [Text.byteLength_toList, String.utf8ByteSize_append]
    rfl
  rw [slice, hchars, hsize, Nat.sub_zero, Text.fromByte_zero, Text.upToByte_byteLength,
    String.ofList_toList]

/-- In front of it, there are too few. -/
theorem slice_ne (text : List Char) (h : behind ≤ run.utf8ByteSize) :
    String.ofList (slice text 0 behind) ≠ run ++ ";" := by
  intro heq
  have hsize := congrArg String.utf8ByteSize heq
  have hle := Text.byteLength_upToByte_le (behind - 0) (Text.fromByte 0 text)
  rw [Text.utf8ByteSize_ofList, String.utf8ByteSize_append, slice] at hsize
  have hone : (";" : String).utf8ByteSize = 1 := rfl
  omega

end IsStatement

/-- A statement that is kept as it is written, and what comes behind it: the one becomes a
declaration with its text and the other is read as it is by itself, exactly if nothing follows a
brace group outside brackets of the statement. -/
theorem unsupported_kept_iff {run text : String} {tokens : List Token} {document : Document}
    (hrun : IsStatement run tokens) (h : Document.ofText text = .ok document) :
    (∃ lost, Document.ofText (run ++ ";\n" ++ text)
        = .ok ⟨.unsupported (run ++ ";") :: document.declarations, lost⟩)
      ↔ BracesLast tokens := by
  obtain ⟨more, reading, hmore, hreading, rfl⟩ := Document.ofText_eq_ok.mp h
  rw [hrun.ofText_eq hmore, Document.ofStream]
  constructor
  · rintro ⟨lost, hread⟩
    rcases Reader.splitStatement_of_not_bracesLast hrun.bracketed with hlast | hends
    · exact hlast
    -- The walk stops short of the semicolon, so the declaration has too few characters.
    · obtain ⟨token, hin, rest, hsplit⟩ := hends 0 _ _
      rw [hrun.declarations_before hsplit, Reader.bind_eq] at hread
      split at hread
      · rename_i reading hreading
        split at hreading
        · cases hreading
        · cases hreading
          have hall := congrArg Document.declarations (Except.ok.inj hread)
          have hfirst := Declaration.unsupported.inj (List.cons.inj hall).1
          exact absurd hfirst (IsStatement.slice_ne _ (hrun.stop_le token hin))
      · cases hread
  · intro hlast
    have hsplit : Reader.splitStatement 0 0 (IsStatement.before run text tokens more).tokens
        = .done _ _ := Reader.splitStatement_bracesLast hlast rfl 0 _
    obtain ⟨after, hafter, hvalue⟩ := Reader.declarations_moved (run ++ ";\n").toList hreading
    rw [← String.toList_append, IsStatement.moved_eq _ _ tokens] at hafter
    refine ⟨after.lost ++ [], ?_⟩
    rw [hrun.declarations_before hsplit, IsStatement.slice_semicolon, Reader.bind_eq, hafter,
      ← hvalue]
    rfl

/-- An import with a name. -/
theorem isStatement_importName : IsStatement "import a from \"b\""
    [⟨.word .importWord, 0, 6⟩, ⟨.name "a", 7, 8⟩, ⟨.name "from", 9, 13⟩,
      ⟨.string "b", 14, 17⟩] where
  scan := by decide +kernel
  front := by decide
  starts := rfl
  bracketed := .plain rfl (by decide) (.plain rfl (by decide) (.plain rfl (by decide)
    (.plain rfl (by decide) .nil)))

/-- An import with a brace group, which something follows. -/
theorem isStatement_importGroup : IsStatement "import \x7b a \x7d from \"b\""
    [⟨.word .importWord, 0, 6⟩, ⟨.mark .braceOpen, 7, 8⟩, ⟨.name "a", 9, 10⟩,
      ⟨.mark .braceClose, 11, 12⟩, ⟨.name "from", 13, 17⟩, ⟨.string "b", 18, 21⟩] where
  scan := by decide +kernel
  front := by decide
  starts := rfl
  bracketed := by
    have hname : Balanced [⟨.name "a", 9, 10⟩] := .plain rfl .nil
    exact .plain rfl (by decide) (.group ⟨.braceOpen, .braceClose, rfl, rfl, rfl⟩ hname
      (.plain rfl (by decide) (.plain rfl (by decide) .nil)))

/-- The import with a name is kept whole, and the one with a brace group is not. -/
theorem unsupported_kept_import :
    (∃ lost, Document.ofText ("import a from \"b\"" ++ ";\n" ++ "var x;")
      = .ok ⟨[.unsupported ("import a from \"b\"" ++ ";"), .variable "x" none], lost⟩)
    ∧ ¬ ∃ lost, Document.ofText ("import \x7b a \x7d from \"b\"" ++ ";\n" ++ "var x;")
      = .ok ⟨[.unsupported ("import \x7b a \x7d from \"b\"" ++ ";"), .variable "x" none],
        lost⟩ := by
  have hdocument : Document.ofText "var x;" = .ok ⟨[.variable "x" none], []⟩ := by
    with_unfolding_all rfl
  constructor
  · refine (unsupported_kept_iff isStatement_importName hdocument).mpr ?_
    exact .plain rfl (by decide) (.plain rfl (by decide) (.plain rfl (by decide)
      (.plain rfl (by decide) .nil)))
  · rw [unsupported_kept_iff isStatement_importGroup hdocument]
    intro hlast
    obtain ⟨last, hlast, hclose⟩ := (hlast.tail_of_plain rfl).getLast?_of_brace rfl
    cases hlast
    cases hclose

end Facade
