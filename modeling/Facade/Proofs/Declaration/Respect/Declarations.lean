import Facade.Proofs.Declaration.Respect.Types

/-!
# The readers of declarations respect simulations

Declarations are read by the same operations as types, except for the statements that are kept as
they are written: their text depends on where their last token ends. `Simulation.Verbatim` says
what that takes. Every declaration takes a token, those in a namespace included, which gives the
equations of the recursive readers of declarations.
-/

set_option autoImplicit false

namespace Facade

namespace Reader

/-! ### Namespaces -/

/-- Where the declarations of a namespace stop. -/
def closesNamespace (next : Option Lexeme) : Bool :=
  next == some (.mark .braceClose) || next.isNone

/-- An angle bracket does not close a namespace. -/
theorem closesNamespace_of_isAngle {lexeme : Lexeme} (h : lexeme.isAngle = true) :
    ¬ closesNamespace (some lexeme) = true := by
  cases lexeme with
  | mark mark => cases mark <;> first | decide | cases h
  | _ => cases h

/-- The path of a namespace, with the brace behind it. -/
def namespacePath : Reader (List String) := do
  let path ← separated bindingName .dot
  expect .braceOpen
  return path

/-- The body of a namespace is its path, its declarations and the brace that closes it. -/
theorem namespaceBody_eq (declaration : Reader Declaration) : namespaceBody declaration
    = namespacePath >>= fun path => declarations closesNamespace declaration >>= fun inner =>
        expect .braceClose >>= fun _ => pure (.namespace path inner) := by
  rw [namespacePath, bind_assoc]
  simp only [bind_assoc, pure_bind]
  rfl

end Reader

/-- Two ends of walks over a statement that may stand for each other: what was walked over, from two
positions in two texts, is the same. -/
inductive Simulation.EndsAlike (S : Simulation) (text text' : List Char)
    (position position' stop stop' : Nat) : Reader.StatementEnd → Reader.StatementEnd → Prop where
  | done {behind behind' : Nat} {rest rest' : List Token} :
      Text.slice text position behind = Text.slice text' position' behind' →
      S.streams ⟨rest, stop⟩ ⟨rest', stop'⟩ →
      EndsAlike S text text' position position' stop stop' (.done behind rest) (.done behind' rest')
  | stray {rest rest' : List Token} :
      S.streams ⟨rest, stop⟩ ⟨rest', stop'⟩ →
      EndsAlike S text text' position position' stop stop' (.stray rest) (.stray rest')
  | unclosed : S.streams ⟨[], stop⟩ ⟨[], stop'⟩ →
      EndsAlike S text text' position position' stop stop' .unclosed .unclosed

/-- A simulation that leaves the statements of two texts as they are that are kept as they are
written. -/
def Simulation.Verbatim (S : Simulation) (text text' : List Char) : Prop :=
  ∀ {first second position position'}, S.streams first second → S.positions position position' →
    S.EndsAlike text text' position position' first.stop second.stop
      (Reader.splitStatement 0 position first.tokens)
      (Reader.splitStatement 0 position' second.tokens)

namespace Simulation

variable {S : Simulation} {α β : Type} {first second : Stream} {n : Nat}
  {type type' : Reader TypeExpr} {declaration declaration' : Reader Declaration}

/-- Of one text, every statement is kept the same. -/
theorem verbatim_same (text : List Char) : same.Verbatim text text := by
  intro first second position position' h hposition
  cases h
  cases hposition
  cases Reader.splitStatement 0 position first.tokens with
  | done behind rest => exact .done rfl rfl
  | stray rest => exact .stray rfl
  | unclosed => exact .unclosed rfl

/-! ### Statements -/

/-- Whether a statement that is kept as it is written starts with two lexemes. -/
def opensStatement : Option Lexeme → Option Lexeme → Bool
  | some (.word .importWord), _ | some (.word .enumWord), _ => true
  | some (.word .constWord), some (.word .enumWord) => true
  | some (.word .exportWord), some (.mark m) => m ∈ [.assign, .braceOpen, .star]
  | some (.word .exportWord), some (.word .defaultWord) => true
  | some (.word .exportWord), some (.name text) => text == "as"
  | some (.word .moduleWord), some (.string _) => true
  | _, _ => false

/-- A statement starts with the two lexemes that come next. -/
theorem startsStatement_eq_opensStatement (stream : Stream) :
    Reader.startsStatement stream.tokens = opensStatement stream.next? stream.tail.next? := rfl

/-- No statement starts with an angle bracket. -/
theorem opensStatement_of_startsAngle {stream : Stream} (h : stream.startsAngle = true)
    (second : Option Lexeme) : opensStatement stream.next? second = false := by
  rw [Stream.startsAngle] at h
  cases hnext : stream.next? with
  | none => rfl
  | some lexeme =>
    rw [hnext] at h
    cases lexeme with
    | mark m => rfl
    | _ => cases h

/-- An angle bracket that comes second decides nothing. -/
theorem opensStatement_of_tail_startsAngle (next : Option Lexeme) {stream : Stream}
    (h : stream.startsAngle = true) :
    opensStatement next stream.next? = opensStatement next none := by
  rw [Stream.startsAngle] at h
  cases hsecond : stream.next? with
  | none => rfl
  | some lexeme =>
    rw [hsecond] at h
    cases lexeme with
    | mark m =>
      cases next with
      | none => rfl
      | some first =>
        cases first with
        | word w => cases w <;> first | rfl | (cases m <;> first | rfl | cases h)
        | _ => rfl
    | _ => cases h

/-- On related streams, a statement starts in both or in neither. -/
theorem startsStatement_eq (h : S.streams first second) :
    Reader.startsStatement first.tokens = Reader.startsStatement second.tokens := by
  rw [startsStatement_eq_opensStatement, startsStatement_eq_opensStatement]
  cases hangle : first.startsAngle with
  | true =>
    rw [opensStatement_of_startsAngle hangle,
      opensStatement_of_startsAngle ((startsAngle_eq h).symm.trans hangle)]
  | false =>
    rw [← next?_eq h hangle]
    cases hnext : first.next? with
    | none => rfl
    | some lexeme =>
      rw [Stream.startsAngle_of_next? hnext] at hangle
      rcases S.next (S.tail h hnext hangle) with heq | ⟨hfirst, hsecond⟩
      · rw [heq]
      · rw [opensStatement_of_tail_startsAngle _ hfirst,
          opensStatement_of_tail_startsAngle _ hsecond]

/-- The words in front of a declaration that change nothing. -/
def isPlainModifier (lexeme : Lexeme) : Prop :=
  lexeme = .word .exportWord ∨ lexeme = .word .declareWord

/-- A word that changes nothing is taken off, and more of them behind that. -/
theorem splitModifierWords_hit {stream : Stream} {lexeme : Lexeme}
    (hnext : stream.next? = some lexeme) (hmodifier : isPlainModifier lexeme)
    (hstarts : Reader.startsStatement stream.tokens = false) :
    Reader.splitModifierWords stream.tokens = Reader.splitModifierWords stream.tail.tokens := by
  obtain ⟨tokens, stop⟩ := stream
  match tokens with
  | [] => cases hnext
  | token :: rest =>
    cases Option.some.inj hnext
    have hstarts' : Reader.startsStatement (token :: rest) = false := hstarts
    rw [Reader.splitModifierWords, hstarts', if_neg Bool.false_ne_true, if_pos]
    · rfl
    · rw [Bool.or_eq_true, decide_eq_true_eq, decide_eq_true_eq]
      exact hmodifier

/-- Without such a word, nothing is taken off. -/
theorem splitModifierWords_miss {stream : Stream}
    (hmiss : ∀ lexeme, stream.next? = some lexeme → ¬ isPlainModifier lexeme)
    (hstarts : Reader.startsStatement stream.tokens = false) :
    Reader.splitModifierWords stream.tokens = (false, stream.tokens) := by
  obtain ⟨tokens, stop⟩ := stream
  match tokens with
  | [] => rfl
  | token :: rest =>
    have hstarts' : Reader.startsStatement (token :: rest) = false := hstarts
    rw [Reader.splitModifierWords, hstarts', if_neg Bool.false_ne_true, if_neg]
    rw [Bool.or_eq_true, decide_eq_true_eq, decide_eq_true_eq]
    exact hmiss _ rfl

/-- Where a statement starts, no word of it is taken off. -/
theorem splitModifierWords_found {stream : Stream}
    (hstarts : Reader.startsStatement stream.tokens = true) :
    Reader.splitModifierWords stream.tokens = (true, stream.tokens) := by
  obtain ⟨tokens, stop⟩ := stream
  match tokens with
  | [] => cases hstarts
  | token :: rest =>
    have hstarts' : Reader.startsStatement (token :: rest) = true := hstarts
    rw [Reader.splitModifierWords, hstarts', if_pos rfl]

/-- A word that changes nothing is no angle bracket. -/
theorem isAngle_of_isPlainModifier {lexeme : Lexeme} (h : isPlainModifier lexeme) :
    lexeme.isAngle = false := by
  rcases h with rfl | rfl <;> rfl

/-- Words that change nothing are taken off related streams alike. -/
theorem respected_splitModifierWords : S.Respected Reader.splitModifierWords := by
  refine respected_of_shorter fun {first second} h ih => ?_
  have hsame := startsStatement_eq h
  cases hstarts : Reader.startsStatement first.tokens with
  | true =>
    rw [splitModifierWords_found hstarts, splitModifierWords_found (hsame.symm.trans hstarts)]
    exact ⟨rfl, h⟩
  | false =>
    have hstarts' := hsame.symm.trans hstarts
    by_cases hmodifier : ∃ lexeme, first.next? = some lexeme ∧ isPlainModifier lexeme
    · obtain ⟨lexeme, hnext, hplain⟩ := hmodifier
      have hangle := isAngle_of_isPlainModifier hplain
      rw [splitModifierWords_hit hnext hplain hstarts,
        splitModifierWords_hit ((next?_iff h hangle).mp hnext) hplain hstarts']
      exact ih (Stream.size_tail_lt hnext) (S.tail h hnext hangle)
    · have hmiss : ∀ lexeme, first.next? = some lexeme → ¬ isPlainModifier lexeme :=
        fun lexeme hnext hplain => hmodifier ⟨lexeme, hnext, hplain⟩
      rw [splitModifierWords_miss hmiss hstarts, splitModifierWords_miss ?_ hstarts']
      · exact ⟨rfl, h⟩
      · intro lexeme hnext hplain
        exact hmiss lexeme ((next?_iff h (isAngle_of_isPlainModifier hplain)).mpr hnext) hplain

/-- What is left behind them is the end of the tokens. -/
theorem suffix_splitModifierWords (tokens : List Token) :
    (Reader.splitModifierWords tokens).2 <:+ tokens := by
  fun_induction Reader.splitModifierWords tokens with
  | case1 | case2 | case4 => exact List.suffix_rfl
  | case3 token rest _ _ ih => exact ih.trans (List.suffix_cons token rest)

/-- There are no more tokens behind them. -/
theorem length_splitModifierWords_le (tokens : List Token) :
    (Reader.splitModifierWords tokens).2.length ≤ tokens.length :=
  (suffix_splitModifierWords tokens).length_le

/-- Where words were taken off a statement, one starts. -/
theorem startsStatement_splitModifierWords {tokens : List Token}
    (h : (Reader.splitModifierWords tokens).1 = true) :
    Reader.startsStatement (Reader.splitModifierWords tokens).2 = true := by
  fun_induction Reader.splitModifierWords tokens <;> grind

/-- A walk over a statement leaves the last of the tokens. -/
theorem suffix_splitStatement {depth stop behind : Nat} {tokens rest : List Token}
    (h : Reader.splitStatement depth stop tokens = .done behind rest) : rest <:+ tokens := by
  fun_induction Reader.splitStatement depth stop tokens <;>
    grind [List.suffix_cons, List.IsSuffix.trans]

/-- So does one that fails at a token. -/
theorem suffix_of_stray {depth stop : Nat} {tokens rest : List Token}
    (h : Reader.splitStatement depth stop tokens = .stray rest) : rest <:+ tokens := by
  fun_induction Reader.splitStatement depth stop tokens <;>
    grind [List.suffix_cons, List.IsSuffix.trans]

/-- There are no more tokens behind a statement than in front of it. -/
theorem length_splitStatement_le {depth stop behind : Nat} {tokens rest : List Token}
    (h : Reader.splitStatement depth stop tokens = .done behind rest) :
    rest.length ≤ tokens.length :=
  (suffix_splitStatement h).length_le

/-- The first token of a statement belongs to it. -/
theorem splitStatement_of_startsStatement {tokens : List Token}
    (h : Reader.startsStatement tokens = true) (stop : Nat) :
    ∃ token rest, tokens = token :: rest
      ∧ Reader.splitStatement 0 stop tokens = Reader.splitStatement 0 token.stop rest := by
  match tokens with
  | [] => cases h
  | token :: rest =>
    refine ⟨token, rest, rfl, ?_⟩
    rw [Reader.splitStatement.eq_def]
    rw [Reader.startsStatement] at h
    obtain ⟨lexeme, start, behind⟩ := token
    cases lexeme with
    | mark m => cases h
    | _ => rfl

/-- There are fewer, since the first token belongs to the statement. -/
theorem length_lt_of_startsStatement {stream : Stream} {stop behind : Nat} {rest : List Token}
    (hstarts : Reader.startsStatement stream.tokens = true)
    (h : Reader.splitStatement 0 stop stream.tokens = .done behind rest) :
    rest.length < stream.size := by
  obtain ⟨token, more, htokens, hsplit⟩ := splitStatement_of_startsStatement hstarts stop
  rw [hsplit] at h
  rw [Stream.size, htokens]
  exact Nat.lt_succ_of_le (length_splitStatement_le h)

/-- Statements that are kept have the same text on related streams. -/
theorem outcome_statement {text text' : List Char} {position position' : Nat}
    (hS : S.Verbatim text text') (h : S.streams first second)
    (hposition : S.positions position position')
    (hstarts : Reader.startsStatement first.tokens = true) :
    S.Outcome first.size second.size (Reader.statement text position first)
      (Reader.statement text' position' second) := by
  have hends := hS h hposition
  have hsize : ∀ behind rest, Reader.splitStatement 0 position first.tokens = .done behind rest →
      rest.length < first.size := fun _ _ => length_lt_of_startsStatement hstarts
  have hsize' : ∀ behind rest, Reader.splitStatement 0 position' second.tokens = .done behind rest →
      rest.length < second.size := fun _ _ =>
    length_lt_of_startsStatement ((startsStatement_eq h).symm.trans hstarts)
  rw [Reader.statement, Reader.statement]
  generalize Reader.splitStatement 0 position first.tokens = ends at hends hsize
  generalize Reader.splitStatement 0 position' second.tokens = ends' at hends hsize'
  cases hends with
  | done htext hrest =>
    dsimp only
    rw [htext]
    exact .ok .nil hrest (hsize _ _ rfl) (hsize' _ _ rfl)
  | stray hrest => exact outcome_fail _ hrest
  | unclosed hrest => exact outcome_fail _ hrest

/-! ### Declarations -/

/-- A semicolon that may be left out is taken alike. -/
theorem alike_optionalSemicolon : S.Alike n Reader.optionalSemicolon Reader.optionalSemicolon :=
  alike_bind (alike_acceptOnly rfl) fun _ => alike_pure _

/-- The types behind a word are read alike. -/
theorem alike_typesAfter (w : Word) : S.Alike n (Reader.typesAfter w) (Reader.typesAfter w) :=
  alike_accept rfl (alike_separated rfl alike_typeReader) (alike_pure _) (Nat.le_succ n)

/-- A type behind a lexeme is read alike by the reader of types. -/
theorem alike_typeAfterReader {lexeme : Lexeme} (hangle : lexeme.isAngle = false) :
    S.Alike n (Reader.typeAfter TypeExpr.reader lexeme) (Reader.typeAfter TypeExpr.reader lexeme) :=
  (alike_typeAfter alike_typeReader hangle).anti (Nat.le_succ n)

/-- Type parameters are read alike by the reader of types. -/
theorem alike_typeParametersReader :
    S.Alike n (Reader.typeParameters TypeExpr.reader) (Reader.typeParameters TypeExpr.reader) :=
  (alike_typeParameters alike_typeReader).anti (Nat.le_succ n)

/-- Members are read alike by the reader of types. -/
theorem alike_membersReader :
    S.Alike n (Reader.members TypeExpr.reader) (Reader.members TypeExpr.reader) :=
  (alike_members alike_typeReader).anti (Nat.le_succ n)

/-- A variable is read alike. -/
theorem alike_variableBody : S.Alike n Reader.variableBody Reader.variableBody :=
  alike_bind takes_bindingName.alike fun _ => alike_bind (alike_typeAfterReader rfl) fun _ =>
    alike_bind alike_optionalSemicolon fun _ => alike_pure _

/-- A function is read alike. -/
theorem alike_functionBody : S.Alike n Reader.functionBody Reader.functionBody :=
  alike_bind takes_bindingName.alike fun _ =>
    alike_bind ((alike_signature alike_typeReader).anti (Nat.le_succ n)) fun _ =>
      alike_bind alike_optionalSemicolon fun _ => alike_pure _

/-- An interface is read alike. -/
theorem alike_interfaceBody : S.Alike n Reader.interfaceBody Reader.interfaceBody :=
  alike_bind takes_bindingName.alike fun _ => alike_bind alike_typeParametersReader fun _ =>
    alike_bind (alike_typesAfter _) fun _ => alike_bind alike_membersReader fun _ => alike_pure _

/-- A class is read alike. -/
theorem alike_classBody : S.Alike n Reader.classBody Reader.classBody :=
  alike_bind takes_bindingName.alike fun _ => alike_bind alike_typeParametersReader fun _ =>
    alike_bind (alike_typeAfterReader rfl) fun _ => alike_bind (alike_typesAfter _) fun _ =>
      alike_bind alike_membersReader fun _ => alike_pure _

/-- An alias is read alike. -/
theorem alike_aliasBody : S.Alike n Reader.aliasBody Reader.aliasBody :=
  alike_bind takes_bindingName.alike fun _ => alike_bind alike_typeParametersReader fun _ =>
    alike_bind (takes_expect rfl).alike fun _ => alike_bind alike_typeReader fun _ =>
      alike_bind alike_optionalSemicolon fun _ => alike_pure _

/-- Nothing where the test says to stop, or a semicolon or a declaration and those behind it. -/
def declarationsBody (stops : Option Lexeme → Bool) (declaration : Reader Declaration)
    (more : Reader (List Declaration)) : Reader (List Declaration) := do
  if stops (← Reader.look Stream.next?) then return []
  if ← Reader.accept (.mark .semicolon) then more
  else return (← declaration) :: (← more)

/-- The body of a list of declarations is alike if a declaration and the rest of the list are. -/
theorem alike_declarationsBody {stops : Option Lexeme → Bool}
    (hstops : ∀ lexeme : Lexeme, lexeme.isAngle = true → ¬ stops (some lexeme) = true)
    {more more' : Reader (List Declaration)} (h : S.Takes (n + 1) declaration declaration')
    (hmore : S.Alike n more more') :
    S.Alike (n + 1) (declarationsBody stops declaration more)
      (declarationsBody stops declaration' more') := by
  refine alike_ifNext hstops (alike_pure _) (alike_accept rfl hmore ?_ (Nat.le_refl _))
  exact alike_bind_takes h fun _ => alike_bind hmore fun _ => alike_pure _

/-- Lists of declarations, each of which takes a token. -/
theorem alike_declarations {stops : Option Lexeme → Bool}
    (hstops : ∀ lexeme : Lexeme, lexeme.isAngle = true → ¬ stops (some lexeme) = true)
    (h : S.Takes n declaration declaration') :
    S.Alike n (Reader.declarations stops declaration) (Reader.declarations stops declaration') :=
  answers_recursive (fun hm hmore => alike_declarationsBody hstops (h.anti hm) hmore)
    (fun hrefl _ _ _ hm hmore => alike_declarationsBody hstops ((h.left hrefl).anti hm) hmore)
    fun hrefl _ _ _ hm hmore => alike_declarationsBody hstops ((h.right hrefl).anti hm) hmore

/-- The equation of a list of declarations. -/
theorem declarations_eq {stops : Option Lexeme → Bool}
    (hstops : ∀ lexeme : Lexeme, lexeme.isAngle = true → ¬ stops (some lexeme) = true)
    (h : ∀ n, same.Takes n declaration declaration) (stream : Stream) :
    Reader.declarations stops declaration stream
      = declarationsBody stops declaration (Reader.declarations stops declaration) stream :=
  recursive_eq (fun hmore => alike_declarationsBody hstops (h _) hmore) stream

/-- A namespace is read alike if its declarations are. -/
theorem alike_namespaceBody (h : S.Takes n declaration declaration') :
    S.Alike n (Reader.namespaceBody declaration) (Reader.namespaceBody declaration') := by
  refine alike_bind (alike_separated rfl takes_bindingName.alike) fun _ => ?_
  refine alike_bind (takes_expect rfl).alike fun _ => ?_
  refine alike_bind (alike_declarations (fun _ => Reader.closesNamespace_of_isAngle) h) fun _ => ?_
  exact alike_bind (takes_expect rfl).alike fun _ => alike_pure _

/-- No declaration starts with a closing angle bracket. -/
theorem declarationBody_of_startsAngle {stream : Stream} (h : stream.startsAngle = true) :
    Reader.declarationBody declaration stream = Reader.fail .declaration stream := by
  rw [Stream.startsAngle] at h
  rw [Reader.declarationBody, Reader.bind_eq]
  simp only [Reader.look]
  cases hnext : stream.next? with
  | none => rfl
  | some lexeme =>
    cases lexeme with
    | mark m => rfl
    | _ => rw [hnext] at h; cases h

/-- A declaration behind its words is read alike, and takes a token. -/
theorem takes_declarationBody (h : S.Takes n declaration declaration') :
    S.Takes (n + 1) (Reader.declarationBody declaration) (Reader.declarationBody declaration') := by
  intro first second hstreams hlt hlt'
  cases hangle : first.startsAngle with
  | true =>
    rw [declarationBody_of_startsAngle hangle,
      declarationBody_of_startsAngle ((startsAngle_eq hstreams).symm.trans hangle)]
    exact outcome_fail _ hstreams
  | false =>
    refine outcome_look (next?_eq hstreams hangle) ?_
    cases hnext : first.next? with
    | none => exact outcome_fail _ hstreams
    | some lexeme =>
      rw [Stream.startsAngle_of_next? hnext] at hangle
      have hskip : ∀ {next next' : Unit → Reader Declaration}, S.Alike n (next ()) (next' ()) →
          S.Outcome first.size second.size ((Reader.skip >>= next) first)
            ((Reader.skip >>= next') second) := fun halike =>
        outcome_skip hstreams hnext hangle halike (Nat.le_of_lt_succ hlt) (Nat.le_of_lt_succ hlt')
      have htail := S.tail hstreams hnext hangle
      have hname := bind_next?_eq htail fun _ => Lexeme.bindingName?_of_isAngle
      cases lexeme with
      | word w =>
        cases w <;> first
          | exact hskip alike_variableBody
          | exact hskip alike_functionBody
          | exact hskip alike_interfaceBody
          | exact hskip alike_classBody
          | exact hskip (alike_namespaceBody h)
          | exact outcome_fail _ hstreams
          | skip
        -- Only an alias has to look at what comes second.
        refine outcome_of_ok rfl rfl ?_
        rw [Stream.second?_eq, Stream.second?_eq, ← hname]
        split
        · exact hskip alike_aliasBody
        · exact outcome_fail _ hstreams
      | _ => exact outcome_fail _ hstreams

/-- So is a declaration or a statement that is kept. -/
theorem takes_declarationOrStatement {text text' : List Char} (hS : S.Verbatim text text')
    (h : S.Takes n declaration declaration') :
    S.Takes (n + 1) (Reader.declarationOrStatement text declaration)
      (Reader.declarationOrStatement text' declaration') := by
  intro first second hstreams hlt hlt'
  obtain ⟨hfound, hrest⟩ := respected_splitModifierWords hstreams
  have hsize := length_splitModifierWords_le first.tokens
  have hsize' := length_splitModifierWords_le second.tokens
  refine outcome_of_ok rfl rfl (outcome_of_ok rfl rfl ?_)
  rw [← hfound]
  cases hstatement : (Reader.splitModifierWords first.tokens).1 with
  | true =>
    exact (outcome_statement hS hrest (S.position hstreams)
      (startsStatement_splitModifierWords hstatement)).mono hsize hsize'
  | false =>
    refine (takes_declarationBody h hrest ?_ ?_).mono hsize hsize'
    · exact Nat.lt_of_le_of_lt hsize hlt
    · exact Nat.lt_of_le_of_lt hsize' hlt'

/-- The reader of declarations answers alike on related streams. -/
theorem takes_declaration {text text' : List Char} (hS : S.Verbatim text text') :
    S.Takes n (Reader.declaration text) (Reader.declaration text') :=
  answers_recursive (fun _ => takes_declarationOrStatement hS)
    (fun _ _ _ _ _ => takes_declarationOrStatement (verbatim_same text))
    fun _ _ _ _ _ => takes_declarationOrStatement (verbatim_same text')

/-- So does the reader of a whole file. -/
theorem alike_declarationsOfText {text text' : List Char} (hS : S.Verbatim text text') :
    S.Alike n (Reader.declarations Option.isNone (Reader.declaration text))
      (Reader.declarations Option.isNone (Reader.declaration text')) :=
  alike_declarations (fun _ _ => Bool.false_ne_true) (takes_declaration hS)

end Simulation

namespace Reader

/-- The equation of the reader of declarations. -/
theorem declaration_eq (text : List Char) (stream : Stream) :
    declaration text stream = declarationOrStatement text (declaration text) stream :=
  Simulation.recursive_eq
    (Simulation.takes_declarationOrStatement (Simulation.verbatim_same text)) stream

/-! ### Lists of declarations -/

variable {stops : Option Lexeme → Bool}
  (hstops : ∀ lexeme : Lexeme, lexeme.isAngle = true → ¬ stops (some lexeme) = true)
  (text : List Char) {stream : Stream}

include hstops

/-- Where a list of declarations stops there is none. -/
theorem declarations_nil (h : stops stream.next? = true) :
    declarations stops (declaration text) stream = .ok ⟨[], [], stream⟩ := by
  rw [Simulation.declarations_eq hstops
    (fun n => Simulation.takes_declaration (Simulation.verbatim_same text)),
    Simulation.declarationsBody, bind_of_ok rfl, if_pos h]
  rfl

/-- A semicolon between declarations is passed over. -/
theorem declarations_semicolon (h : stops stream.next? = false)
    (hnext : stream.next? = some (.mark .semicolon)) :
    declarations stops (declaration text) stream
      = declarations stops (declaration text) stream.tail := by
  have haccept : accept (.mark .semicolon) stream = .ok ⟨true, [], stream.tail⟩ := by
    rw [accept, if_pos hnext]
  rw [Simulation.declarations_eq hstops
    (fun n => Simulation.takes_declaration (Simulation.verbatim_same text)),
    Simulation.declarationsBody, bind_of_ok rfl, if_neg (Bool.not_eq_true _ ▸ h),
    bind_of_ok haccept, if_pos rfl]

/-- Where neither the end nor a semicolon comes next, the declarations are the next one and those
behind it. -/
theorem declarations_bind (h : stops stream.next? = false)
    (hnext : stream.next? ≠ some (.mark .semicolon)) :
    declarations stops (declaration text) stream
      = (declaration text >>= fun first => declarations stops (declaration text) >>= fun rest =>
          pure (first :: rest)) stream := by
  have haccept : accept (.mark .semicolon) stream = .ok ⟨false, [], stream⟩ := by
    rw [accept, if_neg hnext]
  rw [Simulation.declarations_eq hstops
    (fun n => Simulation.takes_declaration (Simulation.verbatim_same text)),
    Simulation.declarationsBody, bind_of_ok rfl, if_neg (Bool.not_eq_true _ ▸ h),
    bind_of_ok haccept, if_neg Bool.false_ne_true]

end Reader

end Facade
