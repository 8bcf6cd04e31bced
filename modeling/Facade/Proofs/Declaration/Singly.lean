import Facade.Proofs.Declaration.Respect.Declarations

/-!
# Longer marks of closing angle brackets do not matter

Two streams are the same to every reader if they are the same one by one (`singles`), however the
scanner has cut their closing angle brackets. This is a simulation, and since the walk over a
statement does not look at angle brackets either, it covers whole files: `ofStream_singles`. What
the walk does at one lexeme is said once, by `walkStep`, which all inductions over walks go through.
-/

set_option autoImplicit false

namespace Facade

open Reader

/-! ### Streams, one by one -/

/-- The first of the single tokens tells what comes next. -/
theorem Stream.head?_singles (stream : Stream) : (singles stream.tokens).head?.map Token.lexeme
    = if stream.startsAngle then some (.mark .greater) else stream.next? := by
  obtain ⟨tokens, stop⟩ := stream
  cases tokens with
  | nil => rfl
  | cons token rest =>
    obtain ⟨first, more, hsingles, -, hlexeme⟩ := token.exists_singles_eq_cons
    have hstarts : startsAngle ⟨token :: rest, stop⟩ = token.lexeme.isAngle := rfl
    rw [singles_cons, hsingles, hstarts]
    show some first.lexeme = _
    rw [hlexeme]
    split <;> rfl

/-- Where a stream stands can be seen one by one. -/
theorem Stream.position_eq_singles (stream : Stream) :
    stream.position = match singles stream.tokens with
      | [] => stream.stop
      | token :: _ => token.start := by
  obtain ⟨tokens, stop⟩ := stream
  cases tokens with
  | nil => rfl
  | cons token rest =>
    obtain ⟨first, more, hsingles, hstart, -⟩ := token.exists_singles_eq_cons
    rw [singles_cons, hsingles]
    exact hstart.symm

/-- One by one, to go on by a token other than angle brackets is to go on by one. -/
theorem Stream.singles_tail {stream : Stream} {lexeme : Lexeme} (h : stream.next? = some lexeme)
    (hangle : lexeme.isAngle = false) :
    ∃ token, singles stream.tokens = token :: singles stream.tail.tokens := by
  obtain ⟨tokens, stop⟩ := stream
  cases tokens with
  | nil => cases h
  | cons token rest =>
    cases Option.some.inj h
    refine ⟨token, ?_⟩
    show singles (token :: rest) = token :: singles rest
    rw [singles_cons, Token.singles_of_not_isAngle hangle]
    rfl

/-- So can it be seen whether an angle bracket comes next. -/
theorem Stream.startsAngle_iff (stream : Stream) : stream.startsAngle = true
    ↔ (singles stream.tokens).head?.map Token.lexeme = some (.mark .greater) := by
  rw [stream.head?_singles]
  cases hangle : stream.startsAngle with
  | true => exact iff_of_true rfl rfl
  | false =>
    refine iff_of_false Bool.false_ne_true fun hnext => ?_
    rw [if_neg Bool.false_ne_true] at hnext
    cases hangle.symm.trans (Stream.startsAngle_of_next? hnext)

/-- Streams that are the same one by one have the same lexeme next, or both an angle bracket. -/
theorem Stream.next?_of_singles {first second : Stream}
    (h : singles first.tokens = singles second.tokens) :
    first.next? = second.next? ∨ first.startsAngle = true ∧ second.startsAngle = true := by
  have hiff : first.startsAngle = true ↔ second.startsAngle = true := by
    rw [Stream.startsAngle_iff, Stream.startsAngle_iff, h]
  by_cases hangle : first.startsAngle = true
  · exact .inr ⟨hangle, hiff.mp hangle⟩
  · have hfirst := first.head?_singles
    have hsecond := second.head?_singles
    rw [if_neg hangle] at hfirst
    rw [if_neg fun hother => hangle (hiff.mpr hother)] at hsecond
    rw [← hfirst, ← hsecond, h]
    exact .inl rfl

/-- The simulation of streams that are the same one by one. -/
def singly : Simulation where
  streams first second :=
    singles first.tokens = singles second.tokens ∧ first.stop = second.stop
  depths := .inl fun _ => ⟨rfl, rfl⟩
  positions := Eq
  errors error error' := ∃ wanted found found' position,
    error = ⟨.expected wanted found, position⟩ ∧ error' = ⟨.expected wanted found', position⟩
  next h := Stream.next?_of_singles h.1
  tail := by
    intro first second lexeme h hnext hangle
    have hnext' : second.next? = some lexeme := by
      rcases Stream.next?_of_singles h.1 with heq | ⟨hstarts, -⟩
      · exact heq.symm.trans hnext
      · cases (Stream.startsAngle_of_next? hnext).symm.trans hstarts ▸ hangle
    obtain ⟨token, htail⟩ := Stream.singles_tail hnext hangle
    obtain ⟨token', htail'⟩ := Stream.singles_tail hnext' hangle
    exact ⟨(List.cons.inj (htail.symm.trans (h.1.trans htail'))).2, h.2⟩
  angle := by
    intro first second h hangle
    have hangle' : second.startsAngle = true := by
      rw [Stream.startsAngle_iff, ← h.1, ← Stream.startsAngle_iff]
      exact hangle
    obtain ⟨bracket, htail, -⟩ := Stream.singles_behindAngle hangle
    obtain ⟨bracket', htail', -⟩ := Stream.singles_behindAngle hangle'
    refine ⟨(List.cons.inj (htail.symm.trans (h.1.trans htail'))).2, ?_⟩
    rw [Stream.stop_behindAngle, Stream.stop_behindAngle, h.2]
  position := by
    intro first second h
    rw [Stream.position_eq_singles, Stream.position_eq_singles, h.1, h.2]
  error := by
    intro first second h wanted
    refine ⟨wanted, first.next?, second.next?, second.position, ?_, rfl⟩
    rw [Stream.position_eq_singles, Stream.position_eq_singles, h.1, h.2]

/-! ### One step of a walk -/

/-- Lexemes that the walk over a statement does not look at. -/
def Lexeme.isIdle : Lexeme → Bool
  | .mark m => m ∉ [.braceOpen, .braceClose, .parenOpen, .parenClose, .bracketOpen, .bracketClose,
      .semicolon]
  | _ => true

/-- The walk passes over what it does not look at. -/
theorem splitStatement_of_isIdle {token : Token} (h : token.lexeme.isIdle = true)
    (depth stop : Nat) (rest : List Token) :
    splitStatement depth stop (token :: rest) = splitStatement depth token.stop rest := by
  obtain ⟨lexeme, start, behind⟩ := token
  rw [splitStatement.eq_def]
  obtain _ | _ | depth := depth
  all_goals
    cases lexeme with
    | mark m => cases m <;> first | rfl | cases h
    | _ => rfl

/-- Whether a lexeme opens a bracket. -/
def Lexeme.opens : Lexeme → Bool
  | .mark m => m ∈ [.parenOpen, .bracketOpen, .braceOpen]
  | _ => false

/-- Whether a lexeme closes a bracket. -/
def Lexeme.closes : Lexeme → Bool
  | .mark m => m ∈ [.parenClose, .bracketClose, .braceClose]
  | _ => false

/-- How many brackets are open in front of a lexeme and behind it. -/
def Lexeme.Leads (lexeme : Lexeme) (depth deeper : Nat) : Prop :=
  if lexeme.opens then deeper = depth + 1 else if lexeme.closes then depth = deeper + 1
    else deeper = depth

/-- A lexeme that the walk does not look at leaves the number of open brackets. -/
theorem Lexeme.leads_of_isIdle {lexeme : Lexeme} (h : lexeme.isIdle = true) (depth : Nat) :
    lexeme.Leads depth depth := by
  cases lexeme with
  | mark mark => cases mark <;> first | rfl | cases h
  | _ => rfl

namespace Reader

/-- Outside of brackets, the walk leaves a closing brace in place. -/
theorem splitStatement_leaves {token : Token} (h : token.lexeme = .mark .braceClose) (stop : Nat)
    (rest : List Token) : splitStatement 0 stop (token :: rest) = .done stop (token :: rest) := by
  obtain ⟨lexeme, start, behind⟩ := token
  cases (h : lexeme = .mark .braceClose)
  rfl

/-- Outside of brackets, it ends behind a semicolon. -/
theorem splitStatement_ends {token : Token} (h : token.lexeme = .mark .semicolon) (stop : Nat)
    (rest : List Token) : splitStatement 0 stop (token :: rest) = .done token.stop rest := by
  obtain ⟨lexeme, start, behind⟩ := token
  cases (h : lexeme = .mark .semicolon)
  rfl

/-- What the walk does at a lexeme: it leaves a closing brace in place, it fails, it ends behind a
semicolon, it closes the last bracket, or it goes on at another depth. -/
inductive WalkStep (depth : Nat) (lexeme : Lexeme) : Prop where
  | leaves : depth = 0 → lexeme = .mark .braceClose → WalkStep depth lexeme
  | fails : depth = 0 → (∀ (token : Token) (stop : Nat) (rest : List Token), token.lexeme = lexeme →
      splitStatement depth stop (token :: rest) = .stray (token :: rest)) → WalkStep depth lexeme
  | ends : depth = 0 → lexeme = .mark .semicolon → WalkStep depth lexeme
  | closes : depth = 1 → lexeme = .mark .braceClose → WalkStep depth lexeme
  | goes (deeper : Nat) : (∀ (token : Token) (stop : Nat) (rest : List Token),
      token.lexeme = lexeme → splitStatement depth stop (token :: rest)
        = splitStatement deeper token.stop rest) → lexeme.Leads depth deeper →
      WalkStep depth lexeme

/-- At every lexeme, the walk does one of these. -/
theorem walkStep (depth : Nat) (lexeme : Lexeme) : WalkStep depth lexeme := by
  by_cases hidle : lexeme.isIdle = true
  · exact .goes depth (fun token stop rest htoken =>
      splitStatement_of_isIdle (htoken.symm ▸ hidle) depth stop rest)
      (Lexeme.leads_of_isIdle hidle depth)
  have hgoes : ∀ deeper, (∀ (start behind stop : Nat) (rest : List Token),
      splitStatement depth stop (⟨lexeme, start, behind⟩ :: rest)
        = splitStatement deeper behind rest) → lexeme.Leads depth deeper →
      WalkStep depth lexeme := by
    refine fun deeper h hleads => .goes deeper (fun token stop rest htoken => ?_) hleads
    obtain ⟨lexeme', start, behind⟩ := token
    cases (htoken : lexeme' = lexeme)
    exact h start behind stop rest
  have hfails : depth = 0 → (∀ (start behind stop : Nat) (rest : List Token),
      splitStatement depth stop (⟨lexeme, start, behind⟩ :: rest)
        = .stray (⟨lexeme, start, behind⟩ :: rest)) → WalkStep depth lexeme := by
    refine fun hdepth h => .fails hdepth fun token stop rest htoken => ?_
    obtain ⟨lexeme', start, behind⟩ := token
    cases (htoken : lexeme' = lexeme)
    exact h start behind stop rest
  cases lexeme with
  | mark mark =>
    -- At the top, closing marks and semicolons matter; one bracket deep, only a brace can end the
    -- statement; deeper, every mark goes on.
    match depth with
    | 0 =>
      cases mark <;> first
        | exact absurd rfl hidle
        | exact .leaves rfl rfl
        | exact .ends rfl rfl
        | exact hfails rfl fun _ _ _ _ => rfl
        | exact hgoes _ (fun _ _ _ _ => rfl) rfl
    | 1 =>
      cases mark <;> first
        | exact absurd rfl hidle
        | exact .closes rfl rfl
        | exact hgoes _ (fun _ _ _ _ => rfl) rfl
    | _ + 2 =>
      cases mark <;> first
        | exact absurd rfl hidle
        | exact hgoes _ (fun _ _ _ _ => rfl) rfl
  | _ => exact absurd rfl hidle

end Reader

/-! ### Statements, one by one -/

/-- The end of a walk, with the tokens behind it changed. -/
def Reader.StatementEnd.map (f : List Token → List Token) : StatementEnd → StatementEnd
  | .done stop rest => .done stop (f rest)
  | .stray rest => .stray (f rest)
  | .unclosed => .unclosed

/-- The walk does not look at angle brackets. -/
theorem Lexeme.isIdle_of_isAngle {lexeme : Lexeme} (h : lexeme.isAngle = true) :
    lexeme.isIdle = true := by
  cases lexeme with
  | mark m => cases m <;> first | rfl | cases h
  | _ => rfl

/-- The single tokens of an angle bracket are walked over like the longer mark. -/
theorem splitStatement_singles_of_isAngle {token : Token} (h : token.lexeme.isAngle = true)
    (depth stop : Nat) (rest : List Token) :
    splitStatement depth stop (token.singles ++ rest) = splitStatement depth token.stop rest := by
  have hidle : ∀ {m : Mark} (start behind stop : Nat) (rest : List Token),
      (Lexeme.mark m).isIdle = true → splitStatement depth stop (⟨.mark m, start, behind⟩ :: rest)
        = splitStatement depth behind rest := fun _ _ _ _ hm => splitStatement_of_isIdle hm _ _ _
  obtain ⟨lexeme, start, behind⟩ := token
  cases lexeme with
  | mark m =>
    cases m <;> first
      | exact hidle _ _ _ _ rfl
      | exact (hidle _ _ _ _ rfl).trans (hidle _ _ _ _ rfl)
      | exact (hidle _ _ _ _ rfl).trans ((hidle _ _ _ _ rfl).trans (hidle _ _ _ _ rfl))
      | cases h
  | _ => cases h

/-- Behind the brace that closes the last bracket, a semicolon belongs to the statement. -/
theorem splitStatement_brace_singles (start behind stop : Nat) (rest : List Token) :
    splitStatement 1 stop (⟨.mark .braceClose, start, behind⟩ :: singles rest)
      = (splitStatement 1 stop (⟨.mark .braceClose, start, behind⟩ :: rest)).map singles := by
  match rest with
  | [] => rfl
  | ⟨lexeme, start, behind⟩ :: more =>
    cases lexeme with
    | mark m => cases m <;> rfl
    | _ => rfl

/-- The walk over a statement is the same one by one. -/
theorem splitStatement_singles (depth stop : Nat) (tokens : List Token) :
    splitStatement depth stop (singles tokens)
      = (splitStatement depth stop tokens).map singles := by
  induction tokens generalizing depth stop with
  | nil => cases depth <;> rfl
  | cons token rest ih =>
    by_cases hangle : token.lexeme.isAngle = true
    · rw [singles_cons, splitStatement_singles_of_isAngle hangle,
        splitStatement_of_isIdle (Lexeme.isIdle_of_isAngle hangle), ih]
    -- Any other token stays whole, and the walk tells what it does with one.
    · have hsingle := Token.singles_of_not_isAngle (Bool.eq_false_iff.mpr hangle)
      have hcons : singles (token :: rest) = token :: singles rest := by
        rw [singles_cons, hsingle]
        rfl
      rw [hcons]
      cases walkStep depth token.lexeme with
      | leaves hdepth hbrace =>
        cases hdepth
        rw [splitStatement_leaves hbrace, splitStatement_leaves hbrace, StatementEnd.map, hcons]
      | fails _ hfails =>
        rw [hfails token stop _ rfl, hfails token stop _ rfl, StatementEnd.map, hcons]
      | ends hdepth hsemicolon =>
        cases hdepth
        rw [splitStatement_ends hsemicolon, splitStatement_ends hsemicolon, StatementEnd.map]
      | closes hdepth hbrace =>
        obtain ⟨lexeme, start, behind⟩ := token
        cases hdepth
        cases (hbrace : lexeme = .mark .braceClose)
        exact splitStatement_brace_singles start behind stop rest
      | goes deeper hgoes =>
        rw [hgoes token stop _ rfl, hgoes token stop _ rfl]
        exact ih deeper token.stop

/-- Walks over statements that are the same one by one have ends that stand for each other. -/
theorem verbatim_singly (text : List Char) : singly.Verbatim text text := by
  intro first second position position' h hposition
  cases (hposition : position = position')
  have hfirst := splitStatement_singles 0 position first.tokens
  have hsecond := splitStatement_singles 0 position second.tokens
  rw [h.1] at hfirst
  have hsame := hfirst.symm.trans hsecond
  generalize splitStatement 0 position first.tokens = ends at hsame
  generalize splitStatement 0 position second.tokens = ends' at hsame
  -- Ends that are the same one by one are of one kind.
  cases ends with
  | done behind rest =>
    cases ends' with
    | done behind' rest' =>
      obtain ⟨rfl, hrest⟩ := StatementEnd.done.inj hsame
      exact .done rfl ⟨hrest, h.2⟩
    | stray => exact StatementEnd.noConfusion hsame
    | unclosed => exact StatementEnd.noConfusion hsame
  | stray rest =>
    cases ends' with
    | stray rest' => exact .stray ⟨StatementEnd.stray.inj hsame, h.2⟩
    | done => exact StatementEnd.noConfusion hsame
    | unclosed => exact StatementEnd.noConfusion hsame
  | unclosed =>
    cases ends' with
    | unclosed => exact .unclosed ⟨rfl, h.2⟩
    | done => exact StatementEnd.noConfusion hsame
    | stray => exact StatementEnd.noConfusion hsame

/-! ### Files, one by one -/

/-- To split marks twice is to split them once. -/
theorem singles_singles (tokens : List Token) : singles (singles tokens) = singles tokens := by
  induction tokens with
  | nil => rfl
  | cons token rest ih =>
    have htoken : singles token.singles = token.singles := by
      obtain ⟨lexeme, start, stop⟩ := token
      cases lexeme with
      | mark m => cases m <;> rfl
      | _ => rfl
    rw [singles_cons, singles_append, htoken, ih]

/-- Under `singly`, answers that stand for each other have the same remarks. -/
theorem eq_of_forall₂_sameLost {lost lost' : List LostRest}
    (h : List.Forall₂ singly.SameLost lost lost') : lost = lost' := by
  induction h with
  | nil => rfl
  | @cons one other _ _ hsame _ ih =>
    obtain ⟨name, type, position⟩ := one
    obtain ⟨hname, htype, hposition⟩ := hsame
    cases hname
    cases htype
    cases (hposition : position = other.position)
    rw [ih]

/-- Both files are read as the same document, or both fail at the same place for want of the same,
whatever is found there instead. -/
inductive ReadSame : Except SyntaxError Document → Except SyntaxError Document → Prop where
  | ok (document : Document) : ReadSame (.ok document) (.ok document)
  | error (wanted : Wanted) (found found' : Option Lexeme) (position : Nat) :
      ReadSame (.error ⟨.expected wanted found, position⟩)
        (.error ⟨.expected wanted found', position⟩)

/-- A file may be read one by one: it has the same declarations and remarks. -/
theorem readSame_singles (text : List Char) (tokens : List Token) (stop : Nat) :
    ReadSame (Document.ofStream text ⟨singles tokens, stop⟩)
      (Document.ofStream text ⟨tokens, stop⟩) := by
  have hstreams : singly.streams ⟨singles tokens, stop⟩ ⟨tokens, stop⟩ :=
    ⟨singles_singles tokens, rfl⟩
  have houtcome := Simulation.alike_declarationsOfText (verbatim_singly text) hstreams
    (Nat.lt_succ_of_le (Nat.le_max_left _ (Stream.size ⟨tokens, stop⟩)))
    (Nat.lt_succ_of_le (Nat.le_max_right _ _))
  rw [Document.ofStream, Document.ofStream]
  generalize Reader.declarations Option.isNone (Reader.declaration text) ⟨singles tokens, stop⟩
    = answer at houtcome
  generalize Reader.declarations Option.isNone (Reader.declaration text) ⟨tokens, stop⟩
    = answer' at houtcome
  cases houtcome with
  | error herror =>
    obtain ⟨wanted, found, found', position, rfl, rfl⟩ := herror
    exact .error wanted found found' position
  | @ok value lost lost' rest rest' hlost =>
    rw [eq_of_forall₂_sameLost hlost]
    exact .ok ⟨value, lost'⟩

/-- A file is read as a document exactly if it is so one by one. -/
theorem Document.ofStream_singles {text : List Char} {tokens : List Token} {stop : Nat}
    {document : Document} : Document.ofStream text ⟨singles tokens, stop⟩ = .ok document
      ↔ Document.ofStream text ⟨tokens, stop⟩ = .ok document := by
  have hsame := readSame_singles text tokens stop
  generalize Document.ofStream text ⟨singles tokens, stop⟩ = answer at hsame
  generalize Document.ofStream text ⟨tokens, stop⟩ = answer' at hsame
  cases hsame with
  | ok => exact Iff.rfl
  | error => exact iff_of_false (fun h => by cases h) fun h => by cases h

end Facade
