import Facade.Proofs.Declaration.Settled.Types

/-!
# Looking ahead for the arrow of a function type

Where a parenthesis comes next, the reader of types has to tell a function type from a type in
parentheses before it reads either, and it never comes back to try the other. It counts parentheses
up to the one that closes the first, and looks for an arrow behind that. Readers take braces,
brackets, members and angle brackets on the way, which are not counted, but parentheses they take in
pairs (`Reader.Even`). So the one that closes the first is the one that either reader comes to, and
the choice is the right one: `lookahead_exact`.
-/

set_option autoImplicit false

namespace Facade.Reader

variable {type : Reader TypeExpr} {stream : Stream}

/-- A type in parentheses. -/
def inParentheses (type : Reader TypeExpr) : Reader TypeExpr := do
  expect .parenOpen
  let inner ← type
  expect .parenClose
  return .parenthesized inner

/-- A type in parentheses is read between them. -/
theorem inParentheses_eq (hnext : stream.next? = some (.mark .parenOpen)) :
    inParentheses type stream = (skip >>= fun _ => type >>= fun inner =>
      expect .parenClose >>= fun _ => pure (TypeExpr.parenthesized inner)) stream := by
  have hopen : expect .parenOpen stream = .ok ⟨(), [], stream.tail⟩ :=
    expect_eq_ok.mpr ⟨hnext, rfl⟩
  rw [inParentheses, bind_of_ok hopen, skip_bind]

/-- What comes behind a parenthesis that opens is read as one of two forms of types. -/
theorem primaryType_of_parenOpen (hnext : stream.next? = some (.mark .parenOpen)) :
    primaryType type stream = if opensFunctionType stream = true then
        (functionSignature type >>= fun signature => pure (TypeExpr.function signature)) stream
      else inParentheses type stream := by
  rw [primaryType, bind_of_ok rfl, hnext, inParentheses_eq hnext]
  show markType type .parenOpen stream = _
  rw [markType, bind_of_ok rfl]
  split <;> rfl

/-- Without type parameters, a signature starts with its parameters. -/
theorem functionSignature_of_parenOpen (hnext : stream.next? = some (.mark .parenOpen)) :
    functionSignature type stream = (parameters type >>= fun parameters =>
      expect .arrow >>= fun _ => type >>= fun result =>
        pure ⟨[], parameters, some result⟩) stream := by
  refine bind_of_ok ?_
  rw [typeParameters, accept_bind, hnext, if_neg (by decide)]
  rfl

/-- Where a signature with an arrow is read, the arrow is the one looked for. -/
theorem ensures_functionSignature (h : type.Steady) (hregular : type.Regular)
    (hnext : stream.next? = some (.mark .parenOpen)) :
    (functionSignature type).Ensures stream fun _ _ => opensFunctionType stream = true := by
  intro reading hread
  rw [functionSignature_of_parenOpen hnext] at hread
  refine (ensures_bind ((ensures_parameters h hregular stream).imp fun _ behind hclosed => ?_) :
    Ensures _ stream fun _ _ => opensFunctionType stream = true) reading hread
  -- The search comes to the same closing parenthesis, and the arrow is behind that.
  obtain ⟨-, closing, heven, hclose, rfl⟩ := hclosed
  refine ensures_bind ((ensures_expect .arrow closing.tail).imp fun _ rest harrow => ?_)
  intro _ _
  rw [Stream.opensFunctionType_of_evenly hnext heven hclose, harrow.1]
  rfl

/-- Where a type in parentheses is read, the search finds an arrow if one comes behind it. -/
theorem ensures_inParentheses (h : type.Even) (hnext : stream.next? = some (.mark .parenOpen)) :
    (inParentheses type).Ensures stream fun _ rest =>
      (opensFunctionType stream = true ↔ rest.next? = some (.mark .arrow)) := by
  intro reading hread
  rw [inParentheses_eq hnext] at hread
  rw [(ensures_parenthesized h hnext reading hread).2, beq_iff_eq]

/-- At a parenthesis, the arrow that is looked for decides rightly how to read on: a function type
that can be read is seen as one and read, and of a type in parentheses that can be read it is seen
whether an arrow comes behind it. If none does, that type is what is read. -/
theorem lookahead_exact (hnext : stream.next? = some (.mark .parenOpen)) :
    (∀ reading, functionSignature TypeExpr.reader stream = .ok reading →
      opensFunctionType stream = true ∧ primaryType TypeExpr.reader stream
        = .ok { reading with value := .function reading.value })
    ∧ ∀ reading, inParentheses TypeExpr.reader stream = .ok reading →
      (opensFunctionType stream = true ↔ reading.rest.next? = some (.mark .arrow))
        ∧ (reading.rest.next? ≠ some (.mark .arrow) →
          primaryType TypeExpr.reader stream = .ok reading) := by
  constructor
  · intro reading hread
    have hopens :=
      ensures_functionSignature steady_typeReader regular_typeReader hnext reading hread
    refine ⟨hopens, ?_⟩
    rw [primaryType_of_parenOpen hnext, if_pos hopens, bind_eq_ok]
    exact ⟨reading, _, hread, rfl, by rw [List.append_nil]⟩
  · intro reading hread
    have hopens := ensures_inParentheses steady_typeReader.even hnext reading hread
    refine ⟨hopens, fun hnone => ?_⟩
    rw [primaryType_of_parenOpen hnext, if_neg fun hopen => hnone (hopens.mp hopen)]
    exact hread

/-- The type of functions from `A` to `B`. -/
def simpleFunction : TypeExpr :=
  .function ⟨[], [⟨"a", false, some (.named ["A"] [])⟩], some (.named ["B"] [])⟩

/-- The tokens of a function type with another one inside of its parentheses. -/
def nestedTokens : List Token :=
  [⟨.mark .parenOpen, 0, 1⟩, ⟨.name "f", 1, 2⟩, ⟨.mark .colon, 2, 3⟩, ⟨.mark .parenOpen, 4, 5⟩,
    ⟨.name "a", 5, 6⟩, ⟨.mark .colon, 6, 7⟩, ⟨.name "A", 8, 9⟩, ⟨.mark .parenClose, 9, 10⟩,
    ⟨.mark .arrow, 11, 13⟩, ⟨.name "B", 14, 15⟩, ⟨.mark .parenClose, 15, 16⟩,
    ⟨.mark .arrow, 17, 19⟩, ⟨.name "C", 20, 21⟩]

/-- The tokens of a function type in parentheses. -/
def enclosedTokens : List Token :=
  [⟨.mark .parenOpen, 0, 1⟩, ⟨.mark .parenOpen, 1, 2⟩, ⟨.name "a", 2, 3⟩, ⟨.mark .colon, 3, 4⟩,
    ⟨.name "A", 5, 6⟩, ⟨.mark .parenClose, 6, 7⟩, ⟨.mark .arrow, 8, 10⟩, ⟨.name "B", 11, 12⟩,
    ⟨.mark .parenClose, 12, 13⟩]

/-- A function type whose parameter is a function type, and a function type in parentheses. -/
theorem lookahead_exact_nested :
    Token.scan "(f: (a: A) => B) => C" = .ok nestedTokens
      ∧ opensFunctionType ⟨nestedTokens, 21⟩ = true
      ∧ primaryType TypeExpr.reader ⟨nestedTokens, 21⟩ = .ok ⟨.function
        ⟨[], [⟨"f", false, some simpleFunction⟩], some (.named ["C"] [])⟩, [], ⟨[], 21⟩⟩
      ∧ Token.scan "((a: A) => B)" = .ok enclosedTokens
      ∧ opensFunctionType ⟨enclosedTokens, 13⟩ = false
      ∧ primaryType TypeExpr.reader ⟨enclosedTokens, 13⟩
        = .ok ⟨.parenthesized simpleFunction, [], ⟨[], 13⟩⟩ := by
  have hfunction : functionSignature TypeExpr.reader ⟨nestedTokens, 21⟩
      = .ok ⟨⟨[], [⟨"f", false, some simpleFunction⟩], some (.named ["C"] [])⟩, [], ⟨[], 21⟩⟩ := by
    with_unfolding_all rfl
  have hparens : inParentheses TypeExpr.reader ⟨enclosedTokens, 13⟩
      = .ok ⟨.parenthesized simpleFunction, [], ⟨[], 13⟩⟩ := by with_unfolding_all rfl
  obtain ⟨hopens, hread⟩ := (lookahead_exact rfl).1 _ hfunction
  obtain ⟨hexact, hchosen⟩ := (lookahead_exact rfl).2 _ hparens
  refine ⟨by decide +kernel, hopens, hread, by decide +kernel, ?_, hchosen (by decide)⟩
  exact Bool.eq_false_iff.mpr fun hopen => absurd (hexact.mp hopen) (by decide)

end Facade.Reader
