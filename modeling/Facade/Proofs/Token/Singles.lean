import Facade.Token.Basic

/-!
# Marks of closing angle brackets, one by one

A scanner that takes the longest mark reads `>>` where two lists of type arguments end. Readers take
such a mark apart as they need it, so what they see is a list of tokens in which no mark starts with
`>` but that itself. `singles` is this list: `>>` and `>>>` are two and three brackets in a row, and
`>=` is a bracket and an equals sign. The places of the parts add up to the place of the whole.
-/

set_option autoImplicit false

namespace Facade

/-- A token as the tokens that readers may take from it. -/
def Token.singles (token : Token) : List Token :=
  match token.lexeme with
  | .mark .shiftRight =>
    [⟨.mark .greater, token.start, token.start + 1⟩,
      ⟨.mark .greater, token.start + 1, token.stop⟩]
  | .mark .shiftRightUnsigned =>
    [⟨.mark .greater, token.start, token.start + 1⟩,
      ⟨.mark .greater, token.start + 1, token.start + 1 + 1⟩,
      ⟨.mark .greater, token.start + 1 + 1, token.stop⟩]
  | .mark .atLeast =>
    [⟨.mark .greater, token.start, token.start + 1⟩,
      ⟨.mark .assign, token.start + 1, token.stop⟩]
  | _ => [token]

/-- Tokens, with every bracket for itself. -/
def singles (tokens : List Token) : List Token :=
  tokens.flatMap Token.singles

/-- There is nothing to split in no tokens. -/
@[simp] theorem singles_nil : singles [] = [] := rfl

/-- The first token is split, and so are the others. -/
theorem singles_cons (token : Token) (rest : List Token) :
    singles (token :: rest) = token.singles ++ singles rest := rfl

/-- Tokens in two parts are split part by part. -/
@[simp] theorem singles_append (first second : List Token) :
    singles (first ++ second) = singles first ++ singles second :=
  List.flatMap_append

/-- Whether the lexeme is a closing angle bracket or a longer mark that starts with one. -/
def Lexeme.isAngle : Lexeme → Bool
  | .mark m => m.behindAngle?.isSome
  | _ => false

/-- A function that has no answer for angle brackets has its answers for something else. -/
theorem Lexeme.isAngle_eq_false {α : Type} {f : Lexeme → Option α}
    (hf : ∀ lexeme : Lexeme, lexeme.isAngle = true → f lexeme = none) {lexeme : Lexeme} {value : α}
    (h : f lexeme = some value) : lexeme.isAngle = false := by
  rw [Bool.eq_false_iff]
  intro hangle
  rw [hf lexeme hangle] at h
  cases h

namespace Token

/-- A token that does not start with a closing angle bracket is one by itself. -/
theorem singles_of_not_isAngle {token : Token} (h : token.lexeme.isAngle = false) :
    token.singles = [token] := by
  obtain ⟨lexeme, start, stop⟩ := token
  cases lexeme with
  | mark mark => cases mark <;> first | rfl | cases h
  | _ => rfl

/-- There is always a first one, and it starts where the token does. -/
theorem exists_singles_eq_cons (token : Token) : ∃ first rest, token.singles = first :: rest
    ∧ first.start = token.start
    ∧ first.lexeme = if token.lexeme.isAngle then .mark .greater else token.lexeme := by
  obtain ⟨lexeme, start, stop⟩ := token
  cases lexeme with
  | mark mark => cases mark <;> exact ⟨_, _, rfl, rfl, rfl⟩
  | _ => exact ⟨_, _, rfl, rfl, rfl⟩

/-- A token is split into one at least. -/
theorem length_singles_pos (token : Token) : 0 < token.singles.length := by
  obtain ⟨first, rest, h, -⟩ := token.exists_singles_eq_cons
  rw [h]
  exact Nat.succ_pos _

end Token

end Facade
