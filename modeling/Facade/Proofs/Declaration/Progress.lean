import Facade.Proofs.Declaration.Respect.Declarations

/-!
# Readers that take a token

A loop over a reader ends on every stream if the reader does not answer without taking a token. To
take a closing angle bracket is not enough for that: off a longer mark, it leaves as many tokens as
there were. That no reader leaves more tokens than it finds, and that names, types and declarations
take one, is part of how readers respect simulations (`bounded_of_alike`, `takes_of_takes`). What is
left are members, which take a token in each of their forms (`takes_member`).
-/

set_option autoImplicit false

namespace Facade.Reader

open Simulation (same)

/-! ### Rules -/

/-- A reader that leaves no more tokens than it finds. -/
def Bounded {α : Type} (reader : Reader α) : Prop :=
  ∀ stream, reader.Ensures stream fun _ rest => rest.size ≤ stream.size

/-- A reader that leaves fewer tokens than it finds. -/
def Takes {α : Type} (reader : Reader α) : Prop :=
  ∀ stream, reader.Ensures stream fun _ rest => rest.size < stream.size

/-- A reader that is regular leaves no more tokens than it finds. -/
theorem bounded_of_alike {α : Type} {reader : Reader α} (h : ∀ n, same.Alike n reader reader) :
    Bounded reader := by
  intro stream reading hread
  have houtcome := h (stream.size + 1) rfl (Nat.lt_succ_self _) (Nat.lt_succ_self _)
  rw [hread] at houtcome
  cases houtcome with
  | ok _ _ hlt _ => exact Nat.le_of_lt_succ hlt

/-- A reader that is known to take a token leaves fewer. -/
theorem takes_of_takes {α : Type} {reader : Reader α} (h : ∀ n, same.Takes n reader reader) :
    Takes reader := by
  intro stream reading hread
  have houtcome := h (stream.size + 1) rfl (Nat.lt_succ_self _) (Nat.lt_succ_self _)
  rw [hread] at houtcome
  cases houtcome with
  | ok _ _ hlt _ => exact hlt

section

variable {α β : Type} {reader : Reader α} {next : α → Reader β}

/-- What follows a reader that takes a token need not take one. -/
theorem Takes.bind (h : Takes reader) (hnext : ∀ value, Bounded (next value)) :
    Takes (reader >>= next) := fun stream =>
  ensures_bind ((h stream).imp fun value rest hlt =>
    (hnext value rest).imp fun _ _ hle => Nat.lt_of_le_of_lt hle hlt)

/-- Nor need what comes in front of it. -/
theorem Bounded.bind (h : Bounded reader) (hnext : ∀ value, Takes (next value)) :
    Takes (reader >>= next) := fun stream =>
  ensures_bind ((h stream).imp fun value rest hle =>
    (hnext value rest).imp fun _ _ hlt => Nat.lt_of_lt_of_le hlt hle)

/-- To take a lexeme, or else to read on with a reader that takes a token, takes a token. -/
theorem takes_accept {lexeme : Lexeme} {next : Bool → Reader β} (htrue : Bounded (next true))
    (hfalse : Takes (next false)) : Takes (accept lexeme >>= next) := fun stream =>
  ensures_bind (ensures_accept
    (fun hnext => (htrue stream.tail).imp fun _ _ hle =>
      Nat.lt_of_le_of_lt hle (Stream.size_tail_lt hnext))
    fun _ => hfalse stream)

/-- To look at what comes first leaves it to the rest of the reader to take a token. -/
theorem takes_look {f : Stream → α} (h : ∀ value, Takes (next value)) :
    Takes (look f >>= next) := fun stream =>
  ensures_bind (ensures_look (h (f stream) stream))

/-- A choice takes a token if both of its branches do. -/
theorem takes_ite {condition : Prop} [Decidable condition] {other : Reader α} (h : Takes reader)
    (hother : Takes other) : Takes (if condition then reader else other) := fun stream =>
  ensures_ite (fun _ => h stream) fun _ => hother stream

end

/-! ### Members -/

/-- Parameters in parentheses take a token. -/
theorem takes_parameters : Takes (parameters TypeExpr.reader) := by
  refine Takes.bind (takes_of_takes fun n => Simulation.takes_expect rfl) fun _ =>
    bounded_of_alike fun n => ?_
  refine Simulation.alike_bind (Simulation.alike_separatedUntil rfl
    (fun _ => Simulation.separates_accept rfl) ?_) fun _ => ?_
  · exact (Simulation.alike_parameterOrReceiver Simulation.alike_typeReader).anti (Nat.le_succ n)
  · exact Simulation.alike_bind (Simulation.takes_expect rfl).alike fun _ => Simulation.alike_pure _

/-- So does a signature. -/
theorem takes_signature : Takes (signature TypeExpr.reader) := by
  refine Bounded.bind (bounded_of_alike fun n => ?_) fun _ => takes_parameters.bind fun _ =>
    bounded_of_alike fun n => ?_
  · exact (Simulation.alike_typeParameters Simulation.alike_typeReader).anti (Nat.le_succ n)
  · exact Simulation.alike_bind (Simulation.alike_typeAfterReader rfl) fun _ =>
      Simulation.alike_pure _

/-- So does what stands behind the modifiers of a member. -/
theorem takes_memberBody : Takes (memberBody TypeExpr.reader) := by
  have hsignature {f : Signature → Member} :
      Takes (signature TypeExpr.reader >>= fun signature => pure (f signature)) :=
    takes_signature.bind fun _ => bounded_of_alike fun _ => Simulation.alike_pure _
  refine takes_accept (bounded_of_alike fun n => ?_) ?_
  · refine Simulation.alike_bind
      ((Simulation.alike_parameter Simulation.alike_typeReader).anti (Nat.le_succ n)) fun _ => ?_
    refine Simulation.alike_bind (Simulation.takes_expect rfl).alike fun _ => ?_
    refine Simulation.alike_bind (Simulation.takes_expect rfl).alike fun _ => ?_
    exact Simulation.alike_bind Simulation.alike_typeReader fun _ => Simulation.alike_pure _
  refine takes_look fun _ => takes_ite hsignature ?_
  refine takes_look fun _ => takes_look fun _ => takes_ite ?_ ?_
  · refine Bounded.bind (fun stream => ensures_skip ?_) fun _ => hsignature
    exact (List.tail_suffix stream.tokens).length_le
  refine Takes.bind (takes_of_takes fun n => Simulation.takes_propertyName) fun _ =>
    bounded_of_alike fun n => ?_
  refine Simulation.alike_bind (Simulation.alike_acceptOnly rfl) fun _ => ?_
  refine Simulation.alike_ifNext (fun _ => Simulation.startsSignature_of_isAngle) ?_ ?_
  · exact Simulation.alike_bind
      ((Simulation.alike_signature Simulation.alike_typeReader).anti (Nat.le_succ n)) fun _ =>
        Simulation.alike_pure _
  · exact Simulation.alike_bind (Simulation.alike_typeAfterReader rfl) fun _ =>
      Simulation.alike_pure _

/-- So does a member. -/
theorem takes_member : Takes (member TypeExpr.reader) := by
  refine Bounded.bind (fun stream => ensures_take ?_) fun isStatic => ?_
  · exact Simulation.length_splitModifiers_le stream.tokens
  · exact takes_memberBody.bind fun _ => bounded_of_alike fun _ => Simulation.alike_pure _

end Facade.Reader
