import Facade.Text.Place

/-!
# Lines and columns of a run of characters

The line of a place counts the line feeds in front of it, and the column counts the characters
behind the last of them.
-/

set_option autoImplicit false

namespace Facade.Text

/-- Every line feed leads one line down. -/
theorem Place.line_afterAll (place : Place) (run : List Char) :
    (place.afterAll run).line = place.line + run.count '\n' := by
  induction run generalizing place with
  | nil => rfl
  | cons c run ih =>
    have hrest : (place.afterAll (c :: run)).line = (place.after c).line + run.count '\n' :=
      ih (place.after c)
    rw [hrest, Place.after, List.count_cons]
    by_cases hc : c = '\n'
    · simp [hc]
      omega
    · simp [hc]

/-- Without a line feed, columns are counted on. -/
theorem Place.afterAll_of_not_mem {line : List Char} (h : '\n' ∉ line) (place : Place) :
    place.afterAll line = ⟨place.line, place.column + line.length⟩ := by
  induction line generalizing place with
  | nil => rfl
  | cons c rest ih =>
    have hc : c ≠ '\n' := by
      rintro rfl
      exact h List.mem_cons_self
    show (place.after c).afterAll rest = _
    rw [ih fun hin => h (List.mem_cons_of_mem c hin), Place.after, if_neg hc, List.length_cons,
      Nat.add_comm rest.length, ← Nat.add_assoc]

/-- Every text ends with a line that has no line feed. -/
theorem exists_last_line (text : List Char) : '\n' ∉ text
    ∨ ∃ front line, text = front ++ '\n' :: line ∧ '\n' ∉ line := by
  induction text with
  | nil => exact .inl List.not_mem_nil
  | cons c rest ih =>
    rcases ih with hrest | ⟨front, line, rfl, hline⟩
    · by_cases hc : c = '\n'
      · exact .inr ⟨[], rest, by rw [hc]; rfl, hrest⟩
      · refine .inl fun hin => ?_
        rcases List.mem_cons.mp hin with heq | hin
        · exact hc heq.symm
        · exact hrest hin
    · exact .inr ⟨c :: front, line, rfl, hline⟩

end Facade.Text
