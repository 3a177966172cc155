/-! Sets of code points, given as closed ranges. A set is read by `CodePoints.contains`, whatever
the order of its ranges.
-/

namespace Dataflow.Text

/-- A set of code points as closed ranges, each by its first and last member. -/
abbrev CodePoints := List (Nat × Nat)

namespace CodePoints

/-- Whether a code point lies in one of the ranges. -/
def contains (points : CodePoints) (point : Nat) : Bool :=
  points.any fun range => range.1 ≤ point && point ≤ range.2

/-- Whether the ranges stay clear of the code points from `first` to `last`. -/
def avoids (points : CodePoints) (first last : Nat) : Bool :=
  points.all fun range => range.2 < first || last < range.1

/-- A code point is in the set exactly when a range holds it. -/
theorem contains_iff {points : CodePoints} {point : Nat}
    : points.contains point = true
      ↔ ∃ range ∈ points, range.1 ≤ point ∧ point ≤ range.2 := by
  simp [contains]

/-- Ranges that stay clear of a stretch contain nothing of it. -/
theorem contains_of_avoids {points : CodePoints} {first last point : Nat}
    (clear : points.avoids first last = true) (lower : first ≤ point) (upper : point ≤ last)
    : points.contains point = false := by
  rw [Bool.eq_false_iff]
  intro found
  obtain ⟨range, member, above, below⟩ := contains_iff.mp found
  have apart := List.all_eq_true.mp clear range member
  simp only [Bool.or_eq_true, decide_eq_true_eq] at apart
  omega

end CodePoints

end Dataflow.Text
