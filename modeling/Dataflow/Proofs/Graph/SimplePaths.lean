import Dataflow.Graph.Basic
import Mathlib.Logic.Basic

/-! Paths given by the node at each of their positions, and how to shorten them. A path that comes
to a node twice can do without what lies between, so wherever a path leads, one leads that repeats
no node; only a path back to its first node has to keep the two ends.
-/

namespace Dataflow

/-- A path repeats no node, except that the first and the last may be the same. -/
def Simple (length : Nat) (path : Nat → Node) : Prop :=
  ∀ first second,
    first < second
    → second ≤ length
    → path first = path second
    → first = 0 ∧ second = length

/-- A path of one step or more from a node at which it may begin to `node`. -/
structure PathTo (step : Node → Node → Prop) (begins : Node → Prop) (node : Node) (length : Nat)
    (path : Nat → Node)
    : Prop where
  nonempty : 1 ≤ length
  begins : begins (path 0)
  steps : ∀ index < length, step (path index) (path (index + 1))
  last : path length = node

/-- The path with one more node at its end. -/
def withEnd (path : Nat → Node) (length : Nat) (target : Node) : Nat → Node :=
  fun index => if index ≤ length then path index else target

/-- The path without what lies between two of its positions. -/
def without (path : Nat → Node) (first second : Nat) : Nat → Node :=
  fun index => if index ≤ first then path index else path (index + (second - first))

namespace PathTo

variable {step : Node → Node → Prop} {begins : Node → Prop} {node target : Node} {length : Nat}
  {path : Nat → Node}

theorem single {source : Node} (beginning : begins source) (stepping : step source target)
    : PathTo step begins target 1 fun index => if index = 0 then source else target where
  nonempty := Nat.le_refl 1
  begins := beginning
  steps := by
    intro index inside
    cases Nat.lt_one_iff.mp inside
    exact stepping
  last := rfl

theorem prolong (along : PathTo step begins node length path) (further : step node target)
    : PathTo step begins target (length + 1) (withEnd path length target) where
  nonempty := Nat.le_add_left 1 length
  begins := along.begins
  steps := by
    intro index inside
    have old : withEnd path length target index = path index :=
      if_pos (Nat.le_of_lt_succ inside)
    rw [old]
    by_cases within : index + 1 ≤ length
    · rw [withEnd, if_pos within]
      exact along.steps index within
    · have ends : index = length := by omega
      rw [withEnd, if_neg within, ends, along.last]
      exact further
  last := if_neg (by omega)

/-- Between two visits to the same node a path can be cut short, unless nothing would be left. -/
theorem cutOut (along : PathTo step begins node length path) {first second : Nat}
    (ordered : first < second) (inside : second ≤ length) (same : path first = path second)
    (part : ¬(first = 0 ∧ second = length))
    : PathTo step begins node (length - (second - first)) (without path first second) where
  nonempty := by omega
  begins := along.begins
  steps := by
    intro index within
    by_cases before : index + 1 ≤ first
    · rw [without, without, if_pos before, if_pos (by omega)]
      exact along.steps index (by omega)
    · have after : without path first second (index + 1)
          = path (index + (second - first) + 1) := by
        rw [without, if_neg before]
        congr 1
        omega
      have here : without path first second index = path (index + (second - first)) := by
        by_cases junction : index = first
        · rw [without, if_pos (by omega), junction, same]
          congr 1
          omega
        · rw [without, if_neg (by omega)]
      rw [after, here]
      exact along.steps _ (by omega)
  last := by
    by_cases ends : second = length
    · rw [without, if_pos (by omega), show length - (second - first) = first by omega, same,
        ends, along.last]
    · rw [without, if_neg (by omega),
        show length - (second - first) + (second - first) = length by omega, along.last]

/-- Where a path leads, one leads that repeats no node. By induction on its length: a path that
repeats one can be cut short.
-/
theorem exists_simple (along : PathTo step begins node length path)
    : ∃ shorter direct, PathTo step begins node shorter direct ∧ Simple shorter direct := by
  induction length using Nat.strongRecOn generalizing path with
  | ind length ih =>
      by_cases simple : Simple length path
      · exact ⟨length, path, along, simple⟩
      · simp only [Simple, not_forall] at simple
        obtain ⟨first, second, ordered, inside, same, part⟩ := simple
        exact ih (length - (second - first)) (by omega) (along.cutOut ordered inside same part)

end PathTo

end Dataflow
