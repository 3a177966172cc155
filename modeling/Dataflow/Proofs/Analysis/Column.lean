import Dataflow.Proofs.Graph.Flow
import Mathlib.Data.Finset.Card
import Mathlib.Logic.Function.Iterate

/-! One fact followed through the sweeps. A delivery either leaves the fact at its target alone or
gives it the value that the join never takes back, so a fact at a node moves at most once, a sweep
that leaves it alone everywhere is repeated by every later sweep, and no more sweeps move it than
there are nodes.
-/

namespace Dataflow

/-- The value a fact keeps once it has arrived: a union holds it for good, a subtraction drops it
for good.
-/
def Join.settled : Join → Bool
  | union => true
  | subtract => false

theorem Join.bit_eq_ite (join : Join) (held arriving : Bool)
    : join.bit held arriving = if arriving then join.settled else held := by
  cases join <;> cases held <;> cases arriving <;> rfl

namespace Analysis

/-- One fact's value at every node. -/
abbrev Column := Node → Bool

/-- How one fact is merged, where it is established and where it is killed. -/
structure FactRule where
  join : Join
  gens : Column
  kills : Column

-----------------------------------------------------------------------------------------
-- Columns move towards the settled value
-----------------------------------------------------------------------------------------

/-- Wherever `after` differs from `before`, it has settled. -/
def Advances (join : Join) (before after : Column) : Prop :=
  ∀ node, after node = before node ∨ after node = join.settled

theorem Advances.refl (join : Join) (column : Column) : Advances join column column :=
  fun _ => Or.inl rfl

theorem Advances.trans {join : Join} {first middle last : Column}
    (early : Advances join first middle) (late : Advances join middle last)
    : Advances join first last := by
  intro node
  rcases late node with same | settled
  · rw [same]
    exact early node
  · exact Or.inr settled

theorem Advances.antisymm {join : Join} {left right : Column}
    (forth : Advances join left right) (back : Advances join right left)
    : left = right := by
  funext node
  rcases forth node with same | settled
  · exact same.symm
  · rcases back node with same | alsoSettled
    · exact same
    · rw [settled, alsoSettled]

theorem Advances.settled {join : Join} {before after : Column}
    (advances : Advances join before after) {node : Node} (settled : before node = join.settled)
    : after node = join.settled := by
  rcases advances node with same | moved
  · rw [same, settled]
  · exact moved

namespace FactRule

-----------------------------------------------------------------------------------------
-- Visits and sweeps of one fact
-----------------------------------------------------------------------------------------

/-- Whether the fact leaves a node. -/
def leaving (rule : FactRule) (column : Column) (node : Node) : Bool :=
  (column node || rule.gens node) && !rule.kills node

/-- Merge the fact into its value at a target. -/
def deliver (rule : FactRule) (arriving : Bool) (column : Column) (target : Node) : Column :=
  fun node => if node = target then rule.join.bit (column target) arriving else column node

/-- Carry the fact from a node to all its targets. -/
def visit (rule : FactRule) (column : Column) (stop : Stop) : Column :=
  stop.targets.foldl (rule.deliver (rule.leaving column stop.node)) column

/-- Visit every stop once. -/
def sweep (rule : FactRule) (stops : List Stop) (column : Column) : Column :=
  stops.foldl rule.visit column

theorem foldl_deliver_apply (rule : FactRule) (arriving : Bool) (targets : List Node)
    (column : Column) (node : Node)
    : targets.foldl (rule.deliver arriving) column node
      = if arriving = true ∧ node ∈ targets then rule.join.settled else column node := by
  induction targets generalizing column with
  | nil => simp
  | cons target rest ih =>
      rw [List.foldl_cons, ih, deliver, Join.bit_eq_ite]
      by_cases here : node = target
      · cases arriving <;> simp [here]
      · simp [here]

/-- A visit settles the fact at all targets if it leaves the node, and does nothing otherwise.
The value that leaves is read before the first delivery, so a node that feeds itself is no
exception.
-/
theorem visit_apply (rule : FactRule) (column : Column) (stop : Stop) (node : Node)
    : rule.visit column stop node
      = if rule.leaving column stop.node = true ∧ node ∈ stop.targets then rule.join.settled
        else column node :=
  rule.foldl_deliver_apply _ _ _ _

theorem advances_visit (rule : FactRule) (column : Column) (stop : Stop)
    : Advances rule.join column (rule.visit column stop) := by
  intro node
  rw [visit_apply]
  split
  · exact Or.inr rfl
  · exact Or.inl rfl

theorem visit_eq_self_iff (rule : FactRule) (column : Column) (stop : Stop)
    : rule.visit column stop = column
      ↔ (rule.leaving column stop.node = true
        → ∀ target ∈ stop.targets, column target = rule.join.settled) := by
  constructor
  · intro same leaves target listed
    rw [← same, visit_apply, if_pos ⟨leaves, listed⟩]
  · intro settled
    funext node
    rw [visit_apply]
    split
    case isTrue moved => exact (settled moved.1 node moved.2).symm
    case isFalse => rfl

theorem advances_sweep (rule : FactRule) (stops : List Stop) (column : Column)
    : Advances rule.join column (rule.sweep stops column) := by
  induction stops generalizing column with
  | nil => exact .refl rule.join column
  | cons stop rest ih => exact (rule.advances_visit column stop).trans (ih _)

/-- A sweep changes nothing exactly when none of its visits would. Witness: the visits advance, so a
visit that moved the fact somewhere could not be undone by the later ones.
-/
theorem sweep_eq_self_iff (rule : FactRule) (stops : List Stop) (column : Column)
    : rule.sweep stops column = column
      ↔ ∀ stop ∈ stops, rule.visit column stop = column := by
  induction stops generalizing column with
  | nil => simp [sweep]
  | cons stop rest ih =>
      rw [List.forall_mem_cons]
      constructor
      · intro quiet
        have back : Advances rule.join (rule.visit column stop) column := by
          have later := rule.advances_sweep rest (rule.visit column stop)
          rwa [show rule.sweep rest (rule.visit column stop) = column from quiet] at later
        have still := ((rule.advances_visit column stop).antisymm back).symm
        refine ⟨still, (ih column).mp ?_⟩
        rwa [sweep, List.foldl_cons, still] at quiet
      · rintro ⟨still, others⟩
        rw [sweep, List.foldl_cons, still]
        exact (ih column).mpr others

/-- A fact that is at no node and established at none stays where it is, under either join: it never
leaves a node.
-/
theorem sweep_of_absent (rule : FactRule) {column : Column}
    (absent : ∀ node, column node = false) (ungenerated : ∀ node, rule.gens node = false)
    (stops : List Stop)
    : rule.sweep stops column = column := by
  apply (rule.sweep_eq_self_iff stops column).mpr
  intro stop _
  apply (rule.visit_eq_self_iff column stop).mpr
  intro leaves
  simp [leaving, absent, ungenerated] at leaves

-----------------------------------------------------------------------------------------
-- How many sweeps can move one fact
-----------------------------------------------------------------------------------------

/-- A sweep does not touch a fact at a node to which no stop carries it. -/
theorem sweep_apply_of_unfed (rule : FactRule) {stops : List Stop} {node : Node}
    (unfed : ∀ stop ∈ stops, node ∉ stop.targets) (column : Column)
    : rule.sweep stops column node = column node := by
  induction stops generalizing column with
  | nil => rfl
  | cons stop rest ih =>
      obtain ⟨absent, later⟩ := List.forall_mem_cons.mp unfed
      rw [sweep, List.foldl_cons]
      refine (ih later (rule.visit column stop)).trans ?_
      rw [visit_apply, if_neg fun both => absent both.2]

theorem sweep_apply_of_le (rule : FactRule) {stops : List Stop} {count : Nat}
    (inRange : RouteInRange count stops) (column : Column) {node : Node} (outside : count ≤ node)
    : rule.sweep stops column node = column node := by
  refine rule.sweep_apply_of_unfed (fun stop member listed => ?_) column
  exact Nat.not_lt.mpr outside ((inRange stop member).2 node listed)

/-- The number of the first `count` nodes at which a column has settled. -/
def settledCount (join : Join) (count : Nat) (column : Column) : Nat :=
  ((Finset.range count).filter fun node => column node = join.settled).card

theorem settledCount_le (join : Join) (count : Nat) (column : Column)
    : settledCount join count column ≤ count :=
  (Finset.card_filter_le _ _).trans (Finset.card_range count).le

/-- A fact that moves at one of the nodes settles there, and is settled wherever it was before. -/
theorem settledCount_lt_of_moved {join : Join} {count : Nat} {before after : Column}
    (advances : Advances join before after) {node : Node} (inside : node < count)
    (moved : after node ≠ before node)
    : settledCount join count before < settledCount join count after := by
  have settled := (advances node).resolve_left moved
  apply Finset.card_lt_card
  refine (Finset.ssubset_iff_of_subset ?_).mpr ⟨node, ?_, ?_⟩
  · intro other member
    rw [Finset.mem_filter] at member ⊢
    exact ⟨member.1, advances.settled member.2⟩
  · exact Finset.mem_filter.mpr ⟨Finset.mem_range.mpr inside, settled⟩
  · intro member
    exact moved (settled.trans (Finset.mem_filter.mp member).2.symm)

/-- A sweep that moves the fact moves it at one of the nodes of the route. -/
theorem exists_moved (rule : FactRule) {stops : List Stop} {count : Nat}
    (inRange : RouteInRange count stops) {column : Column}
    (moving : rule.sweep stops column ≠ column)
    : ∃ node < count, rule.sweep stops column node ≠ column node := by
  obtain ⟨node, moved⟩ := Function.ne_iff.mp moving
  refine ⟨node, ?_, moved⟩
  by_contra outside
  exact moved (rule.sweep_apply_of_le inRange column (Nat.not_lt.mp outside))

/-- A sweep that moves the fact settles it at one more node at least. -/
theorem settledCount_lt_sweep (rule : FactRule) {stops : List Stop} {count : Nat}
    (inRange : RouteInRange count stops) {column : Column}
    (moving : rule.sweep stops column ≠ column)
    : settledCount rule.join count column
      < settledCount rule.join count (rule.sweep stops column) := by
  obtain ⟨node, inside, moved⟩ := rule.exists_moved inRange moving
  exact settledCount_lt_of_moved (rule.advances_sweep stops column) inside moved

/-- A sweep that moves the fact comes after sweeps that all moved it, so the number of settled nodes
has kept pace with the number of sweeps. By induction on the sweeps, since a quiet sweep would
have been repeated.
-/
theorem lt_settledCount_iterate (rule : FactRule) {stops : List Stop} {count : Nat}
    (inRange : RouteInRange count stops) (column : Column) (index : Nat)
    (moving : rule.sweep stops ((rule.sweep stops)^[index] column)
      ≠ (rule.sweep stops)^[index] column)
    : index < settledCount rule.join count ((rule.sweep stops)^[index + 1] column) := by
  induction index with
  | zero => exact Nat.zero_lt_of_lt (rule.settledCount_lt_sweep inRange moving)
  | succ index ih =>
      have earlier : rule.sweep stops ((rule.sweep stops)^[index] column)
          ≠ (rule.sweep stops)^[index] column := by
        intro quiet
        rw [Function.iterate_succ_apply', quiet] at moving
        exact moving quiet
      have grown := rule.settledCount_lt_sweep inRange moving
      rw [← Function.iterate_succ_apply' (rule.sweep stops)] at grown
      exact Nat.lt_of_le_of_lt (ih earlier) grown

/-- Only the first `count` sweeps can move the fact. -/
theorem index_lt_of_moving (rule : FactRule) {stops : List Stop} {count : Nat}
    (inRange : RouteInRange count stops) (column : Column) {index : Nat}
    (moving : rule.sweep stops ((rule.sweep stops)^[index] column)
      ≠ (rule.sweep stops)^[index] column)
    : index < count :=
  (rule.lt_settledCount_iterate inRange column index moving).trans_le (settledCount_le _ _ _)

end FactRule

end Analysis

end Dataflow
