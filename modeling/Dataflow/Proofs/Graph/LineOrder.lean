import Dataflow.Proofs.Graph.VisitingOrder

/-! The depth-first walk along a line. Where each node leads to the next one, and apart from that
only to itself and to earlier nodes, the walk finishes nothing before it has come to the last node.
Until then every node that it has come to is suspended, so the nodes are finished in the reverse of
their order.
-/

namespace Dataflow

namespace PostOrder

/-- Each of the first `count` nodes leads to the next one, if there is one, and to none beyond. -/
def Stepwise (successors : Node → Except Fault (List Node)) (count : Nat) : Prop :=
  ∀ node : Nat,
    node < count
    → ∃ targets, successors node = .ok targets
      ∧ (∀ target : Nat, target ∈ targets → target < count ∧ target ≤ node + 1)
      ∧ (node + 1 < count → node + 1 ∈ targets)

theorem Stepwise.total {successors : Node → Except Fault (List Node)} {count : Nat}
    (stepwise : Stepwise successors count)
    : Total successors count := by
  intro node inside
  obtain ⟨targets, found, bounded, _⟩ := stepwise node inside
  exact ⟨targets, found, fun target listed => (bounded target listed).1⟩

/-- The walk has come to the nodes before `reached` and to no others, and will finish them last
first. While there are nodes left it has finished none, and the next one is still pending.
-/
structure Plunging (count reached : Nat) (marks : Array Bool) (stack : List Suspended)
    (finished : List Node)
    : Prop where
  bounded : reached ≤ count
  size : marks.size = count
  marked : ∀ node : Nat, marks[node]? = some true ↔ node < reached
  descending : trail stack finished = (List.range reached).reverse
  onward
    : reached < count
      → finished = []
        ∧ ∃ top below, stack = top :: below
          ∧ reached ∈ top.pending
          ∧ ∀ target : Nat, target ∈ top.pending → target ≤ reached

namespace Plunging

variable {count reached : Nat} {marks : Array Bool} {finished pending : List Node}
  {below : List Suspended} {node target : Node}

/-- The next node cannot be pending where nothing is, so there is none left. -/
theorem finish (plunging : Plunging count reached marks (⟨node, []⟩ :: below) finished)
    : Plunging count reached marks below (node :: finished) where
  bounded := plunging.bounded
  size := plunging.size
  marked := plunging.marked
  descending := by
    rw [← plunging.descending]
    simp [trail]
  onward := by
    intro left
    obtain ⟨_, top, _, same, next, _⟩ := plunging.onward left
    cases same
    exact absurd next List.not_mem_nil

theorem skip
    (plunging : Plunging count reached marks (⟨node, target :: pending⟩ :: below) finished)
    (seen : marks[target]? = some true)
    : Plunging count reached marks (⟨node, pending⟩ :: below) finished where
  bounded := plunging.bounded
  size := plunging.size
  marked := plunging.marked
  descending := plunging.descending
  onward := by
    intro left
    obtain ⟨none, top, _, same, next, upTo⟩ := plunging.onward left
    cases same
    have before : target < reached := (plunging.marked target).mp seen
    refine ⟨none, _, _, rfl, ?_, fun later listed => upTo later (List.mem_cons_of_mem _ listed)⟩
    exact (List.mem_cons.mp next).resolve_left (Nat.ne_of_gt before)

/-- A node that is not marked yet can only be the next one. -/
theorem descend {successors : Node → Except Fault (List Node)}
    (stepwise : Stepwise successors count)
    (plunging : Plunging count reached marks (⟨node, target :: pending⟩ :: below) finished)
    (unseen : marks[target]? = some false) {targets : List Node}
    (found : successors target = .ok targets)
    : Plunging count (reached + 1) (marks.setIfInBounds target true)
        (⟨target, targets⟩ :: ⟨node, pending⟩ :: below) finished := by
  have stored : target < marks.size := (Array.getElem?_eq_some_iff.mp unseen).1
  have inside : target < count := plunging.size ▸ stored
  have fresh : reached ≤ target := by
    by_contra earlier
    rw [(plunging.marked target).mpr (Nat.lt_of_not_le earlier)] at unseen
    cases unseen
  have left : reached < count := Nat.lt_of_le_of_lt fresh inside
  obtain ⟨rfl, top, _, same, _, upTo⟩ := plunging.onward left
  cases same
  obtain rfl : target = reached := Nat.le_antisymm (upTo target List.mem_cons_self) fresh
  obtain ⟨others, alsoFound, bounded, next⟩ := stepwise target inside
  cases found.symm.trans alsoFound
  constructor
  case bounded => exact left
  case size => rw [Array.size_setIfInBounds, plunging.size]
  case marked =>
    intro other
    rw [mark_iff stored, plunging.marked other, or_comm]
    exact Nat.lt_succ_iff_lt_or_eq.symm
  case descending =>
    rw [List.range_succ, List.reverse_append, ← plunging.descending]
    simp [trail]
  case onward =>
    exact fun further => ⟨rfl, _, _, rfl, next further, fun later listed => (bounded later listed).2⟩

/-- A walk that gives a result gives all nodes in the reverse of their order, by induction on its
recursion.
-/
theorem result {successors : Node → Except Fault (List Node)}
    (stepwise : Stepwise successors count) {stack : List Suspended} {order : List Node}
    (plunging : Plunging count reached marks stack finished)
    (walked : walk successors marks stack finished = .ok order)
    : order = (List.range count).reverse := by
  fun_induction walk successors marks stack finished generalizing reached with
  | case1 marks finished =>
      cases walked
      have all : reached = count := by
        refine Nat.le_antisymm plunging.bounded (Nat.not_lt.mp fun left => ?_)
        obtain ⟨_, _, _, same, _⟩ := plunging.onward left
        cases same
      rw [← all, ← plunging.descending]
      exact (List.append_nil _).symm
  | case2 marks finished node below ih => exact ih plunging.finish walked
  | case3 marks finished node target pending below missing => cases walked
  | case4 marks finished node target pending below seen ih => exact ih (plunging.skip seen) walked
  | case5 marks finished node target pending below unseen fault failed => cases walked
  | case6 marks finished node target pending below unseen targets found ih =>
      exact ih (plunging.descend stepwise unseen found) walked

end Plunging

/-- Along a line the walk from the first node lists all nodes, the last one first. -/
theorem nodesFrom_of_stepwise {successors : Node → Except Fault (List Node)} {count : Nat}
    (stepwise : Stepwise successors count) (nonempty : 0 < count)
    : nodesFrom successors count 0 = .ok (List.range count).reverse := by
  obtain ⟨order, listed, _⟩ := mem_nodesFrom_iff stepwise.total nonempty
  obtain ⟨targets, found, bounded, next⟩ := stepwise 0 nonempty
  have walked := listed
  rw [nodesFrom, if_pos nonempty, found, ok_bind] at walked
  have stored : 0 < (Array.replicate count false).size := by simpa using nonempty
  have plunging : Plunging count 1 ((Array.replicate count false).setIfInBounds 0 true)
      [⟨0, targets⟩] [] := {
    bounded := nonempty
    size := by simp
    marked := by
      intro node
      rw [mark_iff stored]
      simp [Array.getElem?_replicate]
    descending := rfl
    onward := fun left =>
      ⟨rfl, _, _, rfl, next left, fun target pending => (bounded target pending).2⟩
  }
  rw [listed, plunging.result stepwise walked]

end PostOrder

end Dataflow
