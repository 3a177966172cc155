import Dataflow.Proofs.Graph.Accepted
import Dataflow.Proofs.Graph.Reachable

/-! The depth-first walk lists every node that it reaches once, and the start last. Read the
finished nodes in their order and after them the suspended ones, the innermost first. Finishing a
node leaves this list as it is, and a node that the walk comes to enters it ahead of a suspended
node and is new to it. When nothing is suspended any more the list is the result.
-/

namespace Dataflow

namespace PostOrder

/-- The finished nodes in their order, then the suspended ones in the order in which they will be
finished.
-/
def trail (stack : List Suspended) (finished : List Node) : List Node :=
  finished.reverse ++ stack.map Suspended.node

/-- The trail of a walk from `start` repeats no node, has marked nodes only, and ends with `start`.
-/
structure Trailing (start : Node) (marks : Array Bool) (stack : List Suspended)
    (finished : List Node)
    : Prop where
  marked : ∀ node ∈ trail stack finished, marks[node]? = some true
  distinct : (trail stack finished).Nodup
  last : (trail stack finished).getLast? = some start

namespace Trailing

variable {start node target : Node} {marks : Array Bool} {finished pending : List Node}
  {below : List Suspended}

theorem finish (trailing : Trailing start marks (⟨node, []⟩ :: below) finished)
    : Trailing start marks below (node :: finished) := by
  have same : trail below (node :: finished) = trail (⟨node, []⟩ :: below) finished := by
    simp [trail]
  constructor
  · exact same ▸ trailing.marked
  · exact same ▸ trailing.distinct
  · exact same ▸ trailing.last

theorem skip (trailing : Trailing start marks (⟨node, target :: pending⟩ :: below) finished)
    : Trailing start marks (⟨node, pending⟩ :: below) finished :=
  ⟨trailing.marked, trailing.distinct, trailing.last⟩

/-- A node that is not marked yet is new to the trail. It enters ahead of the node that leads to it,
so the end of the trail stays where it is.
-/
theorem descend (trailing : Trailing start marks (⟨node, target :: pending⟩ :: below) finished)
    (unseen : marks[target]? = some false) (targets : List Node)
    : Trailing start (marks.setIfInBounds target true)
        (⟨target, targets⟩ :: ⟨node, pending⟩ :: below) finished := by
  have inside : target < marks.size := (Array.getElem?_eq_some_iff.mp unseen).1
  have fresh : target ∉ trail (⟨node, target :: pending⟩ :: below) finished := by
    intro listed
    have seen := trailing.marked target listed
    rw [unseen] at seen
    cases seen
  have moved : (trail (⟨target, targets⟩ :: ⟨node, pending⟩ :: below) finished).Perm
      (target :: trail (⟨node, target :: pending⟩ :: below) finished) :=
    List.perm_middle
  constructor
  · intro other listed
    apply (mark_iff inside other).mpr
    rcases List.mem_cons.mp (moved.mem_iff.mp listed) with here | before
    · exact Or.inl here
    · exact Or.inr (trailing.marked other before)
  · exact moved.nodup_iff.mpr (List.nodup_cons.mpr ⟨fresh, trailing.distinct⟩)
  · have ends := trailing.last
    simp only [trail, List.map_cons, List.getLast?_append_cons, List.getLast?_cons_cons] at ends ⊢
    exact ends

/-- A walk that gives a result gives its trail, by induction on its recursion. -/
theorem result {successors : Node → Except Fault (List Node)} {stack : List Suspended}
    {order : List Node} (trailing : Trailing start marks stack finished)
    (walked : walk successors marks stack finished = .ok order)
    : order.Nodup ∧ order.getLast? = some start := by
  fun_induction walk successors marks stack finished with
  | case1 marks finished =>
      cases walked
      have whole : trail [] finished = finished.reverse := List.append_nil _
      exact ⟨whole ▸ trailing.distinct, whole ▸ trailing.last⟩
  | case2 marks finished node below ih => exact ih trailing.finish walked
  | case3 marks finished node target pending below missing => cases walked
  | case4 marks finished node target pending below seen ih => exact ih trailing.skip walked
  | case5 marks finished node target pending below unseen fault failed => cases walked
  | case6 marks finished node target pending below unseen targets found ih =>
      exact ih (trailing.descend unseen targets) walked

end Trailing

/-- The nodes listed from a start within the graph are distinct, and the start is the last. -/
theorem nodup_nodesFrom {successors : Node → Except Fault (List Node)} {nodeCount : Nat}
    {start : Node} (inside : start < nodeCount) {order : List Node}
    (listed : nodesFrom successors nodeCount start = .ok order)
    : order.Nodup ∧ order.getLast? = some start := by
  rw [nodesFrom, if_pos inside] at listed
  obtain ⟨targets, _, walked⟩ := bind_eq_ok.mp listed
  have stored : start < (Array.replicate nodeCount false).size := by simpa using inside
  have trailing : Trailing start ((Array.replicate nodeCount false).setIfInBounds start true)
      [⟨start, targets⟩] [] := {
    marked := by
      intro node begun
      exact (mark_iff stored node).mpr (Or.inl (List.mem_singleton.mp begun))
    distinct := by simp [trail]
    last := rfl
  }
  exact trailing.result walked

end PostOrder

namespace Cfg

variable {E : Type}

/-- Over any graph that can be grown and from any start the walk gives a result, and every position
at which a node lists an edge is that of a stored edge. From a node of the graph the result has the
nodes that a path of edges leads to from there, each of them once, and the start at its end; from
anything else it is empty.
-/
theorem postOrder_lists_reachable (steps : List (BuildStep E)) (start : Node)
    : (∀ (node : Node) (stored : CfgNode E), (grown steps).nodes[node]? = some stored
        → ∀ position ∈ stored.outgoing.toList, position < (grown steps).edgeCount)
      ∧ ∃ order, (grown steps).postOrder start = .ok order
        ∧ (start < (grown steps).nodeCount
          → order.Nodup
            ∧ (∀ node, node ∈ order ↔ (grown steps).Reachable start node)
            ∧ order.getLast? = some start)
        ∧ ((grown steps).nodeCount ≤ start → order = []) := by
  have coherent := coherent_grown steps
  refine ⟨fun node stored found => (coherent.outgoing node stored found).bounded, ?_⟩
  by_cases inside : start < (grown steps).nodeCount
  · obtain ⟨order, found, members⟩ := coherent.mem_postOrder_iff inside
    obtain ⟨distinct, last⟩ := PostOrder.nodup_nodesFrom inside found
    refine ⟨order, found, fun _ => ⟨distinct, members, last⟩, fun outside => ?_⟩
    exact absurd inside (Nat.not_lt.mpr outside)
  · exact ⟨[], if_neg inside, fun impossible => absurd impossible inside, fun _ => rfl⟩

/-- A cycle of three nodes with a parallel edge, an edge from a node to itself and an edge back to
the second node. Control reaches the cycle from the last node but not the last node from the cycle.
-/
def cyclicSteps : List (BuildStep Nat) :=
  [
    .addNode (some 1),
    .addNode (some 2),
    .addNode none,
    .addEdge 0 1,
    .addEdge 0 1,
    .addEdge 1 1,
    .addEdge 1 2,
    .addEdge 2 1,
    .addEdge 2 0,
    .addEdge 3 0
  ]

theorem postOrder_lists_reachable_cyclic
    : 0 < (grown cyclicSteps).nodeCount ∧ (grown cyclicSteps).nodeCount ≤ 4
      ∧ (∃ order, (grown cyclicSteps).postOrder 0 = .ok order
        ∧ order.Nodup ∧ 2 ∈ order ∧ order.getLast? = some 0)
      ∧ (grown cyclicSteps).postOrder 4 = .ok [] := by
  have count : (grown cyclicSteps).nodeCount = 4 := by decide +kernel
  have enters : (grown cyclicSteps).HasEdge 0 1 := by decide +kernel
  have onward : (grown cyclicSteps).HasEdge 1 2 := by decide +kernel
  have inside : 0 < (grown cyclicSteps).nodeCount := by omega
  obtain ⟨_, order, found, within, _⟩ := postOrder_lists_reachable cyclicSteps 0
  obtain ⟨distinct, members, last⟩ := within inside
  have reached : 2 ∈ order := (members 2).mpr ((Relation.ReflTransGen.single enters).tail onward)
  obtain ⟨_, none, foundNone, _, outside⟩ := postOrder_lists_reachable cyclicSteps 4
  cases outside (Nat.le_of_eq count)
  exact ⟨inside, Nat.le_of_eq count, ⟨order, found, distinct, reached, last⟩, foundNone⟩

/-- Where the edges of the cyclic graph lead. -/
def cyclicSuccessors : Node → Except Fault (List Node)
  | 0 => .ok [1, 1]
  | 1 => .ok [1, 2]
  | 2 => .ok [1, 0]
  | 3 => .ok [0]
  | _ => .error .indexOutOfRange

theorem successors_cyclic : (grown cyclicSteps).successors = cyclicSuccessors := by
  funext node
  match node with
  | 0 | 1 | 2 | 3 => decide +kernel
  | beyond + 4 =>
      have count : (grown cyclicSteps).nodes.size = 4 := by decide +kernel
      have missing : (grown cyclicSteps).nodes[beyond + 4]? = none :=
        Array.getElem?_eq_none (by omega)
      simp only [successors, outgoing, missing]
      rfl

/-- The inner nodes of the cycle come first, and from outside the cycle the start comes last. -/
theorem postOrder_cyclic
    : (grown cyclicSteps).postOrder 0 = .ok [2, 1, 0]
      ∧ (grown cyclicSteps).postOrder 3 = .ok [2, 1, 0, 3] := by
  have count : (grown cyclicSteps).nodeCount = 4 := by decide +kernel
  simp only [postOrder, successors_cyclic, count]
  constructor <;> cbv

end Cfg

end Dataflow
