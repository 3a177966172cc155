import Dataflow.Fault
import Dataflow.Graph.Basic

/-! Depth-first post-order over a successor function. The walk keeps an explicit stack of
suspended nodes with the successors still to follow, so a deep graph needs no deep recursion.
It ends because every step either marks a node that was unmarked or shortens the stack's work.
-/

namespace Dataflow.PostOrder

/-- A node whose visit has begun, with the successors still to follow. -/
structure Suspended where
  node : Node
  pending : List Node
deriving DecidableEq, Repr

/-- The work left on a stack when no further node is visited. -/
def pendingWork : List Suspended → Nat
  | [] => 0
  | suspended :: below => suspended.pending.length + 1 + pendingWork below

/-- The number of nodes that are not yet marked. -/
def unmarked (marks : Array Bool) : Nat :=
  marks.toList.count false

/-- Marking an unmarked node leaves fewer of them, by the count of a changed list. -/
theorem unmarked_mark {marks : Array Bool} {node : Node} (h : marks[node]? = some false)
    : unmarked (marks.setIfInBounds node true) < unmarked marks := by
  obtain ⟨inside, value⟩ := Array.getElem?_eq_some_iff.mp h
  have stored : node < marks.toList.length := by simpa using inside
  have listed : marks.toList[node] = false := by simpa using value
  have positive : 0 < marks.toList.count false :=
    List.count_pos_iff.mpr (listed ▸ List.getElem_mem _)
  simp only [unmarked, Array.toList_setIfInBounds, List.count_set stored, listed]
  rw [if_pos (by rfl), if_neg (by decide)]
  omega

/-- Run the walk until its stack is empty. `finished` holds the nodes whose visit has ended, the
latest first.
-/
def walk (successors : Node → Except Fault (List Node)) (marks : Array Bool)
    (stack : List Suspended) (finished : List Node)
    : Except Fault (List Node) :=
  match stack with
  | [] => .ok finished.reverse
  | ⟨node, []⟩ :: below => walk successors marks below (node :: finished)
  | ⟨node, target :: pending⟩ :: below =>
      match _ : marks[target]? with
      | none => .error .indexOutOfRange
      | some true => walk successors marks (⟨node, pending⟩ :: below) finished
      | some false =>
          match successors target with
          | .error fault => .error fault
          | .ok targets =>
              walk successors (marks.setIfInBounds target true)
                (⟨target, targets⟩ :: ⟨node, pending⟩ :: below) finished
termination_by (unmarked marks, pendingWork stack)
decreasing_by
  · exact Prod.Lex.right _ (by simp only [pendingWork]; omega)
  · exact Prod.Lex.right _ (by simp only [pendingWork, List.length_cons]; omega)
  · exact Prod.Lex.left _ _ (unmarked_mark (by assumption))

/-- The nodes reached from `start` among the first `nodeCount`, each after everything first
reached through it. A start outside the graph reaches nothing.
-/
def nodesFrom (successors : Node → Except Fault (List Node)) (nodeCount : Nat) (start : Node)
    : Except Fault (List Node) := do
  if start < nodeCount then
    let targets ← successors start
    walk successors ((Array.replicate nodeCount false).setIfInBounds start true)
      [⟨start, targets⟩] []
  else
    return []

end Dataflow.PostOrder
