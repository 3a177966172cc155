import Dataflow.Proofs.Graph.VisitingOrder
import Mathlib.Data.Finset.Card
import Mathlib.Data.Finset.Range
import Mathlib.Data.Finset.SDiff

/-! Depth-first search by recursion, and the walk as its unfolding on a stack. The recursive search
marks a node, visits those of its successors that are not visited when their turn comes, and then
appends the node. The walk keeps in its stack what the pending calls of the search would still do:
it comes out of a suspended node with the marks and the finished nodes that the call for this node
returns.
-/

namespace Dataflow

namespace PostOrder

-----------------------------------------------------------------------------------------
-- The recursive search
-----------------------------------------------------------------------------------------

/-- The successors of every node in their order, all of them among the first `count` nodes. -/
structure Succession (count : Nat) where
  targets : Node → List Node
  inside : ∀ source, ∀ target ∈ targets source, target < count

/-- The nodes that a search has come to, and those that it has finished, in order. -/
structure Search where
  visited : Finset Node
  finished : List Node

namespace Search

/-- A search that has come to no node yet. -/
def initial : Search :=
  { visited := ∅, finished := [] }

/-- Mark a node as visited. -/
def mark (search : Search) (node : Node) : Search :=
  { search with visited := insert node search.visited }

/-- Append a node to the finished ones. -/
def append (search : Search) (node : Node) : Search :=
  { search with finished := search.finished ++ [node] }

/-- The number of the first `count` nodes that are not visited yet. -/
def unvisited (search : Search) (count : Nat) : Nat :=
  (Finset.range count \ search.visited).card

theorem unvisited_lt {search later : Search} {count : Nat} {node : Node} (inside : node < count)
    (fresh : node ∉ search.visited) (further : insert node search.visited ⊆ later.visited)
    : later.unvisited count < search.unvisited count := by
  obtain ⟨marked, kept⟩ := Finset.insert_subset_iff.mp further
  apply Finset.card_lt_card
  refine (Finset.ssubset_iff_of_subset (Finset.sdiff_subset_sdiff subset_rfl kept)).mpr
    ⟨node, ?_, ?_⟩
  · exact Finset.mem_sdiff.mpr ⟨Finset.mem_range.mpr inside, fresh⟩
  · exact fun still => (Finset.mem_sdiff.mp still).2 marked

end Search

variable {count : Nat}

mutual

/-- Visit a node: mark it, follow its edges in turn, and then append it. -/
def visit (graph : Succession count) (search : Search) (node : Node) (inside : node < count)
    (fresh : node ∉ search.visited)
    : { later : Search //
        insert node search.visited ⊆ later.visited
        ∧ later.unvisited count < search.unvisited count } :=
  let followed := follow graph (search.mark node) (graph.targets node) (graph.inside node)
  ⟨followed.val.append node, followed.property,
    Search.unvisited_lt inside fresh followed.property⟩
termination_by (search.unvisited count, 0)
decreasing_by exact Prod.Lex.left _ _ (Search.unvisited_lt inside fresh subset_rfl)

/-- Go through several nodes in turn and visit each that is not visited by then. -/
def follow (graph : Succession count) (search : Search) (targets : List Node)
    (inside : ∀ target ∈ targets, target < count)
    : { later : Search // search.visited ⊆ later.visited } :=
  match targets, inside with
  | [], _ => ⟨search, subset_rfl⟩
  | target :: rest, inside =>
      have within := List.forall_mem_cons.mp inside
      if seen : target ∈ search.visited then
        follow graph search rest within.2
      else
        let entered := visit graph search target within.1 seen
        let later := follow graph entered.val rest within.2
        ⟨later.val,
          (Finset.subset_insert target _).trans (entered.property.1.trans later.property)⟩
termination_by (search.unvisited count, targets.length)
decreasing_by
  · exact Prod.Lex.right _ (Nat.lt_succ_self _)
  · exact Prod.Lex.right _ (Nat.zero_lt_succ _)
  · exact Prod.Lex.left _ _ entered.property.2

end

/-- The nodes that a recursive search from `start` finishes, in order. -/
def recursiveOrder (graph : Succession count) (start : Node) (inside : start < count)
    : List Node :=
  (visit graph .initial start inside (Finset.notMem_empty start)).val.finished

variable {graph : Succession count} {search : Search} {node target : Node} {rest : List Node}

theorem visit_val (inside : node < count) (fresh : node ∉ search.visited)
    : (visit graph search node inside fresh).val
      = (follow graph (search.mark node) (graph.targets node) (graph.inside node)).val.append
          node := by
  rw [visit]

theorem follow_nil (inside : ∀ target ∈ [], target < count)
    : (follow graph search [] inside).val = search := by
  rw [follow]

theorem follow_of_mem (inside : ∀ other ∈ target :: rest, other < count)
    (seen : target ∈ search.visited)
    : (follow graph search (target :: rest) inside).val
      = (follow graph search rest (List.forall_mem_cons.mp inside).2).val := by
  rw [follow, dif_pos seen]

theorem follow_of_notMem (inside : ∀ other ∈ target :: rest, other < count)
    (fresh : target ∉ search.visited)
    : (follow graph search (target :: rest) inside).val
      = (follow graph
          (visit graph search target (List.forall_mem_cons.mp inside).1 fresh).val rest
          (List.forall_mem_cons.mp inside).2).val := by
  rw [follow, dif_neg fresh]

-----------------------------------------------------------------------------------------
-- The walk makes the calls of the search
-----------------------------------------------------------------------------------------

/-- The marks and the finished nodes of a walk are those of a search. -/
structure Mirrors (count : Nat) (search : Search) (marks : Array Bool) (finished : List Node)
    : Prop where
  size : marks.size = count
  marked : ∀ node : Node, marks[node]? = some true ↔ node ∈ search.visited
  finished : search.finished = finished.reverse

namespace Mirrors

variable {marks : Array Bool} {finished : List Node}

theorem unmarked (mirrors : Mirrors count search marks finished) (inside : node < count)
    (fresh : node ∉ search.visited)
    : marks[node]? = some false := by
  have stored : node < marks.size := mirrors.size ▸ inside
  have other : marks[node]? ≠ some true := fun seen => fresh ((mirrors.marked node).mp seen)
  rw [Array.getElem?_eq_getElem stored] at other ⊢
  rw [Option.some.injEq, ← Bool.not_eq_true]
  exact fun seen => other (congrArg some seen)

theorem mark (mirrors : Mirrors count search marks finished) (inside : node < count)
    : Mirrors count (search.mark node) (marks.setIfInBounds node true) finished where
  size := by rw [Array.size_setIfInBounds, mirrors.size]
  marked := by
    intro other
    rw [mark_iff (mirrors.size ▸ inside), mirrors.marked other]
    exact Finset.mem_insert.symm
  finished := mirrors.finished

theorem append (mirrors : Mirrors count search marks finished) (node : Node)
    : Mirrors count (search.append node) marks (node :: finished) where
  size := mirrors.size
  marked := mirrors.marked
  finished := by rw [List.reverse_cons, ← mirrors.finished, Search.append]

end Mirrors

/-- The walk performs a visit: wherever it suspends other nodes to come to this one, it gets back to
them with what the visit returns.
-/
def PerformsVisit (graph : Succession count) (successors : Node → Except Fault (List Node))
    (search : Search) (node : Node) (inside : node < count) (fresh : node ∉ search.visited)
    : Prop :=
  ∀ marks finished, Mirrors count search marks finished
    → ∃ laterMarks laterFinished,
        Mirrors count (visit graph search node inside fresh).val laterMarks laterFinished
        ∧ ∀ below,
            walk successors (marks.setIfInBounds node true) (⟨node, graph.targets node⟩ :: below)
                finished
              = walk successors laterMarks below laterFinished

/-- The walk goes through pending successors as the search does, at whatever node they are pending.
-/
def PerformsFollow (graph : Succession count) (successors : Node → Except Fault (List Node))
    (search : Search) (targets : List Node) (inside : ∀ target ∈ targets, target < count)
    : Prop :=
  ∀ marks finished, Mirrors count search marks finished
    → ∃ laterMarks laterFinished,
        Mirrors count (follow graph search targets inside).val laterMarks laterFinished
        ∧ ∀ node below,
            walk successors marks (⟨node, targets⟩ :: below) finished
              = walk successors laterMarks (⟨node, []⟩ :: below) laterFinished

section Steps

variable {successors : Node → Except Fault (List Node)}

/-- Once the successors of a node have been followed, the walk finishes the node. -/
theorem performsVisit_of_follow (inside : node < count) (fresh : node ∉ search.visited)
    (followed : PerformsFollow graph successors (search.mark node) (graph.targets node)
      (graph.inside node))
    : PerformsVisit graph successors search node inside fresh := by
  intro marks finished mirrors
  obtain ⟨laterMarks, laterFinished, later, walked⟩ := followed _ _ (mirrors.mark inside)
  refine ⟨laterMarks, node :: laterFinished, ?_, fun below => ?_⟩
  · rw [visit_val]
    exact later.append node
  · rw [walked node below, walk]

theorem performsFollow_nil (inside : ∀ target ∈ [], target < count)
    : PerformsFollow graph successors search [] inside := by
  intro marks finished mirrors
  refine ⟨marks, finished, ?_, fun _ _ => rfl⟩
  rwa [follow_nil]

theorem performsFollow_skip (inside : ∀ other ∈ target :: rest, other < count)
    (seen : target ∈ search.visited)
    (followed : PerformsFollow graph successors search rest (List.forall_mem_cons.mp inside).2)
    : PerformsFollow graph successors search (target :: rest) inside := by
  intro marks finished mirrors
  obtain ⟨laterMarks, laterFinished, later, walked⟩ := followed marks finished mirrors
  refine ⟨laterMarks, laterFinished, ?_, fun node below => ?_⟩
  · rwa [follow_of_mem inside seen]
  · rw [walk_pending, (mirrors.marked target).mpr seen]
    exact walked node below

/-- A successor that is not visited yet is suspended on top of its node. The walk comes back from it
as from a visit, and goes on with the others.
-/
theorem performsFollow_enter (same : ∀ node < count, successors node = .ok (graph.targets node))
    (inside : ∀ other ∈ target :: rest, other < count) (fresh : target ∉ search.visited)
    (entered : PerformsVisit graph successors search target (List.forall_mem_cons.mp inside).1
      fresh)
    (followed : PerformsFollow graph successors
      (visit graph search target (List.forall_mem_cons.mp inside).1 fresh).val rest
      (List.forall_mem_cons.mp inside).2)
    : PerformsFollow graph successors search (target :: rest) inside := by
  intro marks finished mirrors
  have within := (List.forall_mem_cons.mp inside).1
  obtain ⟨middleMarks, middleFinished, middle, visited⟩ := entered marks finished mirrors
  obtain ⟨laterMarks, laterFinished, later, walked⟩ := followed _ _ middle
  refine ⟨laterMarks, laterFinished, ?_, fun node below => ?_⟩
  · rwa [follow_of_notMem inside fresh]
  · simp only [walk_pending, mirrors.unmarked within fresh, same target within]
    exact (visited (⟨node, rest⟩ :: below)).trans (walked node below)

end Steps

/-- The walk performs every call of the search, by induction on the calls. -/
theorem performs (graph : Succession count) {successors : Node → Except Fault (List Node)}
    (same : ∀ node < count, successors node = .ok (graph.targets node))
    (search : Search) (node : Node) (inside : node < count) (fresh : node ∉ search.visited)
    : PerformsVisit graph successors search node inside fresh := by
  refine visit.induct graph (PerformsVisit graph successors) (PerformsFollow graph successors)
    ?visiting ?done ?skipping ?entering search node inside fresh
  case visiting =>
    intro search node inside fresh followed
    exact performsVisit_of_follow inside fresh followed
  case done =>
    intro search inside _
    exact performsFollow_nil inside
  case skipping =>
    intro search target rest inside _ seen _ followed
    exact performsFollow_skip inside seen followed
  case entering =>
    intro search target rest inside _ fresh _ _ entered _ _ followed
    exact performsFollow_enter same inside fresh entered followed

/-- The nodes listed from a start within the graph are those that the recursive search finishes. -/
theorem nodesFrom_eq_recursiveOrder (graph : Succession count)
    {successors : Node → Except Fault (List Node)}
    (same : ∀ node < count, successors node = .ok (graph.targets node)) {start : Node}
    (inside : start < count)
    : nodesFrom successors count start = .ok (recursiveOrder graph start inside) := by
  have unmarked : Mirrors count .initial (Array.replicate count false) [] := {
    size := Array.size_replicate
    marked := by
      intro node
      simp [Search.initial, Array.getElem?_replicate]
    finished := rfl
  }
  obtain ⟨marks, finished, later, walked⟩ :=
    performs graph same .initial start inside (Finset.notMem_empty start) _ _ unmarked
  rw [nodesFrom, if_pos inside, same start inside, ok_bind, walked [], walk, recursiveOrder,
    later.finished]

end PostOrder

namespace Cfg

variable {E : Type} {cfg : Cfg E}

/-- The targets of the edges from each node, in the order in which the edges were added. -/
def Coherent.succession (coherent : cfg.Coherent) : PostOrder.Succession cfg.nodeCount where
  targets source := (cfg.edges.toList.filter fun edge => edge.source = source).map Edge.target
  inside := by
    intro source target listed
    obtain ⟨edge, kept, rfl⟩ := List.mem_map.mp listed
    exact (coherent.ends edge (List.mem_filter.mp kept).1).2

/-- Over any graph that can be grown and from any of its nodes, the walk lists what the recursive
search finishes, in the same order.
-/
theorem postOrder_eq_recursiveOrder (steps : List (BuildStep E)) {start : Node}
    (inside : start < (grown steps).nodeCount)
    : (grown steps).postOrder start
      = .ok (PostOrder.recursiveOrder (coherent_grown steps).succession start inside) := by
  apply PostOrder.nodesFrom_eq_recursiveOrder
  intro node stored
  rw [successors, (coherent_grown steps).outgoing_eq stored]
  rfl

/-- From outside the cycle the search comes to the cycle's far end before it finishes any node. -/
theorem postOrder_eq_recursiveOrder_cyclic
    : ∃ inside : 3 < (grown cyclicSteps).nodeCount,
        PostOrder.recursiveOrder (coherent_grown cyclicSteps).succession 3 inside
          = [2, 1, 0, 3] := by
  have inside : 3 < (grown cyclicSteps).nodeCount := by decide +kernel
  have walked := postOrder_cyclic.2
  rw [postOrder_eq_recursiveOrder cyclicSteps inside] at walked
  exact ⟨inside, Except.ok.inj walked⟩

end Cfg

end Dataflow
