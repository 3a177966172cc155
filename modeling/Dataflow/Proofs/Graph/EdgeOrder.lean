import Dataflow.Proofs.Graph.IndexContents

/-! Graphs that differ in the order of their edges alone. Such graphs have the same element index,
and every order of the edges of a graph belongs to one that can be grown.
-/

namespace Dataflow

namespace Cfg

variable {E : Type}

/-- The graph `other` has the nodes, the associations and the entry of `cfg`, but the edges that are
listed, in this order.
-/
structure Relinked (cfg : Cfg E) (edges : List (Edge E)) (other : Cfg E) : Prop where
  elements : other.elements = cfg.elements
  associations : other.associations = cfg.associations
  entry : other.entry = cfg.entry
  edges : other.edges.toList = edges

namespace Relinked

variable {cfg other : Cfg E} {edges : List (Edge E)} (relinked : cfg.Relinked edges other)

include relinked

theorem nodeCount : other.nodeCount = cfg.nodeCount := by
  simpa [Cfg.elements, Cfg.nodeCount] using congrArg List.length relinked.elements

/-- The index is read off the nodes and the associations, so it is the same. -/
theorem index [Ord E] : other.toView.index = cfg.toView.index := by
  have same : other.occurrences = cfg.occurrences := by
    rw [occurrences_eq, occurrences_eq, relinked.nodeCount, relinked.associations]
    simp only [element?_eq, relinked.elements]
  exact congrArg ElementIndex.ofOccurrences same

end Relinked

/-- Steps that add nodes with the given elements first, then the associations and the edges, and
choose the entry at last.
-/
def stepsInOrder (elements : List (Option E)) (associations : List (E × Node))
    (edges : List (Edge E)) (entry : Node)
    : List (BuildStep E) :=
  elements.map .addNode
    ++ (associations.map (fun association => .associate association.1 association.2)
      ++ edges.map (fun edge => .addEdgeLeaving edge.source edge.target edge.exits)
      ++ [.setEntry entry])

section InOrder

variable {elements : List (Option E)} {associations : List (E × Node)} {edges : List (Edge E)}
  {entry : Node}

theorem filterMap_element?_stepsInOrder
    : (stepsInOrder elements associations edges entry).filterMap BuildStep.element? = elements := by
  simp [stepsInOrder, List.filterMap_map, Function.comp_def, BuildStep.element?]

theorem filterMap_association?_stepsInOrder
    : (stepsInOrder elements associations edges entry).filterMap BuildStep.association?
      = associations := by
  simp [stepsInOrder, List.filterMap_map, Function.comp_def, BuildStep.association?]

theorem filterMap_edge?_stepsInOrder
    : (stepsInOrder elements associations edges entry).filterMap BuildStep.edge? = edges := by
  simp [stepsInOrder, List.filterMap_map, Function.comp_def, BuildStep.edge?]

theorem filterMap_entry?_stepsInOrder
    : (stepsInOrder elements associations edges entry).filterMap BuildStep.entry? = [entry] := by
  simp [stepsInOrder, List.filterMap_map, Function.comp_def, BuildStep.entry?]

/-- Once the nodes are there, all the other steps find the nodes that they name. -/
theorem accepted_stepsInOrder {count : Nat} (enough : 1 + elements.length = count)
    (associated : ∀ association ∈ associations, association.2 < count)
    (ends : ∀ edge ∈ edges, edge.source < count ∧ edge.target < count) (entered : entry < count)
    : BuildStep.accepted 1 (stepsInOrder elements associations edges entry)
      = stepsInOrder elements associations edges entry := by
  have nodes : (elements.map BuildStep.addNode).filterMap BuildStep.element? = elements := by
    rw [List.filterMap_map]
    exact List.filterMap_some
  rw [stepsInOrder, BuildStep.accepted_append, nodes, enough, BuildStep.accepted_of_known,
    BuildStep.accepted_of_known]
  · intro step listed
    simp only [List.mem_append, List.mem_map, List.mem_singleton] at listed
    rcases listed with (⟨association, member, rfl⟩ | ⟨edge, member, rfl⟩) | rfl
    · simpa [BuildStep.Known, BuildStep.named] using associated association member
    · simpa [BuildStep.Known, BuildStep.named] using ends edge member
    · simpa [BuildStep.Known, BuildStep.named] using entered
  · intro step listed
    obtain ⟨element, _, rfl⟩ := List.mem_map.mp listed
    simp [BuildStep.Known, BuildStep.named]

end InOrder

/-- The edges of a grown graph can be exchanged for any others between its nodes. Witness: the steps
that add the nodes and the associations of the graph again, and these edges after them.
-/
theorem exists_relinked (steps : List (BuildStep E)) {edges : List (Edge E)}
    (ends : ∀ edge ∈ edges,
      edge.source < (grown steps).nodeCount ∧ edge.target < (grown steps).nodeCount)
    : ∃ rebuilt, (grown steps).Relinked edges (grown rebuilt) := by
  have described := describedBy_grown steps
  refine ⟨stepsInOrder (steps.filterMap BuildStep.element?) (grown steps).associations.toList edges
    (grown steps).entry, ?_⟩
  have rebuilt := describedBy_grown (stepsInOrder (steps.filterMap BuildStep.element?)
    (grown steps).associations.toList edges (grown steps).entry)
  have accepted := accepted_stepsInOrder described.nodeCount.symm described.associated ends
    described.entered
  constructor
  · rw [elements_grown, elements_grown, filterMap_element?_stepsInOrder]
  · apply Array.toList_inj.mp
    rw [rebuilt.associations, accepted, filterMap_association?_stepsInOrder]
  · rw [rebuilt.entry, accepted, filterMap_entry?_stepsInOrder]
    rfl
  · rw [rebuilt.edges, accepted, filterMap_edge?_stepsInOrder]

end Cfg

end Dataflow
