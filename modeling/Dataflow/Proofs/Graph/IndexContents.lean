import Dataflow.Proofs.Graph.Accepted
import Mathlib.Algebra.BigOperators.Group.Finset.Basic
import Mathlib.Data.List.Basic

/-! What the element index of a graph holds. It lists for each element the nodes that were added
with it, in increasing order, and after them the nodes of the accepted associations in the order in
which they were made. Nothing is lost or added: an element is in the index exactly if it has a node
there, and every node with an element and every accepted association is listed once.
-/

namespace Dataflow

-----------------------------------------------------------------------------------------
-- Indices of a list of occurrences
-----------------------------------------------------------------------------------------

namespace ElementIndex

variable {E : Type} [Ord E]

theorem ofOccurrences_concat (occurrences : List (E × Node)) (last : E × Node)
    : ofOccurrences (occurrences ++ [last]) = (ofOccurrences occurrences).insert last.1 last.2 := by
  rw [ofOccurrences, List.foldl_append]
  rfl

variable [Std.TransOrd E] [Std.LawfulEqOrd E] [DecidableEq E]

/-- The index has the elements that occur, by induction on the occurrences from the last one. -/
theorem contains_ofOccurrences (occurrences : List (E × Node)) (element : E)
    : (ofOccurrences occurrences).contains element = true
      ↔ element ∈ occurrences.map Prod.fst := by
  induction occurrences using List.reverseRecOn with
  | nil => simp [ofOccurrences, empty, contains]
  | append_singleton occurrences last ih =>
      rw [ofOccurrences_concat, contains_insert, Bool.or_eq_true, decide_eq_true_eq, ih,
        List.map_append, List.mem_append, List.map_singleton, List.mem_singleton, or_comm, eq_comm]

/-- The index has as many elements as occur at all, by induction on the occurrences from the last
one.
-/
theorem size_ofOccurrences (occurrences : List (E × Node))
    : (ofOccurrences occurrences).size = (occurrences.map Prod.fst).toFinset.card := by
  induction occurrences using List.reverseRecOn with
  | nil => rfl
  | append_singleton occurrences last ih =>
      rw [ofOccurrences_concat, size_insert, ih, List.map_append, List.map_singleton,
        List.toFinset_append, List.toFinset_cons, List.toFinset_nil, insert_empty_eq,
        Finset.union_singleton]
      by_cases known : last.1 ∈ occurrences.map Prod.fst
      · rw [if_pos ((contains_ofOccurrences occurrences last.1).mpr known),
          Finset.insert_eq_of_mem (List.mem_toFinset.mpr known)]
      · rw [if_neg fun has => known ((contains_ofOccurrences occurrences last.1).mp has),
          Finset.card_insert_of_notMem fun has => known (List.mem_toFinset.mp has)]

/-- An element has as many nodes as it has occurrences. -/
theorem length_nodes_ofOccurrences (occurrences : List (E × Node)) (element : E)
    : ((ofOccurrences occurrences).nodes element).length
      = (occurrences.map Prod.fst).count element := by
  rw [nodes_ofOccurrences, List.length_map, ← List.countP_eq_length_filter, List.count_eq_countP,
    List.countP_map]
  apply List.countP_congr
  simp

theorem nodes_ofOccurrences_ne_nil (occurrences : List (E × Node)) (element : E)
    : (ofOccurrences occurrences).nodes element ≠ [] ↔ element ∈ occurrences.map Prod.fst := by
  rw [← List.length_pos_iff, length_nodes_ofOccurrences, List.count_pos_iff]

end ElementIndex

-----------------------------------------------------------------------------------------
-- Occurrences in a graph
-----------------------------------------------------------------------------------------

namespace Cfg

variable {E : Type}

theorem element?_eq (cfg : Cfg E) (node : Node)
    : cfg.element? node = (cfg.elements[node]?).join := by
  simp only [element?, elements, List.getElem?_map, Array.getElem?_toList]
  cases cfg.nodes[node]? <;> rfl

/-- The entry that every graph begins with carries nothing, each further node what it was added
with.
-/
theorem elements_grown (steps : List (BuildStep E))
    : (grown steps).elements = none :: steps.filterMap BuildStep.element? := by
  have extended : (initial : Cfg E).Extends (BuildStep.accepted 1 steps) (grown steps) :=
    extends_foldl_after initial steps
  rw [extended.elements, BuildStep.filterMap_element?_accepted]
  rfl

/-- The occurrences of a graph are read off its nodes by position, then off its associations. -/
theorem occurrences_eq (cfg : Cfg E)
    : cfg.occurrences
      = ((List.range cfg.nodeCount).filterMap fun node =>
            (cfg.element? node).map fun element => (element, Node.ofPosition node))
        ++ cfg.associations.toList := by
  have positions : cfg.nodes.toList.zipIdx.map Prod.snd = List.range cfg.nodeCount := by
    rw [List.zipIdx_map_snd, Array.length_toList, List.range_eq_range']
    rfl
  rw [occurrences, ← positions, List.filterMap_map]
  congr 1
  apply List.filterMap_congr
  rintro ⟨stored, position⟩ listed
  have found : cfg.nodes[position]? = some stored := by
    simpa using List.mem_zipIdx_iff_getElem?.mp listed
  simp [element?, found]

/-- Below the last name nodes are named by their position. -/
theorem occurrences_of_few {cfg : Cfg E} (few : cfg.nodeCount ≤ 0x100000000)
    : cfg.occurrences
      = ((List.range cfg.nodeCount).filterMap fun node =>
            (cfg.element? node).map fun element => (element, node))
        ++ cfg.associations.toList := by
  rw [occurrences_eq]
  congr 1
  apply List.filterMap_congr
  intro node listed
  have inside : node < cfg.nodeCount := List.mem_range.mp listed
  have name : Node.ofPosition node = node :=
    Nat.min_eq_left (Nat.le_of_lt_succ (inside.trans_le few))
  rw [name]

section Carried

variable (element? : Node → Option E)

/-- Of nodes with their elements, those with a given element are picked out in order. -/
theorem filter_carried [DecidableEq E] (nodes : List Node) (element : E)
    : ((nodes.filterMap fun node => (element? node).map fun element => (element, node)).filter
          fun occurrence => occurrence.1 = element).map Prod.snd
      = nodes.filter fun node => element? node = some element := by
  induction nodes with
  | nil => rfl
  | cons node rest ih =>
      cases carried : element? node with
      | none => simp [carried, ih]
      | some other =>
          by_cases same : other = element
          · simp [carried, same, ih]
          · simp [carried, same, ih]

theorem length_carried (nodes : List Node)
    : (nodes.filterMap fun node => (element? node).map fun element => (element, node)).length
      = (nodes.filter fun node => (element? node).isSome).length := by
  rw [List.length_filterMap_eq_countP, List.countP_eq_length_filter]
  simp

end Carried

variable [Ord E] [Std.TransOrd E] [Std.LawfulEqOrd E] [DecidableEq E]

/-- Let any steps be tried, accepted or refused, and lead to a graph of at most `2 ^ 32` nodes. The
nodes carry what they were added with, and the entry that the graph begins with nothing. The index
of the graph lists for each element the nodes that carry it in increasing order, then those of the
accepted associations in order, all of them nodes of the graph, and it has the elements for which
this list is not empty. Its size is the number of these elements, and the lists together are as long
as there are nodes with an element and accepted associations.
-/
theorem grown_index_contents (steps : List (BuildStep E))
    (few : (grown steps).nodeCount ≤ 0x100000000)
    : (∀ node,
        (grown steps).element? node
          = ((none :: steps.filterMap BuildStep.element?)[node]?).join)
      ∧ (∀ element,
          (grown steps).toView.index.nodes element
            = ((List.range (grown steps).nodeCount).filter fun node =>
                  (grown steps).element? node = some element)
              ++ (((BuildStep.accepted 1 steps).filterMap BuildStep.association?).filter
                  fun association => association.1 = element).map Prod.snd
          ∧ (∀ node ∈ (grown steps).toView.index.nodes element, node < (grown steps).nodeCount)
          ∧ ((grown steps).toView.index.contains element = true
            ↔ (grown steps).toView.index.nodes element ≠ []))
      ∧ ∃ present : Finset E,
          (∀ element, element ∈ present ↔ (grown steps).toView.index.nodes element ≠ [])
          ∧ (grown steps).toView.index.size = present.card
          ∧ ∑ element ∈ present, ((grown steps).toView.index.nodes element).length
            = ((List.range (grown steps).nodeCount).filter fun node =>
                  ((grown steps).element? node).isSome).length
              + ((BuildStep.accepted 1 steps).filterMap BuildStep.association?).length := by
  have index : (grown steps).toView.index = .ofOccurrences (grown steps).occurrences := rfl
  have described := describedBy_grown steps
  rw [index]
  refine ⟨fun node => ?_, fun element => ⟨?_, ?_, ?_⟩,
    ((grown steps).occurrences.map Prod.fst).toFinset, ?_, ?_, ?_⟩
  · rw [element?_eq, elements_grown]
  · rw [ElementIndex.nodes_ofOccurrences, occurrences_of_few few, List.filter_append,
      List.map_append, filter_carried, described.associations]
  · intro node listed
    rw [ElementIndex.nodes_ofOccurrences] at listed
    obtain ⟨occurrence, kept, rfl⟩ := List.mem_map.mp listed
    exact (coherent_grown steps).occurrences_lt (List.mem_filter.mp kept).1
  · rw [ElementIndex.contains_ofOccurrences, ElementIndex.nodes_ofOccurrences_ne_nil]
  · intro element
    rw [List.mem_toFinset, ElementIndex.nodes_ofOccurrences_ne_nil]
  · exact ElementIndex.size_ofOccurrences _
  -- Every occurrence is counted once, under its own element.
  · calc ∑ element ∈ ((grown steps).occurrences.map Prod.fst).toFinset,
          ((ElementIndex.ofOccurrences (grown steps).occurrences).nodes element).length
        = ((grown steps).occurrences.map Prod.fst).length := by
          simp only [ElementIndex.length_nodes_ofOccurrences]
          exact List.sum_toFinset_count_eq_length _
      _ = _ := by
          rw [List.length_map, occurrences_of_few few, List.length_append, length_carried,
            described.associations]

/-- Two elements that share nodes, with associations made before, between and after the nodes. Three
of the associations are refused.
-/
def sharingSteps : List (BuildStep Nat) :=
  [
    .associate 7 0,
    .addNode (some 4),
    .associate 7 2,
    .addNode (some 7),
    .associate 4 2,
    .associate 9 5,
    .addNode none,
    .addNode (some 4),
    .associate 7 2,
    .associate 7 1,
    .associate 8 6,
    .associate 7 2
  ]

theorem grown_index_contents_sharing
    : (grown sharingSteps).nodeCount ≤ 0x100000000
      ∧ (grown sharingSteps).toView.index.nodes 4 = [1, 4, 2]
      ∧ (grown sharingSteps).toView.index.nodes 7 = [2, 0, 2, 1, 2]
      ∧ (grown sharingSteps).toView.index.contains 9 = false := by
  have described := describedBy_grown sharingSteps
  have count : (grown sharingSteps).nodeCount = 5 := described.nodeCount
  have few : (grown sharingSteps).nodeCount ≤ 0x100000000 := by
    rw [count]
    decide
  obtain ⟨_, listed, _⟩ := grown_index_contents sharingSteps few
  refine ⟨few, (listed 4).1.trans ?_, (listed 7).1.trans ?_, ?_⟩
  · rw [count]
    decide +kernel
  · rw [count]
    decide +kernel
  · apply Bool.eq_false_iff.mpr
    intro known
    refine (listed 9).2.2.mp known ((listed 9).1.trans ?_)
    rw [count]
    decide +kernel

end Cfg

end Dataflow
