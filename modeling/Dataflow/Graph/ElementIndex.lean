import Dataflow.Graph.Basic
import Std.Data.TreeMap

/-! The nodes at which each element occurs. An index lists every element once, in increasing order,
and keeps the nodes of an element in the order in which they were inserted, repeats included.
-/

namespace Dataflow

/-- Elements with the nodes that carry them. -/
structure ElementIndex (E : Type) [Ord E] where
  map : Std.TreeMap E (Array Node)

namespace ElementIndex

variable {E : Type} [Ord E]

/-- The index without elements. -/
def empty : ElementIndex E :=
  { map := ∅ }

instance : EmptyCollection (ElementIndex E) :=
  ⟨empty⟩

instance : Inhabited (ElementIndex E) :=
  ⟨empty⟩

/-- The number of distinct elements. -/
def size (index : ElementIndex E) : Nat :=
  index.map.size

/-- Whether the index has no element. -/
def isEmpty (index : ElementIndex E) : Bool :=
  index.map.isEmpty

/-- Record that an element occurs at a node. -/
def insert (index : ElementIndex E) (element : E) (node : Node) : ElementIndex E :=
  { map := index.map.alter element fun nodes => some ((nodes.getD #[]).push node) }

/-- The nodes of an element; none for an element that the index does not have. -/
def nodes (index : ElementIndex E) (element : E) : List Node :=
  (index.map.getD element #[]).toList

/-- Whether the index has an element. -/
def contains (index : ElementIndex E) (element : E) : Bool :=
  index.map.contains element

/-- The index of a list of occurrences, inserted in order. -/
def ofOccurrences (occurrences : List (E × Node)) : ElementIndex E :=
  occurrences.foldl (fun index occurrence => index.insert occurrence.1 occurrence.2) empty

/-- The elements in increasing order, each with its nodes. -/
def entries (index : ElementIndex E) : List (E × List Node) :=
  index.map.toList.map fun entry => (entry.1, entry.2.toList)

variable [Std.TransOrd E]

/-- The empty index has no nodes for any element. -/
@[simp]
theorem nodes_empty (element : E) : (empty : ElementIndex E).nodes element = [] := by
  simp [nodes, empty]

/-- An element that the index does not have has no nodes. -/
theorem nodes_of_not_contains {index : ElementIndex E} {element : E}
    (unknown : index.contains element = false)
    : index.nodes element = [] := by
  rw [nodes, Std.TreeMap.getD_eq_fallback_of_contains_eq_false unknown]

/-- An insertion adds an element unless the index has it. -/
theorem size_insert (index : ElementIndex E) (element : E) (node : Node)
    : (index.insert element node).size
      = if index.contains element then index.size else index.size + 1 := by
  simp only [size, insert, contains, Std.TreeMap.size_alter, Std.TreeMap.mem_iff_contains]
  by_cases known : index.map.contains element = true
  · simp [known]
  · simp [known]

variable [Std.LawfulEqOrd E]

/-- An insertion adds its node at the end of the element's own nodes and changes no others. -/
theorem nodes_insert [DecidableEq E] (index : ElementIndex E) (element other : E) (node : Node)
    : (index.insert element node).nodes other
      = if element = other then index.nodes element ++ [node] else index.nodes other := by
  simp only [nodes, insert, Std.TreeMap.getD_alter, Std.compare_eq_iff_eq]
  split
  · simp [Std.TreeMap.getD_eq_getD_getElem?]
  · rfl

/-- After an insertion the index has the element and all it had before. -/
theorem contains_insert [DecidableEq E] (index : ElementIndex E) (element other : E) (node : Node)
    : (index.insert element node).contains other
      = (decide (element = other) || index.contains other) := by
  simp only [contains, insert, Std.TreeMap.contains_alter, Std.compare_eq_iff_eq]
  split <;> simp [*]

/-- Indexing occurrences after an index adds the nodes of each element in order, by induction on the
occurrences.
-/
theorem nodes_foldl_insert [DecidableEq E] (occurrences : List (E × Node))
    (index : ElementIndex E) (element : E)
    : (occurrences.foldl (fun index occurrence => index.insert occurrence.1 occurrence.2)
          index).nodes element
      = index.nodes element
        ++ (occurrences.filter (fun occurrence => occurrence.1 = element)).map Prod.snd := by
  induction occurrences generalizing index with
  | nil => simp
  | cons occurrence rest ih =>
      rw [List.foldl_cons, ih, nodes_insert]
      by_cases same : occurrence.1 = element
      · simp [same]
      · simp [same]

/-- The nodes of an element are those of its occurrences, in order. -/
theorem nodes_ofOccurrences [DecidableEq E] (occurrences : List (E × Node)) (element : E)
    : (ofOccurrences occurrences).nodes element
      = (occurrences.filter (fun occurrence => occurrence.1 = element)).map Prod.snd := by
  simp [ofOccurrences, nodes_foldl_insert]

end ElementIndex

end Dataflow
