import Dataflow.Analysis.Solve

/-! The flow of facts through a graph whose views name only its own nodes. Such a graph has a route
in either direction, and the route is its visiting order with the neighbours of each node.
-/

namespace Dataflow

-----------------------------------------------------------------------------------------
-- Graphs that name only their own nodes
-----------------------------------------------------------------------------------------

namespace GraphView

variable {E : Type} [Ord E]

/-- Every view answers for every node of the graph and names nodes of the graph only. Nothing ties
the views to one another: an edge listed at a node need not have the node as an end, and the
visiting order may leave nodes out or repeat them.
-/
structure InRange (graph : GraphView E) : Prop where
  order : ∃ order, graph.postOrder = .ok order ∧ ∀ node ∈ order, node < graph.nodeCount
  outgoing
    : ∀ node < graph.nodeCount,
        ∃ edges, graph.outgoing node = .ok edges
          ∧ ∀ edge ∈ edges, edge.source < graph.nodeCount ∧ edge.target < graph.nodeCount
  incoming
    : ∀ node < graph.nodeCount,
        ∃ edges, graph.incoming node = .ok edges
          ∧ ∀ edge ∈ edges, edge.source < graph.nodeCount ∧ edge.target < graph.nodeCount
  edges : ∀ edge ∈ graph.edges, edge.source < graph.nodeCount ∧ edge.target < graph.nodeCount
  index : ∀ element, ∀ node ∈ graph.index.nodes element, node < graph.nodeCount

/-- The nodes that a sweep visits; none if the graph has no visiting order. -/
def visited (graph : GraphView E) : List Node :=
  match graph.postOrder with
  | .ok order => order
  | .error _ => []

/-- The nodes to which facts flow from a node; none if the graph does not list its edges. -/
def neighbours (graph : GraphView E) (direction : Direction) (node : Node) : List Node :=
  match graph.targets direction node with
  | .ok targets => targets
  | .error _ => []

/-- A sweep carries facts from `source` to `target`: it visits `source`, and an edge there leads to
`target` in the direction of flow.
-/
def Feeds (graph : GraphView E) (direction : Direction) (source target : Node) : Prop :=
  source ∈ graph.visited ∧ target ∈ graph.neighbours direction source

theorem InRange.visited_lt {graph : GraphView E} (inRange : graph.InRange) {node : Node}
    (member : node ∈ graph.visited)
    : node < graph.nodeCount := by
  obtain ⟨order, found, bounded⟩ := inRange.order
  simp only [visited, found] at member
  exact bounded node member

theorem neighbours_forward {graph : GraphView E} {node : Node} {edges : List (Edge E)}
    (found : graph.outgoing node = .ok edges)
    : graph.targets .forward node = .ok (edges.map Edge.target)
      ∧ graph.neighbours .forward node = edges.map Edge.target := by
  have targets : graph.targets .forward node = .ok (edges.map Edge.target) := by
    simp only [GraphView.targets, found]
    rfl
  exact ⟨targets, by simp only [neighbours, targets]⟩

theorem neighbours_backward {graph : GraphView E} {node : Node} {edges : List (Edge E)}
    (found : graph.incoming node = .ok edges)
    : graph.targets .backward node = .ok (edges.map Edge.source)
      ∧ graph.neighbours .backward node = edges.map Edge.source := by
  have targets : graph.targets .backward node = .ok (edges.map Edge.source) := by
    simp only [GraphView.targets, found]
    rfl
  exact ⟨targets, by simp only [neighbours, targets]⟩

theorem InRange.targets {graph : GraphView E} (inRange : graph.InRange) (direction : Direction)
    {node : Node} (inside : node < graph.nodeCount)
    : graph.targets direction node = .ok (graph.neighbours direction node)
      ∧ ∀ target ∈ graph.neighbours direction node, target < graph.nodeCount := by
  cases direction with
  | forward =>
      obtain ⟨edges, found, bounded⟩ := inRange.outgoing node inside
      obtain ⟨targets, neighbours⟩ := neighbours_forward found
      rw [neighbours]
      exact ⟨targets, List.forall_mem_map.mpr fun edge listed => (bounded edge listed).2⟩
  | backward =>
      obtain ⟨edges, found, bounded⟩ := inRange.incoming node inside
      obtain ⟨targets, neighbours⟩ := neighbours_backward found
      rw [neighbours]
      exact ⟨targets, List.forall_mem_map.mpr fun edge listed => (bounded edge listed).1⟩

theorem InRange.feeds_lt {graph : GraphView E} (inRange : graph.InRange) {direction : Direction}
    {source target : Node} (feeds : graph.Feeds direction source target)
    : source < graph.nodeCount ∧ target < graph.nodeCount :=
  ⟨inRange.visited_lt feeds.1,
    (inRange.targets direction (inRange.visited_lt feeds.1)).2 target feeds.2⟩

/-- A listed graph is in range when its lists are. -/
theorem listed_inRange [Std.TransOrd E] [Std.LawfulEqOrd E] [DecidableEq E] {nodeCount : Nat}
    {order : List Node} {edges : List (Edge E)} {occurrences : List (E × Node)}
    (ordered : ∀ node ∈ order, node < nodeCount)
    (ends : ∀ edge ∈ edges, edge.source < nodeCount ∧ edge.target < nodeCount)
    (occurring : ∀ occurrence ∈ occurrences, occurrence.2 < nodeCount)
    : (listed nodeCount order edges occurrences).InRange where
  order := ⟨order, rfl, ordered⟩
  outgoing := fun _ _ => ⟨_, rfl, fun edge listed => ends edge (List.mem_filter.mp listed).1⟩
  incoming := fun _ _ => ⟨_, rfl, fun edge listed => ends edge (List.mem_filter.mp listed).1⟩
  edges := ends
  index := by
    intro element node member
    simp only [listed, ElementIndex.nodes_ofOccurrences] at member
    obtain ⟨occurrence, kept, rfl⟩ := List.mem_map.mp member
    exact occurring occurrence (List.mem_filter.mp kept).1

end GraphView

-----------------------------------------------------------------------------------------
-- The route of a sweep
-----------------------------------------------------------------------------------------

namespace Analysis

variable {E : Type} [Ord E]

/-- Every stop of the route, and every node that facts are carried to, is among the first `count`
nodes.
-/
def RouteInRange (count : Nat) (stops : List Stop) : Prop :=
  ∀ stop ∈ stops, stop.node < count ∧ ∀ target ∈ stop.targets, target < count

/-- The visiting order of a direction with the neighbours of each node. -/
def stopsOf (graph : GraphView E) (direction : Direction) : List Stop :=
  let order :=
    match direction with
    | .forward => graph.visited.reverse
    | .backward => graph.visited
  order.map fun node => { node, targets := graph.neighbours direction node }

theorem mem_stopsOf {graph : GraphView E} {direction : Direction} {stop : Stop}
    : stop ∈ stopsOf graph direction
      ↔ stop.node ∈ graph.visited ∧ stop.targets = graph.neighbours direction stop.node := by
  have listed : stop ∈ stopsOf graph direction
      ↔ ∃ node ∈ graph.visited, { node, targets := graph.neighbours direction node } = stop := by
    cases direction <;> simp [stopsOf]
  rw [listed]
  constructor
  · rintro ⟨node, member, rfl⟩
    exact ⟨member, rfl⟩
  · rintro ⟨member, same⟩
    exact ⟨stop.node, member, by rw [← same]⟩

/-- A route carries facts exactly along the pairs that feed. -/
theorem feeds_iff_stop {graph : GraphView E} {direction : Direction} {source target : Node}
    : graph.Feeds direction source target
      ↔ ∃ stop ∈ stopsOf graph direction, stop.node = source ∧ target ∈ stop.targets := by
  constructor
  · rintro ⟨member, reached⟩
    exact ⟨{ node := source, targets := graph.neighbours direction source },
      mem_stopsOf.mpr ⟨member, rfl⟩, rfl, reached⟩
  · rintro ⟨stop, listed, rfl, reached⟩
    obtain ⟨member, same⟩ := mem_stopsOf.mp listed
    exact ⟨member, same ▸ reached⟩

theorem route_inRange {graph : GraphView E} (inRange : graph.InRange) (direction : Direction)
    : RouteInRange graph.nodeCount (stopsOf graph direction) := by
  intro stop listed
  obtain ⟨member, same⟩ := mem_stopsOf.mp listed
  have inside := inRange.visited_lt member
  exact ⟨inside, fun target reached =>
    (inRange.targets direction inside).2 target (same ▸ reached)⟩

/-- A graph in range has a route in either direction. Witness: its order answers, and the edges of
every node in the order are listed.
-/
theorem route_eq_ok {graph : GraphView E} (inRange : graph.InRange) (direction : Direction)
    : route graph direction = .ok (stopsOf graph direction) := by
  obtain ⟨order, found, bounded⟩ := inRange.order
  have visited : graph.visited = order := by simp only [GraphView.visited, found]
  have step : ∀ node ∈ order,
      (do return { node, targets := ← graph.targets direction node } : Except Fault Stop)
        = .ok { node, targets := graph.neighbours direction node } := by
    intro node member
    rw [(inRange.targets direction (bounded node member)).1]
    rfl
  refine bind_eq_ok.mpr ⟨order, found, ?_⟩
  simp only [stopsOf, visited]
  cases direction with
  | forward => exact mapM_eq_ok_map _ fun node member => step node (List.mem_reverse.mp member)
  | backward => exact mapM_eq_ok_map _ step

end Analysis

end Dataflow
