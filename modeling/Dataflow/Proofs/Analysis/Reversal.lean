import Dataflow.Proofs.Analysis.Lockstep

/-! The two directions of flow are one another's mirror image. Solving backward over a graph is
solving forward over the graph with its edges turned round and its visiting order reversed: the runs
carry the same rows to the same nodes in the same order.
-/

namespace Dataflow

/-- The source and the target of an edge. -/
def Edge.ends {E : Type} (edge : Edge E) : Node × Node :=
  (edge.source, edge.target)

namespace GraphView

variable {E F : Type} [Ord E] [Ord F]

/-- The graph `turned` has as many nodes, visits them in reverse order, and the edges that leave a
node of it are those that enter the node in `graph`, turned round and in the same order. Nothing is
said of the edges that enter a node of `turned`, nor of the scopes that edges leave.
-/
structure TurnedInto (graph : GraphView E) (turned : GraphView F) : Prop where
  nodeCount : turned.nodeCount = graph.nodeCount
  order : ∃ order, graph.postOrder = .ok order ∧ turned.postOrder = .ok order.reverse
  edges
    : ∀ node < graph.nodeCount,
        ∃ entering leaving, graph.incoming node = .ok entering
          ∧ turned.outgoing node = .ok leaving
          ∧ leaving.map Edge.ends = entering.map fun edge => edge.ends.swap

theorem TurnedInto.visited_eq {graph : GraphView E} {turned : GraphView F}
    (turns : graph.TurnedInto turned)
    : turned.visited = graph.visited.reverse := by
  obtain ⟨order, found, reversed⟩ := turns.order
  simp only [visited, found, reversed]

theorem TurnedInto.neighbours_eq {graph : GraphView E} {turned : GraphView F}
    (turns : graph.TurnedInto turned) {node : Node} (inside : node < graph.nodeCount)
    : turned.neighbours .forward node = graph.neighbours .backward node := by
  obtain ⟨entering, leaving, entered, left, ends⟩ := turns.edges node inside
  have targets := congrArg (List.map Prod.snd) ends
  simp only [List.map_map] at targets
  rw [(neighbours_forward left).2, (neighbours_backward entered).2]
  exact targets

/-- A listed graph turns into the one whose lists are reversed and turned round. -/
theorem listed_turnedInto (nodeCount : Nat) (order : List Node) (edges : List (Edge E))
    (occurrences : List (E × Node)) (others : List (F × Node)) (turned : List (Edge F))
    (ends : turned.map Edge.ends = edges.map fun edge => edge.ends.swap)
    : (listed nodeCount order edges occurrences).TurnedInto
        (listed nodeCount order.reverse turned others) where
  nodeCount := rfl
  order := ⟨order, rfl, rfl⟩
  edges := by
    intro node inside
    refine ⟨_, _, rfl, rfl, ?_⟩
    have kept := congrArg (List.filter fun pair : Node × Node => pair.1 = node) ends
    simp only [List.filter_map] at kept
    exact kept

end GraphView

namespace Analysis

variable {E F : Type} [Ord E] [Ord F]

/-- The route backward through a graph is the route forward through the graph that it turns into. -/
theorem stopsOf_turned {graph : GraphView E} {turned : GraphView F}
    (turns : graph.TurnedInto turned) (inRange : graph.InRange)
    : stopsOf turned .forward = stopsOf graph .backward := by
  simp only [stopsOf, turns.visited_eq, List.reverse_reverse]
  refine List.map_congr_left fun node member => ?_
  rw [turns.neighbours_eq (inRange.visited_lt member)]

/-- Solving backward over a graph and forward over the graph that it turns into, from the same
tables and with the same join, gives the same facts on entry and the same tally. Whatever the mask
and the sinks, both runs send the same events after the start of the run, and the start differs in
the direction that it reports.
-/
theorem solve_turned {analysis : Analysis E} {other : Analysis F} (full : analysis.Sized)
    (inRange : analysis.graph.InRange) (alsoInRange : other.graph.InRange)
    (turns : analysis.graph.TurnedInto other.graph) (backward : analysis.direction = .backward)
    (forward : other.direction = .forward) (join : other.merge.join = analysis.merge.join)
    (bits : other.bits = analysis.bits) (positive : 0 < analysis.bits)
    (gens : other.gens = analysis.gens)
    (scopeEndKills : other.scopeEndKills = analysis.scopeEndKills)
    (executionKills : other.executionKills = analysis.executionKills)
    (onEntry : other.onEntry = analysis.onEntry)
    : ∃ final tally events,
        (∀ (σ : Type) [Sink σ] (mask : Mask) (sink : σ),
          analysis.solve mask sink
            = .ok
              ({ analysis with onEntry := final }, tally,
                hear mask
                  (.solveStart .backward analysis.graph.nodeCount analysis.bits :: events) sink))
        ∧ ∀ (σ : Type) [Sink σ] (mask : Mask) (sink : σ),
            other.solve mask sink
              = .ok
                ({ other with onEntry := final }, tally,
                  hear mask
                    (.solveStart .forward analysis.graph.nodeCount analysis.bits :: events)
                    sink) := by
  have agree : AgreeOn Set.univ analysis other := {
    join,
    bits,
    gens := fun _ _ => by rw [gens]
    scopeEndKills := fun _ _ => by rw [scopeEndKills]
    executionKills := fun _ _ => by rw [executionKills]
    onEntry := fun _ _ => by rw [onEntry]
  }
  have sizes : ∀ table : Table, table.Sized other.graph.nodeCount other.width
      ↔ table.Sized analysis.graph.nodeCount analysis.width := by
    intro table
    rw [turns.nodeCount, agree.width_eq]
  have alsoFull : other.Sized := {
    gens := (sizes _).mpr (gens ▸ full.gens)
    scopeEndKills := (sizes _).mpr (scopeEndKills ▸ full.scopeEndKills)
    executionKills := (sizes _).mpr (executionKills ▸ full.executionKills)
    onEntry := (sizes _).mpr (onEntry ▸ full.onEntry)
  }
  have route : stopsOf other.graph other.direction
      = stopsOf analysis.graph analysis.direction := by
    rw [forward, backward]
    exact stopsOf_turned turns inRange
  obtain ⟨final, followed, tally, events, rows, solved, alsoSolved⟩ :=
    agree.solve full inRange alsoInRange (fun _ _ => ⟨trivial, fun _ _ => trivial⟩) route
  obtain ⟨_, reaches⟩ := reaches_of_solve full inRange (solved Silent .none Silent.silent)
  obtain ⟨_, alsoReaches⟩ :=
    reaches_of_solve alsoFull alsoInRange (alsoSolved Silent .none Silent.silent)
  have same : followed = final := by
    refine ((sizes followed).mp alsoReaches.sized).ext_testBit reaches.sized fun node bit => ?_
    exact Table.testBit_congr (rows (Set.mem_univ node)).symm bit
  have opened : analysis.opening
      = [.solveStart .backward analysis.graph.nodeCount analysis.bits] := by
    rw [opening, if_neg (Nat.ne_of_gt positive), backward]
  have alsoOpened : other.opening
      = [.solveStart .forward analysis.graph.nodeCount analysis.bits] := by
    rw [opening, bits, if_neg (Nat.ne_of_gt positive), forward, turns.nodeCount]
  rw [opened] at solved
  rw [alsoOpened, same] at alsoSolved
  exact ⟨final, tally, events, solved, alsoSolved⟩

/-- The self-feeding analysis, solved backward over the graph that turns into its own. -/
def selfFeedingTurned (merge : Merge) : Analysis Nat :=
  {
    initial (.listed 3 [0, 1, 0, 2] [.plain 1 0, .plain 0 1, .plain 1 1, .plain 2 1] []) merge 40
      .backward with
    gens := .filled 3 (wordsFor 40) 5
  }

theorem solve_turned_selfFeeding
    : (selfFeedingTurned .union).Sized
      ∧ (selfFeedingTurned .union).graph.InRange
      ∧ (selfFeeding .union).graph.InRange
      ∧ (selfFeedingTurned .union).graph.TurnedInto (selfFeeding .union).graph
      ∧ ∃ final tally log followed,
          (selfFeedingTurned .union).solve .full (EventLog.empty .none)
            = .ok ({ selfFeedingTurned .union with onEntry := final }, tally, log)
          ∧ (selfFeeding .union).solve .full (EventLog.empty .none)
            = .ok ({ selfFeeding .union with onEntry := final }, tally, followed)
          ∧ log.events.toList.head? = some (.solveStart .backward 3 40)
          ∧ followed.events.toList.head? = some (.solveStart .forward 3 40)
          ∧ followed.events.toList.tail = log.events.toList.tail := by
  have full : (selfFeedingTurned .union).Sized :=
    { sized_initial _ .union 40 .backward with gens := Table.sized_filled _ _ _ }
  have inRange : (selfFeedingTurned .union).graph.InRange :=
    GraphView.listed_inRange (by decide) (by decide) (by decide)
  have turns : (selfFeedingTurned .union).graph.TurnedInto (selfFeeding .union).graph :=
    GraphView.listed_turnedInto 3 [0, 1, 0, 2] _ _ _ _ rfl
  obtain ⟨final, tally, events, solved, alsoSolved⟩ :=
    solve_turned full inRange (selfFeeding_inRange .union) turns rfl rfl rfl rfl (by decide) rfl rfl
      rfl rfl
  refine ⟨full, inRange, selfFeeding_inRange .union, turns, final, tally, _, _,
    solved EventLog .full (EventLog.empty .none), alsoSolved EventLog .full (EventLog.empty .none),
    ?_, ?_, ?_⟩
  · rw [EventLog.toList_hear_full]
    rfl
  · rw [EventLog.toList_hear_full]
    rfl
  · rw [EventLog.toList_hear_full, EventLog.toList_hear_full]
    rfl

end Analysis

end Dataflow
