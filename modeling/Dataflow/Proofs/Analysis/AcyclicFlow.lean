import Dataflow.Proofs.Analysis.Convergence
import Dataflow.Proofs.Graph.FinishingOrder

/-! Without cycles one sweep does all the work. Facts then flow onward only: no visit carries them
to its own node or to one visited before. A node's facts on entry are final by the time it is
visited, under a subtraction as well as under a union, so each node ends with what it held at first
merged with what leaves its feeders in the end, and the second sweep finds nothing to do.
-/

namespace Dataflow

namespace Analysis

-----------------------------------------------------------------------------------------
-- One fact on an onward route
-----------------------------------------------------------------------------------------

/-- No stop carries facts to its own node or to a node visited before it. -/
structure Onward (stops : List Stop) : Prop where
  before : stops.Pairwise fun earlier later => earlier.node ∉ later.targets
  itself : ∀ stop ∈ stops, stop.node ∉ stop.targets

namespace FactRule

/-- A sweep along an onward route settles the fact where it leaves a feeder after the sweep, and
nowhere else. By induction on the stops: the first node is fed by none of them, so what leaves it
in the end is what leaves it when it is visited.
-/
theorem sweep_apply_of_onward (rule : FactRule) {stops : List Stop} (onward : Onward stops)
    (column : Column) (node : Node)
    : rule.sweep stops column node
      = if ∃ stop ∈ stops,
            rule.leaving (rule.sweep stops column) stop.node = true ∧ node ∈ stop.targets then
          rule.join.settled
        else column node := by
  induction stops generalizing column with
  | nil => simp [sweep]
  | cons stop rest ih =>
      obtain ⟨unfed, apart⟩ := List.pairwise_cons.mp onward.before
      obtain ⟨itself, others⟩ := List.forall_mem_cons.mp onward.itself
      have whole : rule.sweep (stop :: rest) column = rule.sweep rest (rule.visit column stop) :=
        rfl
      have kept : rule.sweep rest (rule.visit column stop) stop.node = column stop.node := by
        rw [rule.sweep_apply_of_unfed unfed, visit_apply, if_neg fun both => itself both.2]
      have leaves : rule.leaving (rule.sweep rest (rule.visit column stop)) stop.node
          = rule.leaving column stop.node := by
        rw [leaving, leaving, kept]
      rw [whole, ih ⟨apart, others⟩]
      simp only [List.exists_mem_cons_iff, leaves, visit_apply]
      by_cases later : ∃ other ∈ rest,
          rule.leaving (rule.sweep rest (rule.visit column stop)) other.node = true
            ∧ node ∈ other.targets
      · rw [if_pos later, if_pos (Or.inr later)]
      · simp only [later, or_false, if_false]

/-- A second sweep along an onward route moves nothing. -/
theorem sweep_sweep_of_onward (rule : FactRule) {stops : List Stop} (onward : Onward stops)
    (column : Column)
    : rule.sweep stops (rule.sweep stops column) = rule.sweep stops column := by
  apply (rule.sweep_eq_self_iff stops _).mpr
  intro stop listed
  apply (rule.visit_eq_self_iff _ stop).mpr
  intro leaves target reached
  rw [rule.sweep_apply_of_onward onward, if_pos ⟨stop, listed, leaves, reached⟩]

end FactRule

-----------------------------------------------------------------------------------------
-- Routes through graphs without cycles
-----------------------------------------------------------------------------------------

variable {E σ : Type} [Ord E] [Sink σ]

/-- Where control reaches no cycle the route is onward in either direction. Witness: the finishing
order is reverse topological, and a sweep against the edges follows it from its start, one along the
edges from its end.
-/
theorem onward_stopsOf {cfg : Cfg E} (coherent : cfg.Coherent)
    (acyclic : cfg.AcyclicFrom cfg.entry) (direction : Direction)
    : Onward (stopsOf cfg.toView direction) := by
  obtain ⟨order, found, members⟩ := coherent.mem_postOrder_iff coherent.entry
  have topological := coherent.reverseTopological coherent.entry found members acyclic
  have visited : cfg.toView.visited = order := by simp only [GraphView.visited, Cfg.toView, found]
  have inside : ∀ node ∈ order, node < cfg.nodeCount :=
    fun node listed => coherent.reachable_lt ((members node).mp listed)
  constructor
  · cases direction with
    | forward =>
        simp only [stopsOf, visited, List.pairwise_map, List.pairwise_reverse]
        refine topological.pairwise.imp_of_mem fun {earlier later} listed _ apart => ?_
        rwa [coherent.mem_neighbours_forward (inside earlier listed)]
    | backward =>
        simp only [stopsOf, visited, List.pairwise_map]
        refine topological.pairwise.imp_of_mem fun {earlier later} _ listed apart => ?_
        rwa [coherent.mem_neighbours_backward (inside later listed)]
  · intro stop listed
    obtain ⟨member, same⟩ := mem_stopsOf.mp listed
    rw [visited] at member
    rw [same, coherent.mem_neighbours direction (inside stop.node member)]
    cases direction with
    | forward => exact topological.not_hasEdge_self member
    | backward => exact topological.not_hasEdge_self member

/-- A run along an onward route takes one sweep that moves facts at most. -/
theorem Reaches.rounds_le_one {analysis : Analysis E} {stops : List Stop} (onward : Onward stops)
    {start final : Table} {rounds : Nat} (reaches : Reaches analysis stops start rounds final)
    : rounds ≤ 1 := by
  by_contra more
  obtain ⟨bit, moved⟩ := reaches.moving 1 (Nat.lt_of_not_le more)
  exact moved ((analysis.factRule bit).sweep_sweep_of_onward onward _)

/-- A run along an onward route ends with the fact settled where it leaves a feeder in the end, and
as it began elsewhere.
-/
theorem Reaches.testBit_of_onward {analysis : Analysis E}
    (onward : Onward (stopsOf analysis.graph analysis.direction)) {final : Table} {rounds : Nat}
    (reaches : Reaches analysis (stopsOf analysis.graph analysis.direction) analysis.onEntry rounds
      final)
    (node : Node) (bit : Nat) [Decidable (∃ source,
      analysis.graph.Feeds analysis.direction source node
      ∧ (analysis.factRule bit).leaving (factColumn final bit) source = true)]
    : final.testBit node bit
      = if ∃ source, analysis.graph.Feeds analysis.direction source node
            ∧ (analysis.factRule bit).leaving (factColumn final bit) source = true then
          analysis.merge.join.settled
        else analysis.onEntry.testBit node bit := by
  have swept : (analysis.factRule bit).sweep (stopsOf analysis.graph analysis.direction)
      (factColumn analysis.onEntry bit) = factColumn final bit :=
    reaches.iterate_of_le (reaches.rounds_le_one onward) bit
  have one := (analysis.factRule bit).sweep_apply_of_onward onward (factColumn analysis.onEntry bit)
    node
  rw [swept] at one
  refine one.trans (if_congr ?_ rfl rfl)
  simp only [feeds_iff_stop]
  constructor
  · rintro ⟨stop, listed, leaves, reached⟩
    exact ⟨stop.node, ⟨stop, listed, rfl, reached⟩, leaves⟩
  · rintro ⟨source, ⟨stop, listed, rfl, reached⟩, leaves⟩
    exact ⟨stop, listed, leaves, reached⟩

-----------------------------------------------------------------------------------------
-- Rows merged with what leaves several nodes
-----------------------------------------------------------------------------------------

/-- Merge into a row, one after the other, what leaves several nodes with the rows of `onEntry`. -/
def mergeLeaving (analysis : Analysis E) (onEntry : Table) (sources : List Node) (row : Row)
    : Except Fault Row :=
  sources.foldlM (fun row source => do
    let leaving ← analysis.transfer source (← onEntry.row source)
    analysis.merge.join.rows row leaving) row

/-- A fact merged with several others has settled if one of those is present, whatever their order.
-/
theorem foldl_bit (join : Join) (arriving : Node → Bool) (sources : List Node) (held : Bool)
    : sources.foldl (fun held source => join.bit held (arriving source)) held
      = if ∃ source ∈ sources, arriving source = true then join.settled else held := by
  induction sources generalizing held with
  | nil => simp
  | cons source rest ih =>
      rw [List.foldl_cons, ih, Join.bit_eq_ite]
      by_cases later : ∃ other ∈ rest, arriving other = true
      · simp only [List.exists_mem_cons_iff, later, or_true, if_true]
      · simp only [List.exists_mem_cons_iff, later, or_false, if_false]

/-- Merging what leaves nodes of the graph succeeds and merges each fact on its own. -/
theorem mergeLeaving_simulates {analysis : Analysis E} (full : analysis.Sized) {onEntry : Table}
    (sized : onEntry.Sized analysis.graph.nodeCount analysis.width) {sources : List Node}
    (inside : ∀ source ∈ sources, source < analysis.graph.nodeCount) {row : Row}
    (length : row.length = analysis.width)
    : ∃ merged, analysis.mergeLeaving onEntry sources row = .ok merged
      ∧ merged.length = analysis.width
      ∧ ∀ bit, merged.testBit bit
        = if ∃ source ∈ sources,
              (analysis.factRule bit).leaving (factColumn onEntry bit) source = true then
            analysis.merge.join.settled
          else row.testBit bit := by
  obtain ⟨merged, folded, mergedLength, views⟩ := foldlM_simulates
    (fun row : Row => row.length = analysis.width) (fun bit row => row.testBit bit)
    (fun bit held source => analysis.merge.join.bit held
      ((analysis.factRule bit).leaving (factColumn onEntry bit) source))
    sources row length
    (by
      intro held heldLength source listed
      obtain ⟨entering, found, enteringLength⟩ := sized.row (inside source listed)
      obtain ⟨leaving, transferred, leavingLength, law⟩ :=
        full.transfer (inside source listed) enteringLength
      obtain ⟨next, joined, nextLength⟩ :=
        rows_of_length_eq analysis.merge.join (heldLength.trans leavingLength.symm)
      refine ⟨next, bind_eq_ok.mpr ⟨entering, found, bind_eq_ok.mpr ⟨leaving, transferred, joined⟩⟩,
        nextLength.trans heldLength, fun bit => ?_⟩
      rw [Join.testBit_of_rows joined, law bit, ← Table.testBit_of_row found]
      rfl)
  exact ⟨merged, folded, mergedLength, fun bit => (views bit).trans (foldl_bit _ _ _ _)⟩

-----------------------------------------------------------------------------------------
-- Solving without cycles
-----------------------------------------------------------------------------------------

/-- A node ends with what it held at first merged with what leaves its feeders in the end, in any
order and with any repeats.
-/
theorem Reaches.row_of_onward {analysis : Analysis E} (full : analysis.Sized)
    (inRange : analysis.graph.InRange)
    (onward : Onward (stopsOf analysis.graph analysis.direction)) {final : Table} {rounds : Nat}
    (reaches : Reaches analysis (stopsOf analysis.graph analysis.direction) analysis.onEntry rounds
      final)
    {node : Node} (inside : node < analysis.graph.nodeCount) {sources : List Node}
    (feeders : ∀ source, source ∈ sources ↔ analysis.graph.Feeds analysis.direction source node)
    : ∃ start row, analysis.onEntry.row node = .ok start
      ∧ final.row node = .ok row
      ∧ analysis.mergeLeaving final sources start = .ok row := by
  classical
  obtain ⟨start, began, startLength⟩ := full.onEntry.row inside
  obtain ⟨row, ended, rowLength⟩ := reaches.sized.row inside
  obtain ⟨merged, folded, mergedLength, law⟩ := mergeLeaving_simulates full reaches.sized
    (fun source listed => (inRange.feeds_lt ((feeders source).mp listed)).1) startLength
  have same : merged = row := by
    apply Row.ext_testBit (mergedLength.trans rowLength.symm)
    intro bit
    rw [law bit, ← Table.testBit_of_row ended, reaches.testBit_of_onward onward,
      Table.testBit_of_row began]
    simp only [feeders]
  exact ⟨start, row, began, ended, same ▸ folded⟩

/-- Over any graph that can be grown in which control reaches no cycle, whatever the merge rule, the
direction and the tables, solving takes two sweeps at most. The facts on entry to a node are then
those it had at first merged in turn with what leaves, in the end, each node that control reaches
and that has a flow edge to it; the order of these nodes and repeats among them do not matter.
-/
theorem solve_acyclic [Std.TransOrd E] [Std.LawfulEqOrd E] [DecidableEq E]
    (steps : List (BuildStep E)) {analysis : Analysis E}
    (graph : analysis.graph = (Cfg.grown steps).toView) (full : analysis.Sized)
    (positive : 0 < analysis.bits)
    (acyclic : (Cfg.grown steps).AcyclicFrom (Cfg.grown steps).entry) (mask : Mask) (sink : σ)
    : ∃ final tally heard,
        analysis.solve mask sink = .ok ({ analysis with onEntry := final }, tally, heard)
        ∧ tally.sweeps ≤ 2
        ∧ ∀ node < (Cfg.grown steps).nodeCount, ∀ sources : List Node,
            (∀ source, source ∈ sources
              ↔ (Cfg.grown steps).Reachable (Cfg.grown steps).entry source
                ∧ (Cfg.grown steps).FlowEdge analysis.direction source node)
            → ∃ start row, analysis.onEntry.row node = .ok start
              ∧ final.row node = .ok row
              ∧ analysis.mergeLeaving final sources start = .ok row := by
  have coherent := Cfg.coherent_grown steps
  have inRange : analysis.graph.InRange := graph ▸ coherent.inRange
  have onward : Onward (stopsOf analysis.graph analysis.direction) :=
    graph ▸ onward_stopsOf coherent acyclic analysis.direction
  obtain ⟨final, tally, heard, rounds, solved, reaches, sweeps, _⟩ :=
    solve_reaches full inRange positive mask sink
  refine ⟨final, tally, heard, solved, ?_, ?_⟩
  · have few := reaches.rounds_le_one onward
    omega
  · intro node inside sources listed
    apply reaches.row_of_onward full inRange onward
    · rw [graph]
      exact inside
    · intro source
      rw [listed source, graph, coherent.feeds_iff]

/-- An analysis over the diamond in which every node starts with all facts, establishes two of them
and drops what arrives.
-/
def diamondAnalysis : Analysis Nat :=
  {
    initial (Cfg.grown Cfg.diamondSteps).toView { join := .subtract, startsFull := true } 40
      .forward with
    gens := .filled (Cfg.grown Cfg.diamondSteps).nodeCount (wordsFor 40) 5
  }

theorem diamondAnalysis_sized : diamondAnalysis.Sized :=
  { sized_initial _ _ 40 .forward with gens := Table.sized_filled _ _ _ }

/-- The two branches of the diamond are the feeders of the node at which they join. The node beside
it feeds one of the branches but control does not reach it.
-/
theorem feeders_of_diamond (source : Node)
    : source ∈ [1, 2, 1]
      ↔ (Cfg.grown Cfg.diamondSteps).Reachable (Cfg.grown Cfg.diamondSteps).entry source
        ∧ (Cfg.grown Cfg.diamondSteps).FlowEdge .forward source 3 := by
  have left : (Cfg.grown Cfg.diamondSteps).HasEdge 0 1 := by decide +kernel
  have right : (Cfg.grown Cfg.diamondSteps).HasEdge 0 2 := by decide +kernel
  have joins : ∀ edge ∈ (Cfg.grown Cfg.diamondSteps).edges.toList,
      edge.target = 3 → edge.source ∈ [1, 2, 1] := by decide +kernel
  have joined : ∀ source ∈ [1, 2, 1], (Cfg.grown Cfg.diamondSteps).HasEdge source 3 := by
    decide +kernel
  constructor
  · intro listed
    refine ⟨?_, joined source listed⟩
    simp only [List.mem_cons, List.not_mem_nil, or_false] at listed
    rcases listed with rfl | rfl | rfl
    · exact .single left
    · exact .single right
    · exact .single left
  · rintro ⟨_, edge, listed, rfl, target⟩
    exact joins edge listed target

theorem solve_acyclic_diamond
    : (Cfg.grown Cfg.diamondSteps).AcyclicFrom (Cfg.grown Cfg.diamondSteps).entry
      ∧ diamondAnalysis.Sized
      ∧ ∃ final tally heard start row,
          diamondAnalysis.solve .none Silent.silent
            = .ok ({ diamondAnalysis with onEntry := final }, tally, heard)
          ∧ tally.sweeps ≤ 2
          ∧ diamondAnalysis.onEntry.row 3 = .ok start
          ∧ final.row 3 = .ok row
          ∧ diamondAnalysis.mergeLeaving final [1, 2, 1] start = .ok row := by
  have acyclic := Cfg.diamond_acyclic
  obtain ⟨final, tally, heard, solved, few, rows⟩ :=
    solve_acyclic Cfg.diamondSteps rfl diamondAnalysis_sized (by decide) acyclic .none Silent.silent
  obtain ⟨start, row, began, ended, merged⟩ :=
    rows 3 (by decide +kernel) [1, 2, 1] feeders_of_diamond
  exact ⟨acyclic, diamondAnalysis_sized, final, tally, heard, start, row, solved, few, began, ended,
    merged⟩

end Analysis

end Dataflow
