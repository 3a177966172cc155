import Dataflow.Proofs.Analysis.LeastSolution
import Dataflow.Proofs.Graph.SimplePaths
import Dataflow.Proofs.Graph.VisitingOrder
import Mathlib.Data.Nat.Count

/-! How many sweeps a run under a union takes, by the retreating edges on its paths. A fact that
arrives at a node has come along a path, and along one that repeats no node, unless it ends where it
began. A sweep carries the fact along the path as far as the visits follow it, that is, up to the
next edge that does not lead to a later node of the order; so the fact arrives at the latest in the
sweep after as many sweeps as such edges lie on the way.
-/

namespace Dataflow

namespace Analysis

-----------------------------------------------------------------------------------------
-- Retreating edges
-----------------------------------------------------------------------------------------

/-- Both nodes are in the order, and `target` does not come after `source`. -/
def Retreats (order : List Node) (source target : Node) : Prop :=
  source ∈ order ∧ target ∈ order ∧ order.idxOf target ≤ order.idxOf source

instance (order : List Node) (source target : Node) : Decidable (Retreats order source target) :=
  inferInstanceAs
    (Decidable (source ∈ order ∧ target ∈ order ∧ order.idxOf target ≤ order.idxOf source))

/-- The number of edges that retreat among the first `length` of a path. -/
def retreats (order : List Node) (path : Nat → Node) (length : Nat) : Nat :=
  Nat.count (fun index => Retreats order (path index) (path (index + 1))) length

/-- A path of edges that begins at a node of the order, leaves the order with its last node at most,
and repeats no node, except that the first and the last may be the same.
-/
structure FlowPath (order : List Node) (edge : Node → Node → Prop) (length : Nat)
    (path : Nat → Node)
    : Prop where
  begins : path 0 ∈ order
  visited : ∀ index < length, path index ∈ order
  edges : ∀ index < length, edge (path index) (path (index + 1))
  simple : Simple length path

/-- Visits in an order, from each node to its targets. -/
def stopsAlong (order : List Node) (targets : Node → List Node) : List Stop :=
  order.map fun node => { node, targets := targets node }

theorem idxOf_lt_length_stopsAlong {order : List Node} (targets : Node → List Node) {node : Node}
    (listed : node ∈ order)
    : order.idxOf node < (stopsAlong order targets).length := by
  rw [stopsAlong, List.length_map]
  exact List.idxOf_lt_length_iff.mpr listed

theorem Advances.le_of_union {before after : Column} (advances : Advances .union before after)
    : before ≤ after :=
  fun _ => Bool.le_iff_imp.mpr advances.settled

-----------------------------------------------------------------------------------------
-- One fact along a path
-----------------------------------------------------------------------------------------

namespace FactRule

variable {rule : FactRule} {order : List Node} {targets : Node → List Node} {column : Column}

/-- The fact passes from a visited node that does not kill it to a target of the node. -/
def Passes (rule : FactRule) (order : List Node) (targets : Node → List Node)
    (source target : Node)
    : Prop :=
  source ∈ order ∧ target ∈ targets source ∧ rule.kills source = false

open Classical in
/-- The nodes at which the fact is at first, and those that a path brings it to from a node that it
leaves at first, are closed under what leaves them.
-/
theorem closed_pathTo (rule : FactRule) (order : List Node) (targets : Node → List Node)
    (column : Column)
    : rule.Closed (stopsAlong order targets) fun node =>
        decide (column node = true
          ∨ ∃ length path, PathTo (rule.Passes order targets)
              (fun source => rule.leaving column source = true) node length path) := by
  intro stop listed leaves target reached
  obtain ⟨source, member, rfl⟩ := List.mem_map.mp listed
  simp only [leaving, Bool.and_eq_true, Bool.or_eq_true, decide_eq_true_eq,
    Bool.not_eq_true'] at leaves ⊢
  obtain ⟨held, kept⟩ := leaves
  have passes : rule.Passes order targets source target := ⟨member, reached, kept⟩
  rcases held with (first | ⟨length, path, along⟩) | here
  · exact Or.inr ⟨_, _, .single (by simp [first, kept]) passes⟩
  · exact Or.inr ⟨_, _, along.prolong passes⟩
  · exact Or.inr ⟨_, _, .single (by simp [here, kept]) passes⟩

/-- A fact that arrives at a node has come along a path that repeats no node. -/
theorem exists_path_of_iterate {rounds : Nat} {node : Node}
    (arrived : (rule.sweep (stopsAlong order targets))^[rounds] column node = true)
    (absent : column node = false)
    : ∃ length path, PathTo (rule.Passes order targets)
        (fun source => rule.leaving column source = true) node length path
      ∧ Simple length path := by
  classical
  have below := rule.iterate_sweep_le (rule.closed_pathTo order targets column)
    (fun other => Bool.le_iff_imp.mpr fun present => decide_eq_true (Or.inl present)) rounds
  have reached := of_decide_eq_true (Bool.le_iff_imp.mp (below node) arrived)
  rw [absent] at reached
  obtain ⟨length, path, along⟩ := reached.resolve_left Bool.false_ne_true
  exact along.exists_simple

-----------------------------------------------------------------------------------------
-- When a fact gets along a path
-----------------------------------------------------------------------------------------

theorem sweep_append (rule : FactRule) (first second : List Stop) (column : Column)
    : rule.sweep (first ++ second) column = rule.sweep second (rule.sweep first column) :=
  List.foldl_append

/-- What a sweep has brought about by one position of its route stays so up to any later one. -/
theorem sweep_take_le (union : rule.join = .union) (stops : List Stop) (column : Column)
    {early late : Nat} (ordered : early ≤ late)
    : rule.sweep (stops.take early) column ≤ rule.sweep (stops.take late) column := by
  obtain ⟨further, rfl⟩ := Nat.exists_eq_add_of_le ordered
  rw [List.take_add, sweep_append]
  exact Advances.le_of_union (union ▸ rule.advances_sweep _ _)

theorem iterate_le_iterate (union : rule.join = .union) (stops : List Stop) (column : Column)
    {early late : Nat} (ordered : early ≤ late)
    : (rule.sweep stops)^[early] column ≤ (rule.sweep stops)^[late] column := by
  obtain ⟨further, rfl⟩ := Nat.exists_eq_add_of_le' ordered
  rw [Function.iterate_add_apply]
  exact Advances.le_of_union (union ▸ rule.advances_iterate stops _ further)

/-- The fact leaves a node when the sweep after `rounds` others comes to it. -/
def LeavesIn (rule : FactRule) (order : List Node) (targets : Node → List Node) (column : Column)
    (rounds : Nat) (node : Node)
    : Prop :=
  rule.leaving
    (rule.sweep ((stopsAlong order targets).take (order.idxOf node))
      ((rule.sweep (stopsAlong order targets))^[rounds] column))
    node = true

/-- A fact that leaves a node before a sweep leaves it when the sweep comes there. -/
theorem leavesIn_of_leaving (union : rule.join = .union) {rounds : Nat} {node : Node}
    (leaves : rule.leaving ((rule.sweep (stopsAlong order targets))^[rounds] column) node = true)
    : rule.LeavesIn order targets column rounds node :=
  rule.leaving_mono (rule.sweep_take_le union _ _ (Nat.zero_le _)) leaves

theorem leaving_of_held {node : Node} (held : column node = true) (kept : rule.kills node = false)
    : rule.leaving column node = true := by
  simp [leaving, held, kept]

/-- Once a node that the fact leaves has been visited, its targets have the fact. -/
theorem LeavesIn.delivered (union : rule.join = .union) {rounds : Nat} {source target : Node}
    (leaves : rule.LeavesIn order targets column rounds source) (listed : source ∈ order)
    (reached : target ∈ targets source)
    : rule.sweep ((stopsAlong order targets).take (order.idxOf source + 1))
        ((rule.sweep (stopsAlong order targets))^[rounds] column) target = true := by
  have inside : order.idxOf source < (stopsAlong order targets).length :=
    idxOf_lt_length_stopsAlong targets listed
  have stop : (stopsAlong order targets)[order.idxOf source]
      = { node := source, targets := targets source } := by
    simp [stopsAlong]
  have settles : rule.join.settled = true := by rw [union]; rfl
  rw [List.take_succ_eq_append_getElem inside, sweep_append, stop]
  exact (rule.visit_apply _ _ _).trans ((if_pos ⟨leaves, reached⟩).trans settles)

/-- After the sweep the targets of the node have the fact. -/
theorem LeavesIn.held_after (union : rule.join = .union) {rounds : Nat} {source target : Node}
    (leaves : rule.LeavesIn order targets column rounds source) (listed : source ∈ order)
    (reached : target ∈ targets source)
    : (rule.sweep (stopsAlong order targets))^[rounds + 1] column target = true := by
  have whole := rule.sweep_take_le union (stopsAlong order targets)
    ((rule.sweep (stopsAlong order targets))^[rounds] column)
    (idxOf_lt_length_stopsAlong targets listed)
  rw [List.take_length, ← Function.iterate_succ_apply' (rule.sweep _)] at whole
  exact Bool.le_iff_imp.mp (whole target) (leaves.delivered union listed reached)

/-- A fact that leaves a node in one sweep leaves the target of an edge from there in the same
sweep, or in the next if the edge retreats.
-/
theorem LeavesIn.onward (union : rule.join = .union) {rounds : Nat} {source target : Node}
    (leaves : rule.LeavesIn order targets column rounds source) (listed : source ∈ order)
    (reached : target ∈ targets source) (kept : rule.kills target = false)
    : rule.LeavesIn order targets column
        (rounds + if Retreats order source target then 1 else 0) target := by
  split
  case isTrue =>
    have arrived := leaves.held_after union listed reached
    exact leavesIn_of_leaving union (leaving_of_held arrived kept)
  case isFalse ahead =>
    have later : order.idxOf source + 1 ≤ order.idxOf target := by
      by_contra behind
      have within : order.idxOf target ≤ order.idxOf source := by omega
      refine ahead ⟨listed, ?_, within⟩
      exact List.idxOf_lt_length_iff.mp
        (Nat.lt_of_le_of_lt within (List.idxOf_lt_length_iff.mpr listed))
    have arrived := rule.sweep_take_le union (stopsAlong order targets)
      ((rule.sweep (stopsAlong order targets))^[rounds] column) later target
    exact leaving_of_held (Bool.le_iff_imp.mp arrived (leaves.delivered union listed reached)) kept

/-- The fact leaves each node of a path after as many sweeps at most as edges before it retreat, by
induction on the position.
-/
theorem leavesIn_along (union : rule.join = .union) {node : Node} {length : Nat}
    {path : Nat → Node}
    (along : PathTo (rule.Passes order targets) (fun source => rule.leaving column source = true)
      node length path)
    {index : Nat} (inside : index < length)
    : rule.LeavesIn order targets column (retreats order path index) (path index) := by
  induction index with
  | zero => exact leavesIn_of_leaving union along.begins
  | succ index ih =>
      have before : index < length := by omega
      obtain ⟨listed, reached, _⟩ := along.steps index before
      obtain ⟨_, _, kept⟩ := along.steps (index + 1) inside
      rw [retreats, Nat.count_succ]
      exact (ih before).onward union listed reached kept

/-- A path brings the fact to its end by the sweep after as many as its edges retreat. -/
theorem held_of_path (union : rule.join = .union) {node : Node} {length : Nat} {path : Nat → Node}
    (along : PathTo (rule.Passes order targets) (fun source => rule.leaving column source = true)
      node length path)
    : (rule.sweep (stopsAlong order targets))^[retreats order path length + 1] column node
      = true := by
  obtain ⟨before, rfl⟩ := Nat.exists_eq_add_of_le' along.nonempty
  obtain ⟨listed, reached, _⟩ := along.steps before (Nat.lt_succ_self before)
  have leaves := leavesIn_along union along (Nat.lt_succ_self before)
  have held := leaves.held_after union listed reached
  rw [along.last] at held
  have fewer : retreats order path before + 1 ≤ retreats order path (before + 1) + 1 :=
    Nat.succ_le_succ (Nat.count_monotone _ (Nat.le_succ before))
  exact Bool.le_iff_imp.mp (rule.iterate_le_iterate union _ _ fewer node) held

/-- When no path has more than `most` retreating edges, no sweep after the first `most + 1` moves
the fact. Witness: where it arrives at all, it has come along a path that repeats no node, and so
has arrived by then.
-/
theorem sweep_iterate_of_retreats (union : rule.join = .union) {most : Nat}
    (few : ∀ length path, FlowPath order (fun source target => target ∈ targets source) length path
      → retreats order path length ≤ most)
    : rule.sweep (stopsAlong order targets)
          ((rule.sweep (stopsAlong order targets))^[most + 1] column)
        = (rule.sweep (stopsAlong order targets))^[most + 1] column := by
  rw [← Function.iterate_succ_apply' (rule.sweep _)]
  refine le_antisymm ?_ (rule.iterate_le_iterate union _ _ (Nat.le_succ _))
  intro node
  apply Bool.le_iff_imp.mpr
  intro arrived
  cases first : column node with
  | true =>
      exact Bool.le_iff_imp.mp (rule.iterate_le_iterate union _ column (Nat.zero_le _) node) first
  | false =>
      obtain ⟨length, path, along, simple⟩ := exists_path_of_iterate arrived first
      have bound := few length path {
        begins := (along.steps 0 along.nonempty).1
        visited := fun index inside => (along.steps index inside).1
        edges := fun index inside => (along.steps index inside).2.1
        simple := simple
      }
      have kept := rule.iterate_le_iterate union (stopsAlong order targets) column
        (Nat.succ_le_succ bound)
      exact Bool.le_iff_imp.mp (kept node) (held_of_path union along)

end FactRule

-----------------------------------------------------------------------------------------
-- Solving
-----------------------------------------------------------------------------------------

variable {E σ : Type} [Ord E] [Sink σ]

/-- The nodes in the order in which every sweep visits them. -/
def processing (graph : GraphView E) (direction : Direction) : List Node :=
  match direction with
  | .forward => graph.visited.reverse
  | .backward => graph.visited

theorem mem_processing {graph : GraphView E} {direction : Direction} {node : Node}
    : node ∈ processing graph direction ↔ node ∈ graph.visited := by
  cases direction with
  | forward => exact List.mem_reverse
  | backward => exact Iff.rfl

theorem stopsOf_eq_stopsAlong (graph : GraphView E) (direction : Direction)
    : stopsOf graph direction
      = stopsAlong (processing graph direction) (graph.neighbours direction) := by
  cases direction <;> rfl

/-- A run under a union has at most one sweep that moves facts more than edges retreat on any path.
-/
theorem Reaches.rounds_le {analysis : Analysis E} (union : analysis.merge.join = .union)
    {start final : Table} {rounds : Nat}
    (reaches : Reaches analysis (stopsOf analysis.graph analysis.direction) start rounds final)
    {most : Nat}
    (few : ∀ length path,
      FlowPath (processing analysis.graph analysis.direction)
        (fun source target => target ∈ analysis.graph.neighbours analysis.direction source) length
        path
      → retreats (processing analysis.graph analysis.direction) path length ≤ most)
    : rounds ≤ most + 1 := by
  by_contra more
  obtain ⟨bit, moved⟩ := reaches.moving (most + 1) (Nat.lt_of_not_le more)
  rw [stopsOf_eq_stopsAlong] at moved
  exact moved (FactRule.sweep_iterate_of_retreats union few)

/-- Over any graph that can be grown, whatever the direction and the tables, solving under a union
takes at most two sweeps more than retreating edges lie on any path of flow edges that begins at a
visited node, leaves the visited nodes with its last at most, and repeats no node, except that the
first and the last may be the same.
-/
theorem solve_sweeps_le_retreats [Std.TransOrd E] [Std.LawfulEqOrd E] [DecidableEq E]
    (steps : List (BuildStep E)) {analysis : Analysis E}
    (graph : analysis.graph = (Cfg.grown steps).toView) (full : analysis.Sized)
    (positive : 0 < analysis.bits) (union : analysis.merge.join = .union) {most : Nat}
    (few : ∀ length path,
      FlowPath (processing (Cfg.grown steps).toView analysis.direction)
        ((Cfg.grown steps).FlowEdge analysis.direction) length path
      → retreats (processing (Cfg.grown steps).toView analysis.direction) path length ≤ most)
    (mask : Mask) (sink : σ)
    : ∃ solved tally heard, analysis.solve mask sink = .ok (solved, tally, heard)
      ∧ tally.sweeps ≤ most + 2 := by
  have coherent := Cfg.coherent_grown steps
  have inRange : analysis.graph.InRange := graph ▸ coherent.inRange
  obtain ⟨final, tally, heard, rounds, solved, reaches, sweeps, _⟩ :=
    solve_reaches full inRange positive mask sink
  refine ⟨_, tally, heard, solved, ?_⟩
  have bound : rounds ≤ most + 1 := by
    apply reaches.rounds_le union
    rw [graph]
    intro length path along
    refine few length path { along with edges := fun index inside => ?_ }
    have reachable := (coherent.mem_visited_iff _).mp
      (mem_processing.mp (along.visited index inside))
    exact (coherent.mem_neighbours _ (coherent.reachable_lt reachable) _).mp
      (along.edges index inside)
  omega

/-- A path retreats at most once from each node, since it repeats none before its end. -/
theorem FlowPath.retreats_le_card {order : List Node} {edge : Node → Node → Prop} {length : Nat}
    {path : Nat → Node} (along : FlowPath order edge length path) (sources : Finset Node)
    (listed : ∀ source target, edge source target → Retreats order source target
      → source ∈ sources)
    : retreats order path length ≤ sources.card := by
  rw [retreats, Nat.count_eq_card_filter_range]
  refine Finset.card_le_card_of_injOn path ?_ ?_
  · intro index chosen
    obtain ⟨inside, retreating⟩ := Finset.mem_filter.mp chosen
    exact listed _ _ (along.edges index (Finset.mem_range.mp inside)) retreating
  · intro first inFirst second inSecond same
    have early : first < length := Finset.mem_range.mp (Finset.mem_filter.mp inFirst).1
    have late : second < length := Finset.mem_range.mp (Finset.mem_filter.mp inSecond).1
    rcases Nat.lt_trichotomy first second with ordered | equal | ordered
    · have ends := (along.simple first second ordered late.le same).2
      omega
    · exact equal
    · have ends := (along.simple second first ordered early.le same.symm).2
      omega

/-- The last node of the cycle establishes fact 33, which travels along the edges that lead back. -/
def fedBack : Analysis Nat :=
  {
    initial (Cfg.grown Cfg.cyclicSteps).toView .union 40 .forward with
    gens := (Table.filled (Cfg.grown Cfg.cyclicSteps).nodeCount (wordsFor 40) 0).setRow 2 [0, 2]
  }

theorem processing_cyclic : processing (Cfg.grown Cfg.cyclicSteps).toView .forward = [0, 1, 2] := by
  have entry : (Cfg.grown Cfg.cyclicSteps).entry = 0 := by decide +kernel
  simp only [processing, GraphView.visited, Cfg.toView, entry, Cfg.postOrder_cyclic.1]
  rfl

/-- No path in the cyclic graph retreats more than once: the edge from a node to itself is a path of
its own, and the other edges that lead back come from one node.
-/
theorem retreats_cyclic_le (length : Nat) (path : Nat → Node)
    (along : FlowPath (processing (Cfg.grown Cfg.cyclicSteps).toView .forward)
      ((Cfg.grown Cfg.cyclicSteps).FlowEdge .forward) length path)
    : retreats (processing (Cfg.grown Cfg.cyclicSteps).toView .forward) path length ≤ 1 := by
  rw [processing_cyclic] at along ⊢
  by_cases itself : ∃ index < length, path index = path (index + 1)
  · obtain ⟨index, inside, same⟩ := itself
    obtain ⟨first, last⟩ := along.simple index (index + 1) (Nat.lt_succ_self index) inside same
    have whole : length = 1 := by omega
    rw [whole]
    exact Nat.count_le _
  · have behind : ∀ edge ∈ (Cfg.grown Cfg.cyclicSteps).edges.toList, edge.source ≠ edge.target
        → Retreats [0, 1, 2] edge.source edge.target → edge.source ∈ ({2} : Finset Node) := by
      decide +kernel
    have onward : FlowPath [0, 1, 2]
        (fun source target =>
          (Cfg.grown Cfg.cyclicSteps).FlowEdge .forward source target ∧ source ≠ target)
        length path :=
      { along with
        edges := fun index inside =>
          ⟨along.edges index inside, fun same => itself ⟨index, inside, same⟩⟩ }
    refine onward.retreats_le_card {2} ?_
    rintro source target ⟨⟨edge, listed, rfl, rfl⟩, apart⟩ retreating
    exact behind edge listed apart retreating

/-- The run takes as many sweeps as the bound allows: one that carries the fact back, one that
carries it on to the node that it comes from, and one that finds nothing to change.
-/
theorem solve_sweeps_le_retreats_cyclic
    : (∀ length path,
        FlowPath (processing (Cfg.grown Cfg.cyclicSteps).toView .forward)
          ((Cfg.grown Cfg.cyclicSteps).FlowEdge .forward) length path
        → retreats (processing (Cfg.grown Cfg.cyclicSteps).toView .forward) path length ≤ 1)
      ∧ ∃ solved tally heard,
          fedBack.solve .none Silent.silent = .ok (solved, tally, heard)
          ∧ tally.sweeps ≤ 3
          ∧ 3 ≤ tally.sweeps
          ∧ ∀ node ∈ [0, 1, 2], solved.onEntry.testBit node 33 = true := by
  have full : fedBack.Sized :=
    { sized_initial _ .union 40 .forward with gens := (Table.sized_filled _ _ _).setRow _ _ }
  have inRange : fedBack.graph.InRange := (Cfg.coherent_grown Cfg.cyclicSteps).inRange
  have routed : route fedBack.graph .forward = .ok [⟨0, [1, 1]⟩, ⟨1, [1, 2]⟩, ⟨2, [1, 0]⟩] := by
    rw [route_eq_ok inRange, stopsOf_eq_stopsAlong]
    change Except.ok (stopsAlong (processing (Cfg.grown Cfg.cyclicSteps).toView .forward) _) = _
    rw [processing_cyclic]
    decide +kernel
  obtain ⟨solved, tally, heard, ran, bound⟩ := solve_sweeps_le_retreats Cfg.cyclicSteps rfl full
    (by decide) rfl retreats_cyclic_le .none Silent.silent
  have run : (fedBack.solve .none Silent.silent).toOption.map
      (fun result => (result.2.1.sweeps, [0, 1, 2].map (result.1.onEntry.testBit · 33)))
      = some (3, [true, true, true]) := by
    rw [solve]
    change ((route fedBack.graph .forward >>= _).toOption.map _) = _
    rw [routed]
    decide +kernel
  rw [ran] at run
  obtain ⟨sweeps, facts⟩ := Prod.mk.inj (Option.some.inj run)
  refine ⟨retreats_cyclic_le, solved, tally, heard, ran, bound, Nat.le_of_eq sweeps.symm, ?_⟩
  simpa using facts

end Analysis

end Dataflow
