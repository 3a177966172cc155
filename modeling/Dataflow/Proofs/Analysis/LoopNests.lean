import Dataflow.Proofs.Analysis.Padding
import Dataflow.Proofs.Analysis.RetreatingEdges
import Dataflow.Proofs.Sample.Lines

/-! How many sweeps nested loops take. Along a line with loops a path that has taken one retreating
edge follows the line from there. To retreat again it would have to come to the latch that it left
first, or to lead back to a node that it has passed on its way, so it repeats a node. Whatever the
depth of the nest, a path without repetition retreats at most once, and three sweeps are enough.
-/

namespace Dataflow.Analysis

-----------------------------------------------------------------------------------------
-- Paths that retreat once
-----------------------------------------------------------------------------------------

/-- An edge retreats or leads to the next node of the order, and an edge that retreats from within
the part that another one leads back over stays within this part.
-/
structure Laminar (order : List Node) (edge : Node → Node → Prop) : Prop where
  onward
    : ∀ source target,
        edge source target
        → source ∈ order
        → ¬Retreats order source target
        → order.idxOf target = order.idxOf source + 1
  nested
    : ∀ source target inner goal,
        edge source target
        → edge inner goal
        → Retreats order source target
        → Retreats order inner goal
        → order.idxOf target ≤ order.idxOf inner
        → order.idxOf inner < order.idxOf source
        → order.idxOf target ≤ order.idxOf goal

namespace FlowPath

variable {order : List Node} {edge : Node → Node → Prop} {length : Nat} {path : Nat → Node}
  (along : FlowPath order edge length path) (laminar : Laminar order edge)

include along laminar

/-- A path follows the order as long as it does not retreat, by induction on its steps. -/
theorem idxOf_onward {start steps : Nat} (inside : start + steps ≤ length)
    (ahead : ∀ step < steps, ¬Retreats order (path (start + step)) (path (start + step + 1)))
    : order.idxOf (path (start + steps)) = order.idxOf (path start) + steps := by
  induction steps with
  | zero => rfl
  | succ steps ih =>
      have before := ih (by omega) fun step earlier => ahead step (Nat.lt_succ_of_lt earlier)
      have next := laminar.onward _ _ (along.edges (start + steps) (by omega))
        (along.visited (start + steps) (by omega)) (ahead steps (Nat.lt_succ_self steps))
      rw [← Nat.add_assoc, next, before, Nat.add_assoc]

/-- A path that has retreated does not do so again. By induction on the steps since: until then it
has followed the order from where it was led back to, so either it has passed the node that it
retreated from, or it would be led back to a node that it has passed.
-/
theorem not_retreats_again {first : Nat} (retreating : Retreats order (path first) (path (first + 1)))
    (steps : Nat) (inside : first + 1 + steps < length)
    : ¬Retreats order (path (first + 1 + steps)) (path (first + 1 + steps + 1)) := by
  induction steps using Nat.strongRecOn with
  | ind steps ih =>
      intro again
      have follows : ∀ passed ≤ steps,
          order.idxOf (path (first + 1 + passed)) = order.idxOf (path (first + 1)) + passed := by
        intro passed within
        refine along.idxOf_onward laminar (by omega) fun step earlier => ?_
        exact ih step (by omega) (by omega)
      have here := follows steps (Nat.le_refl steps)
      obtain ⟨left, back, behind⟩ := retreating
      obtain ⟨_, backAgain, behindAgain⟩ := again
      by_cases beyond : order.idxOf (path first) ≤ order.idxOf (path (first + 1 + steps))
      · have passed := follows (order.idxOf (path first) - order.idxOf (path (first + 1))) (by omega)
        rw [Nat.add_sub_cancel' behind, eq_comm, List.idxOf_inj left] at passed
        have ends := (along.simple first _ (by omega) (by omega) passed).2
        omega
      · have within := laminar.nested _ _ _ _ (along.edges first (by omega))
          (along.edges (first + 1 + steps) inside) ⟨left, back, behind⟩
          ⟨along.visited _ inside, backAgain, behindAgain⟩ (by omega) (by omega)
        have passed := follows
          (order.idxOf (path (first + 1 + steps + 1)) - order.idxOf (path (first + 1))) (by omega)
        rw [Nat.add_sub_cancel' within, eq_comm, List.idxOf_inj backAgain, eq_comm] at passed
        have begins := (along.simple _ (first + 1 + steps + 1) (by omega) (by omega) passed).1
        omega

theorem retreats_le_one : retreats order path length ≤ 1 := by
  -- Of two retreating edges the first would be followed by the second.
  have alone : ∀ first second, first < second → second < length
      → Retreats order (path first) (path (first + 1))
      → ¬Retreats order (path second) (path (second + 1)) := by
    intro first second ordered inside retreating
    obtain ⟨steps, rfl⟩ := Nat.exists_eq_add_of_le ordered
    exact along.not_retreats_again laminar retreating steps inside
  rw [retreats, Nat.count_eq_card_filter_range, Finset.card_le_one]
  intro first chosen second alsoChosen
  obtain ⟨inside, retreating⟩ := Finset.mem_filter.mp chosen
  obtain ⟨alsoInside, alsoRetreating⟩ := Finset.mem_filter.mp alsoChosen
  rcases Nat.lt_trichotomy first second with ordered | equal | ordered
  · exact absurd alsoRetreating
      (alone first second ordered (Finset.mem_range.mp alsoInside) retreating)
  · exact equal
  · exact absurd retreating
      (alone second first ordered (Finset.mem_range.mp inside) alsoRetreating)

end FlowPath

-----------------------------------------------------------------------------------------
-- Lines with loops
-----------------------------------------------------------------------------------------

/-- Edges between other nodes than those of the order do not matter. -/
theorem Laminar.restrict {order : List Node} {edge fewer : Node → Node → Prop}
    (laminar : Laminar order edge)
    (among : ∀ source target, source ∈ order → fewer source target → edge source target)
    : Laminar order fewer where
  onward source target here listed := laminar.onward source target (among _ _ listed here) listed
  nested source target inner goal here inside back innerBack :=
    laminar.nested source target inner goal (among _ _ back.1 here) (among _ _ innerBack.1 inside)
      back innerBack

/-- It is enough to look at the positions that the nodes have in the order. -/
theorem laminar_of_positions {order : List Node} {edge : Node → Node → Prop}
    (position : Nat → Nat)
    (placed : ∀ source target, edge source target
      → (source ∈ order ∧ order.idxOf source = position source)
        ∧ (target ∈ order ∧ order.idxOf target = position target))
    (onward : ∀ source target, edge source target
      → position target ≤ position source ∨ position target = position source + 1)
    (nested : ∀ source target inner goal, edge source target → edge inner goal
      → position target ≤ position inner
      → position inner < position source
      → position goal ≤ position inner
      → position target ≤ position goal)
    : Laminar order edge where
  onward := by
    intro source target here _ ahead
    obtain ⟨⟨listed, sourceAt⟩, reached, targetAt⟩ := placed source target here
    rw [sourceAt, targetAt]
    refine (onward source target here).resolve_left fun behind => ahead ⟨listed, reached, ?_⟩
    rwa [sourceAt, targetAt]
  nested := by
    intro source target inner goal here inside _ behind low high
    obtain ⟨⟨_, sourceAt⟩, _, targetAt⟩ := placed source target here
    obtain ⟨⟨_, innerAt⟩, _, goalAt⟩ := placed inner goal inside
    have back := behind.2.2
    rw [goalAt, innerAt] at back
    rw [targetAt, innerAt] at low
    rw [innerAt, sourceAt] at high
    rw [targetAt, goalAt]
    exact nested source target inner goal here inside low high back

theorem idxOf_of_getElem? {order : List Node} (distinct : order.Nodup) {position : Nat}
    {node : Node} (found : order[position]? = some node)
    : order.idxOf node = position := by
  obtain ⟨inside, rfl⟩ := List.getElem?_eq_some_iff.mp found
  exact distinct.idxOf_getElem position inside

theorem idxOf_range {count node : Nat} (inside : node < count)
    : (List.range count).idxOf node = node :=
  idxOf_of_getElem? List.nodup_range (List.getElem?_range inside)

theorem idxOf_reverse_range {count node : Nat} (inside : node < count)
    : (List.range count).reverse.idxOf node = count - 1 - node := by
  apply idxOf_of_getElem? (List.nodup_reverse.mpr List.nodup_range)
  rw [List.getElem?_reverse (by rw [List.length_range]; omega), List.length_range,
    List.getElem?_range (by omega)]
  congr 1
  omega

section Lines

open Sample

variable {layout : Layout} (line : layout.Linear) {cfg : Cfg Node}
  (drawn : Cfg.initial.GrowsBy layout.size (layout.links 0) cfg)

include line drawn

/-- Forward, the edges from latches to heads retreat. An inner one stays behind the head of the
outer.
-/
theorem laminar_forward : Laminar (List.range cfg.nodeCount) (cfg.FlowEdge .forward) := by
  refine laminar_of_positions (fun node => node) ?placed ?onward ?nested
  case placed =>
    intro source target edge
    have ends := drawn.coherent.hasEdge_lt edge
    exact ⟨⟨List.mem_range.mpr ends.1, idxOf_range ends.1⟩,
      List.mem_range.mpr ends.2, idxOf_range ends.2⟩
  case onward =>
    intro source target edge
    obtain ⟨_, next | ⟨loop, looping, rfl, rfl⟩⟩ := (line.hasEdge_iff drawn).mp edge
    · exact Or.inr next
    · exact Or.inl (line.between 0 loop looping).2.1.le
  case nested =>
    intro source target inner goal edge innerEdge low high back
    obtain ⟨_, rfl | ⟨loop, looping, rfl, rfl⟩⟩ := (line.hasEdge_iff drawn).mp edge
    · omega
    · obtain ⟨_, rfl | ⟨other, alsoLooping, rfl, rfl⟩⟩ := (line.hasEdge_iff drawn).mp innerEdge
      · omega
      · exact line.head_le_head looping alsoLooping low high

/-- Backward, facts flow from heads to latches against the order. From an inner head they do not get
beyond the latch of the outer.
-/
theorem laminar_backward
    : Laminar (List.range cfg.nodeCount).reverse (cfg.FlowEdge .backward) := by
  have count := drawn.nodeCount_of_initial
  refine laminar_of_positions (fun node => cfg.nodeCount - 1 - node) ?placed ?onward ?nested
  case placed =>
    intro source target edge
    have ends := drawn.coherent.hasEdge_lt edge
    exact ⟨⟨List.mem_reverse.mpr (List.mem_range.mpr ends.2), idxOf_reverse_range ends.2⟩,
      List.mem_reverse.mpr (List.mem_range.mpr ends.1), idxOf_reverse_range ends.1⟩
  case onward =>
    intro source target edge
    obtain ⟨inside, rfl | ⟨loop, looping, rfl, rfl⟩⟩ := (line.hasEdge_iff drawn).mp edge
    · omega
    · have bounds := line.between 0 loop looping
      omega
  case nested =>
    intro source target inner goal edge innerEdge low high back
    obtain ⟨inside, rfl | ⟨loop, looping, rfl, rfl⟩⟩ := (line.hasEdge_iff drawn).mp edge
    · omega
    · obtain ⟨within, rfl | ⟨other, alsoLooping, rfl, rfl⟩⟩ :=
        (line.hasEdge_iff drawn).mp innerEdge
      · omega
      · have bounds := line.between 0 loop looping
        have otherBounds := line.between 0 other alsoLooping
        have kept := line.latch_le_latch looping alsoLooping (by omega) (by omega)
        omega

theorem laminar_line (direction : Direction)
    : Laminar (processing cfg.toView direction)
        (fun source target => target ∈ cfg.toView.neighbours direction source) := by
  have visited : cfg.toView.visited = (List.range cfg.nodeCount).reverse := by
    simp only [GraphView.visited, Cfg.toView, line.postOrder_eq drawn]
  have flows : Laminar (processing cfg.toView direction) (cfg.FlowEdge direction) := by
    cases direction with
    | forward =>
        rw [processing, visited, List.reverse_reverse]
        exact laminar_forward line drawn
    | backward =>
        rw [processing, visited]
        exact laminar_backward line drawn
  refine flows.restrict fun source target listed neighbour => ?_
  have reachable := (drawn.coherent.mem_visited_iff source).mp (mem_processing.mp listed)
  exact (drawn.coherent.mem_neighbours direction (drawn.coherent.reachable_lt reachable) target).mp
    neighbour

/-- Over a line with loops, solving under a union takes at most three sweeps, whatever is recorded
and known on entry.
-/
theorem sweeps_le_three {σ : Type} [Sink σ] {analysis : Analysis Node}
    (full : analysis.Sized) (graph : analysis.graph = cfg.toView) (positive : 0 < analysis.bits)
    (union : analysis.merge.join = .union) (mask : Mask) (sink : σ)
    : ∃ solved tally heard, analysis.solve mask sink = .ok (solved, tally, heard)
      ∧ tally.sweeps ≤ 3 := by
  have inRange : analysis.graph.InRange := graph ▸ drawn.coherent.inRange
  obtain ⟨final, tally, heard, rounds, solved, reaches, sweeps, _⟩ :=
    solve_reaches full inRange positive mask sink
  refine ⟨_, tally, heard, solved, ?_⟩
  have bound : rounds ≤ 1 + 1 := by
    apply reaches.rounds_le union
    rw [graph]
    exact fun length path along =>
      along.retreats_le_one (laminar_line line drawn analysis.direction)
  omega

end Lines

-----------------------------------------------------------------------------------------
-- Spreading facts over a graph
-----------------------------------------------------------------------------------------

/-- What is recorded at one node when facts are spread over a graph. -/
def scattered (bits position : Nat) : List (Recording Node) :=
  let element := Node.ofPosition position
  [
    .gen element (position % bits),
    .kill .execution element ((position * 7 + 3) % bits)
  ]
    ++ if position % 5 = 0 then [.kill .scopeEnd element ((position + 1) % bits)] else []

theorem scatterAt_eq_recordAll (bits : Nat) (analysis : Analysis Node) (position : Nat)
    : Sample.scatterAt bits analysis position = analysis.recordAll (scattered bits position) := by
  unfold Sample.scatterAt scattered
  split
  case isTrue => simp [recordAll, record]
  case isFalse => simp [recordAll, record]

theorem recordAll_append {E : Type} [Ord E] (analysis : Analysis E) (early late : List (Recording E))
    : analysis.recordAll (early ++ late)
      = analysis.recordAll early >>= fun middle => middle.recordAll late :=
  List.foldlM_append

/-- Spreading facts over a graph is recording them one after the other, by induction on the nodes.
-/
theorem scatter_eq_recordAll {bits : Nat} (positive : 0 < bits) (count : Nat)
    (analysis : Analysis Node)
    : Sample.scatter count bits analysis
      = analysis.recordAll ((List.range' 1 (count - 1)).flatMap (scattered bits)) := by
  rw [Sample.scatter, if_neg (Nat.ne_of_gt positive)]
  generalize List.range' 1 (count - 1) = positions
  induction positions generalizing analysis with
  | nil => rfl
  | cons position rest ih =>
      rw [List.foldlM_cons, List.flatMap_cons, recordAll_append, scatterAt_eq_recordAll]
      simp only [ih]

theorem scattered_declared {bits position : Nat} (positive : 0 < bits)
    {recording : Recording Node} (listed : recording ∈ scattered bits position)
    : recording.Declared bits := by
  have rest : ∀ number, number % bits < bits := fun _ => Nat.mod_lt _ positive
  rcases List.mem_append.mp listed with always | sometimes
  · rcases List.mem_cons.mp always with rfl | second
    · exact rest _
    · cases List.mem_singleton.mp second
      exact rest _
  · split at sometimes
    case isTrue =>
      cases List.mem_singleton.mp sometimes
      exact rest _
    case isFalse => cases sometimes

/-- Facts can be spread over any graph, and nothing but what is established and killed changes. -/
theorem scatter_prepares {analysis : Analysis Node} (full : analysis.Sized)
    (inRange : analysis.graph.InRange) (positive : 0 < analysis.bits) (count : Nat)
    : ∃ seeded, Sample.scatter count analysis.bits analysis = .ok seeded
      ∧ Prepares analysis seeded := by
  rw [scatter_eq_recordAll positive]
  obtain ⟨seeded, made⟩ := recordAll_succeeds full inRange
    ((List.range' 1 (count - 1)).flatMap (scattered analysis.bits)) (by
      intro recording listed
      obtain ⟨position, _, here⟩ := List.mem_flatMap.mp listed
      exact (scattered_declared positive here).fits)
  exact ⟨seeded, made, prepares_of_recordAll full made⟩

-----------------------------------------------------------------------------------------
-- Nested loops
-----------------------------------------------------------------------------------------

/-- Over nested loops of any depth, with bodies of any length, as long as there are at most `2 ^ 32`
nodes, solving under a union takes at most three sweeps, in either direction and whatever the tables
hold. In particular it does so when facts have been spread over the nodes of a fresh analysis and
the pass over the edges has been made.
-/
theorem solve_loopNest_sweeps_le {σ : Type} [Sink σ] (depth body : Nat)
    (few : max depth 1 * (body + 3) + 2 ≤ 0x100000000)
    : ∃ cfg, (Sample.Shape.loopNest depth body).toCfg = .ok cfg
      ∧ cfg.nodeCount = max depth 1 * (body + 3) + 2
      ∧ (∀ analysis : Analysis Node,
          analysis.graph = cfg.toView
          → analysis.Sized
          → 0 < analysis.bits
          → analysis.merge.join = .union
          → ∀ (mask : Mask) (sink : σ),
              ∃ solved tally heard, analysis.solve mask sink = .ok (solved, tally, heard)
              ∧ tally.sweeps ≤ 3)
      ∧ ∀ (merge : Merge) (bits : Nat) (direction : Direction),
          merge.join = .union
          → 0 < bits
          → ∀ (mask : Mask) (sink : σ),
              ∃ seeded prepared listening solved tally heard,
                Sample.scatter cfg.nodeCount bits (initial cfg.toView merge bits direction)
                  = .ok seeded
                ∧ seeded.addFlowExitKills mask sink = .ok (prepared, listening)
                ∧ prepared.solve mask listening = .ok (solved, tally, heard)
                ∧ tally.sweeps ≤ 3 := by
  have line := Sample.Layout.linear_loopNest depth body
  have size := Sample.Layout.size_loopNest depth body
  obtain ⟨cfg, built, drawn⟩ := (Sample.Shape.draws_loopNest depth body).toCfg (by omega)
  have inRange : cfg.toView.InRange := drawn.coherent.inRange
  refine ⟨cfg, built, by rw [drawn.nodeCount_of_initial, size], ?_, ?_⟩
  · intro analysis graph full positive union mask sink
    exact sweeps_le_three line drawn full graph positive union mask sink
  · intro merge bits direction union positive mask sink
    have fresh := sized_initial cfg.toView merge bits direction
    obtain ⟨seeded, spread, prepares⟩ := scatter_prepares fresh inRange positive cfg.nodeCount
    have graph : seeded.graph = cfg.toView := prepares.graph
    obtain ⟨kills, listening, passed, sized, _⟩ :=
      addFlowExitKills_simulates prepares.sized (graph ▸ inRange) mask sink
    have full : ({ seeded with scopeEndKills := kills } : Analysis Node).Sized :=
      { prepares.sized with scopeEndKills := sized }
    obtain ⟨solved, tally, heard, ended, sweeps⟩ := sweeps_le_three line drawn full graph
      (prepares.bits ▸ positive) (prepares.merge ▸ union) mask listening
    exact ⟨seeded, _, listening, solved, tally, heard, spread, passed, ended, sweeps⟩

/-- Three loops with bodies of one node, in both directions. -/
theorem solve_loopNest_sweeps_le_threefold
    : max 3 1 * (1 + 3) + 2 ≤ 0x100000000
      ∧ ∃ cfg, (Sample.Shape.loopNest 3 1).toCfg = .ok cfg
        ∧ cfg.nodeCount = 14
        ∧ (∃ solved tally heard,
            (initial cfg.toView .union 40 .backward).solve .none Silent.silent
              = .ok (solved, tally, heard)
            ∧ tally.sweeps ≤ 3)
        ∧ ∃ seeded prepared listening solved tally heard,
            Sample.scatter 14 40 (initial cfg.toView .union 40 .forward) = .ok seeded
            ∧ seeded.addFlowExitKills .none Silent.silent = .ok (prepared, listening)
            ∧ prepared.solve .none listening = .ok (solved, tally, heard)
            ∧ tally.sweeps ≤ 3 := by
  have few : max 3 1 * (1 + 3) + 2 ≤ 0x100000000 := by decide
  obtain ⟨cfg, built, count, general, seeded⟩ := @solve_loopNest_sweeps_le Silent _ 3 1 few
  refine ⟨few, cfg, built, count, ?_, ?_⟩
  · exact general _ rfl (sized_initial _ _ _ _) (Nat.zero_lt_succ 39) rfl .none Silent.silent
  · rw [count] at seeded
    exact seeded .union 40 .forward rfl (by decide) .none Silent.silent

end Dataflow.Analysis
