import Dataflow.Proofs.Analysis.CarryingPaths
import Dataflow.Proofs.Analysis.Lockstep
import Dataflow.Proofs.Graph.Unreached

/-! Nodes that control does not reach have no influence on those that it does. Forward, a run never
comes to them, so a graph grown aside is solved step by step as before. Backward, a run writes into
unreached nodes that lead to reached ones and may sweep longer for it; but it never reads what it
wrote there, so sweep for sweep the reached nodes have the same facts.
-/

namespace Dataflow.Analysis

-----------------------------------------------------------------------------------------
-- One fact at the nodes of a set
-----------------------------------------------------------------------------------------

/-- The stops are at the same node of `live` and have the same targets in `live`. -/
structure Stop.SameOn (live : Set Node) (stop other : Stop) : Prop where
  member : stop.node ∈ live
  node : other.node = stop.node
  targets : ∀ target ∈ live, target ∈ other.targets ↔ target ∈ stop.targets

/-- The rules merge a fact alike and treat it alike at the nodes of `live`. -/
structure FactRule.SameOn (live : Set Node) (rule other : FactRule) : Prop where
  join : other.join = rule.join
  gens : live.EqOn rule.gens other.gens
  kills : live.EqOn rule.kills other.kills

namespace FactRule.SameOn

variable {live : Set Node} {rule other : FactRule} {column another : Column}

theorem visit (same : rule.SameOn live other) (columns : live.EqOn column another)
    {stop alternative : Stop} (stops : stop.SameOn live alternative)
    : live.EqOn (rule.visit column stop) (other.visit another alternative) := by
  intro node inside
  have leaving : other.leaving another alternative.node = rule.leaving column stop.node := by
    simp only [FactRule.leaving, stops.node, columns stops.member, same.gens stops.member,
      same.kills stops.member]
  simp only [visit_apply, leaving, same.join, stops.targets node inside, columns inside]

/-- Sweeps keep columns alike on `live`, by induction on the stops. -/
theorem sweep (same : rule.SameOn live other) {stops alternatives : List Stop}
    (alike : List.Forall₂ (Stop.SameOn live) stops alternatives)
    (columns : live.EqOn column another)
    : live.EqOn (rule.sweep stops column) (other.sweep alternatives another) := by
  induction alike generalizing column another with
  | nil => exact columns
  | cons first _ ih => exact ih (same.visit columns first)

theorem iterate (same : rule.SameOn live other) {stops alternatives : List Stop}
    (alike : List.Forall₂ (Stop.SameOn live) stops alternatives)
    (columns : live.EqOn column another) (rounds : Nat)
    : live.EqOn ((rule.sweep stops)^[rounds] column)
        ((other.sweep alternatives)^[rounds] another) := by
  induction rounds generalizing column another with
  | zero => exact columns
  | succ rounds ih => exact ih (same.sweep alike columns)

end FactRule.SameOn

variable {E : Type} [Ord E]

-----------------------------------------------------------------------------------------
-- Runs at the nodes of a set
-----------------------------------------------------------------------------------------

section Runs

variable {F : Type} [Ord F] {live : Set Node} {analysis : Analysis E} {other : Analysis F}

theorem AgreeOn.factRule (agree : AgreeOn live analysis other) (bit : Nat)
    : (analysis.factRule bit).SameOn live (other.factRule bit) where
  join := agree.join
  gens := fun _ member => Table.testBit_congr (agree.gens member) bit
  kills := by
    intro node member
    simp only [Analysis.factRule, killed, Table.testBit_congr (agree.executionKills member),
      Table.testBit_congr (agree.scopeEndKills member)]

/-- Runs over stops that are the same on `live` end with the same rows there, whether or not they
take the same number of sweeps. Witness: the shorter run would not move if it went on.
-/
theorem AgreeOn.row_eq_row (agree : AgreeOn live analysis other) {stops alternatives : List Stop}
    (alike : List.Forall₂ (Stop.SameOn live) stops alternatives) {final followed : Table}
    {rounds turns : Nat} (reaches : Reaches analysis stops analysis.onEntry rounds final)
    (alsoReaches : Reaches other alternatives other.onEntry turns followed) {node : Node}
    (member : node ∈ live) (inside : node < analysis.graph.nodeCount)
    (alsoInside : node < other.graph.nodeCount)
    : ∃ row, final.row node = .ok row ∧ followed.row node = .ok row := by
  have sized := alsoReaches.sized
  rw [agree.width_eq] at sized
  refine reaches.sized.row_eq_row sized inside alsoInside fun bit => ?_
  have columns : live.EqOn (factColumn analysis.onEntry bit) (factColumn other.onEntry bit) :=
    fun _ listed => Table.testBit_congr (agree.onEntry listed) bit
  have swept := (agree.factRule bit).iterate alike columns (max rounds turns) member
  rw [reaches.iterate_of_le (Nat.le_max_left rounds turns),
    alsoReaches.iterate_of_le (Nat.le_max_right rounds turns)] at swept
  exact swept

/-- A run does not change the row of a node to which no stop carries facts. -/
theorem Reaches.row_of_unfed {stops : List Stop} {start final : Table} {rounds : Nat}
    (reaches : Reaches analysis stops start rounds final)
    (sized : start.Sized analysis.graph.nodeCount analysis.width) {node : Node}
    (unfed : ∀ stop ∈ stops, node ∉ stop.targets) (inside : node < analysis.graph.nodeCount)
    : final.row node = start.row node := by
  have facts : ∀ bit, final.testBit node bit = start.testBit node bit := by
    intro bit
    have columns := congrFun (reaches.columns bit) node
    have still : ∀ turns,
        ((analysis.factRule bit).sweep stops)^[turns] (factColumn start bit) node
          = factColumn start bit node := by
      intro turns
      induction turns with
      | zero => rfl
      | succ turns ih =>
          rw [Function.iterate_succ_apply', FactRule.sweep_apply_of_unfed _ unfed, ih]
    exact columns.trans (still rounds)
  obtain ⟨row, found, begun⟩ := reaches.sized.row_eq_row sized inside inside facts
  rw [found, begun]

/-- Runs over the same stops within `live` count the same and log the same after their openings. -/
theorem AgreeOn.log_eq (agree : AgreeOn live analysis other) (full : analysis.Sized)
    (inRange : analysis.graph.InRange) (alsoInRange : other.graph.InRange)
    (within : RouteWithin live (stopsOf analysis.graph analysis.direction))
    (same : stopsOf other.graph other.direction = stopsOf analysis.graph analysis.direction)
    {solved : Analysis E} {alsoSolved : Analysis F} {tally alsoTally : Tally}
    {log alsoLog : EventLog}
    (ran : analysis.solve .full (EventLog.empty .none) = .ok (solved, tally, log))
    (alsoRan : other.solve .full (EventLog.empty .none) = .ok (alsoSolved, alsoTally, alsoLog))
    : alsoTally = tally
      ∧ ∃ events, log.events.toList = analysis.opening ++ events
        ∧ alsoLog.events.toList = other.opening ++ events := by
  obtain ⟨_, _, _, events, _, runs, alsoRuns⟩ :=
    agree.solve full inRange alsoInRange within same
  rw [runs EventLog .full] at ran
  rw [alsoRuns EventLog .full] at alsoRan
  cases ran
  cases alsoRan
  exact ⟨rfl, events, EventLog.toList_hear_full _ _, EventLog.toList_hear_full _ _⟩

end Runs

-----------------------------------------------------------------------------------------
-- Routes through graphs grown aside
-----------------------------------------------------------------------------------------

section Routes

variable {cfg next : Cfg E}

/-- Forward, facts are carried to reached nodes only. -/
theorem routeWithin_reached (coherent : cfg.Coherent)
    : RouteWithin cfg.reached (stopsOf cfg.toView .forward) := by
  intro stop listed
  have reached := (coherent.mem_visited_iff stop.node).mp (mem_stopsOf.mp listed).1
  refine ⟨reached, fun target carried => ?_⟩
  have feeds := feeds_iff_stop.mpr ⟨stop, listed, rfl, carried⟩
  exact reached.tail ((coherent.feeds_forward_iff stop.node target).mp feeds).2

theorem stopsOf_forward_aside (aside : cfg.GrowsAside next)
    : stopsOf next.toView .forward = stopsOf cfg.toView .forward := by
  simp only [stopsOf, aside.visited_eq]
  refine List.map_congr_left fun node listed => ?_
  have reached := (aside.coherent.mem_visited_iff node).mp (List.mem_reverse.mp listed)
  rw [aside.neighbours_forward_eq reached]

theorem stopsOf_sameOn_reached (aside : cfg.GrowsAside next) (direction : Direction)
    : List.Forall₂ (Stop.SameOn cfg.reached) (stopsOf cfg.toView direction)
        (stopsOf next.toView direction) := by
  have same : ∀ node ∈ cfg.toView.visited,
      Stop.SameOn cfg.reached { node, targets := cfg.toView.neighbours direction node }
        { node, targets := next.toView.neighbours direction node } := by
    intro node listed
    have reached := (aside.coherent.mem_visited_iff node).mp listed
    exact ⟨reached, rfl, fun target member => aside.mem_neighbours_iff direction reached member⟩
  simp only [stopsOf, aside.visited_eq, List.forall₂_map_left_iff, List.forall₂_map_right_iff,
    List.forall₂_same]
  cases direction with
  | forward => exact fun node listed => same node (List.mem_reverse.mp listed)
  | backward => exact same

end Routes

theorem filter_entry_opening (analysis : Analysis E)
    : (analysis.opening.filter fun event => event.eventClass = .entry) = [] := by
  unfold opening
  split <;> rfl

/-- Growing a graph aside makes no difference to the nodes that control reaches. If two analyses
over the graphs merge facts alike, have facts of one width and direction, and agree in the rows of
reached nodes, then solving both gives every reached node the same row. Forward, neither run changes
the row of an unreached node, and the runs have the same tally and the same changes to report.
-/
theorem solve_ignores_unreached [Std.TransOrd E] [Std.LawfulEqOrd E] [DecidableEq E]
    {steps more : List (BuildStep E)} (kept : ∀ step ∈ more, step.entry? = none)
    (dead
      : ∀ edge ∈ (BuildStep.accepted (Cfg.grown steps).nodeCount more).filterMap BuildStep.edge?,
          edge.source ∉ (Cfg.grown steps).reached)
    {analysis other : Analysis E} (graph : analysis.graph = (Cfg.grown steps).toView)
    (alsoGraph : other.graph = (Cfg.grown (steps ++ more)).toView) (full : analysis.Sized)
    (alsoFull : other.Sized) (direction : other.direction = analysis.direction)
    (agree : AgreeOn (Cfg.grown steps).reached analysis other)
    : (Cfg.grown (steps ++ more)).reached = (Cfg.grown steps).reached
      ∧ ∃ final followed tally alsoTally events alsoEvents,
          (∀ (σ : Type) [Sink σ] (mask : Mask) (sink : σ),
            analysis.solve mask sink
              = .ok ({ analysis with onEntry := final }, tally, hear mask events sink))
          ∧ (∀ (σ : Type) [Sink σ] (mask : Mask) (sink : σ),
            other.solve mask sink
              = .ok ({ other with onEntry := followed }, alsoTally, hear mask alsoEvents sink))
          ∧ (∀ node ∈ (Cfg.grown steps).reached,
            ∃ row, final.row node = .ok row ∧ followed.row node = .ok row)
          ∧ (analysis.direction = .forward
            → (∀ node < analysis.graph.nodeCount, node ∉ (Cfg.grown steps).reached
                → final.row node = analysis.onEntry.row node)
              ∧ (∀ node < other.graph.nodeCount, node ∉ (Cfg.grown steps).reached
                → followed.row node = other.onEntry.row node)
              ∧ alsoTally = tally
              ∧ (alsoEvents.filter fun event => event.eventClass = .entry)
                = events.filter fun event => event.eventClass = .entry) := by
  have aside := Cfg.growsAside_append kept dead
  have inRange : analysis.graph.InRange := graph ▸ aside.coherent.inRange
  have alsoInRange : other.graph.InRange := alsoGraph ▸ aside.grown.inRange
  obtain ⟨final, tally, log, rounds, ran, reaches⟩ :=
    solve_ends full inRange .full (EventLog.empty .none)
  obtain ⟨followed, alsoTally, alsoLog, turns, alsoRan, alsoReaches⟩ :=
    solve_ends alsoFull alsoInRange .full (EventLog.empty .none)
  rw [graph] at reaches
  rw [alsoGraph, direction] at alsoReaches
  refine ⟨aside.reached_eq, final, followed, tally, alsoTally, log.events.toList,
    alsoLog.events.toList, fun σ _ => solve_of_fullLog ran, fun σ _ => solve_of_fullLog alsoRan,
    ?_, ?_⟩
  · intro node reached
    have inside := aside.coherent.reachable_lt reached
    refine agree.row_eq_row (stopsOf_sameOn_reached aside analysis.direction) reaches alsoReaches
      reached ?_ ?_
    · rw [graph]
      exact inside
    · rw [alsoGraph]
      exact inside.trans_le aside.nodeCount
  · intro forward
    have alsoForward : other.direction = .forward := direction.trans forward
    have within := routeWithin_reached aside.coherent
    have same := stopsOf_forward_aside aside
    rw [forward] at reaches alsoReaches
    rw [same] at alsoReaches
    have unfed : ∀ node, node ∉ (Cfg.grown steps).reached
        → ∀ stop ∈ stopsOf (Cfg.grown steps).toView .forward, node ∉ stop.targets :=
      fun node unreached stop listed carried => unreached ((within stop listed).2 node carried)
    obtain ⟨tallies, events, logged, alsoLogged⟩ :=
      agree.log_eq full inRange alsoInRange (by rwa [graph, forward])
        (by rwa [alsoGraph, alsoForward, graph, forward]) ran alsoRan
    refine ⟨?_, ?_, tallies, ?_⟩
    · intro node inside unreached
      exact reaches.row_of_unfed full.onEntry (unfed node unreached) inside
    · intro node inside unreached
      exact alsoReaches.row_of_unfed alsoFull.onEntry (unfed node unreached) inside
    · rw [logged, alsoLogged, List.filter_append, List.filter_append, filter_entry_opening,
        filter_entry_opening]

/-- A node that leads into the loop of `loopSteps` and to itself, and to which nothing else leads.
One of the edges is refused.
-/
def besideLoopSteps : List (BuildStep Nat) :=
  [.addNode none, .addEdge 4 2, .addEdge 7 1, .addEdgeLeaving 4 4 [1]]

/-- Facts 0 and 2 are established everywhere in the loop and taken from all facts. -/
def loopSubtraction (direction : Direction) : Analysis Nat :=
  {
    initial (Cfg.grown loopSteps).toView { join := .subtract, startsFull := true } 40 direction with
    gens := .filled (Cfg.grown loopSteps).nodeCount (wordsFor 40) 5
  }

/-- The same beside a node that establishes other facts. -/
def besideLoop (direction : Direction) : Analysis Nat :=
  {
    initial (Cfg.grown (loopSteps ++ besideLoopSteps)).toView
      { join := .subtract, startsFull := true } 40 direction with
    gens :=
      (Table.filled (Cfg.grown (loopSteps ++ besideLoopSteps)).nodeCount (wordsFor 40) 5).setRow 4
        [7, 1]
  }

theorem nodeCount_loop : (Cfg.grown loopSteps).nodeCount = 4 := by
  decide +kernel

theorem nodeCount_besideLoop : (Cfg.grown (loopSteps ++ besideLoopSteps)).nodeCount = 5 := by
  decide +kernel

theorem lt_of_reached_loop {node : Node} (reached : node ∈ (Cfg.grown loopSteps).reached)
    : node < 4 :=
  nodeCount_loop ▸ (Cfg.coherent_grown loopSteps).reachable_lt reached

theorem agreeOn_besideLoop (direction : Direction)
    : AgreeOn (Cfg.grown loopSteps).reached (loopSubtraction direction) (besideLoop direction) := by
  have filled (word : Word)
      : (Cfg.grown loopSteps).reached.EqOn
          (Table.filled (Cfg.grown loopSteps).nodeCount (wordsFor 40) word).row
          (Table.filled (Cfg.grown (loopSteps ++ besideLoopSteps)).nodeCount (wordsFor 40)
            word).row := by
    intro node reached
    have inside := lt_of_reached_loop reached
    rw [nodeCount_loop, nodeCount_besideLoop, Table.row_filled inside,
      Table.row_filled (Nat.lt_succ_of_lt inside)]
  have join : (besideLoop direction).merge.join = (loopSubtraction direction).merge.join := by
    simp only [besideLoop, loopSubtraction, initial]
  have bits : (besideLoop direction).bits = (loopSubtraction direction).bits := by
    simp only [besideLoop, loopSubtraction, initial]
  refine ⟨join, bits, fun node reached => ?_, filled 0, filled 0, filled _⟩
  have stored : (Table.filled (Cfg.grown (loopSteps ++ besideLoopSteps)).nodeCount
      (wordsFor 40) 5).row 4 = .ok [5, 5] := by
    rw [nodeCount_besideLoop]
    exact Table.row_filled (by decide)
  have length : ([7, 1] : Row).length = ([5, 5] : Row).length := rfl
  have apart : node ≠ 4 := Nat.ne_of_lt (lt_of_reached_loop reached)
  exact (filled 5 reached).trans (Table.row_setRow_of_ne stored length apart).symm

theorem solve_ignores_unreached_loop
    : (∃ final followed tally alsoTally row,
        (loopSubtraction .backward).solve .none Silent.silent
          = .ok ({ loopSubtraction .backward with onEntry := final }, tally, Silent.silent)
        ∧ (besideLoop .backward).solve .none Silent.silent
          = .ok ({ besideLoop .backward with onEntry := followed }, alsoTally, Silent.silent)
        ∧ final.row 1 = .ok row ∧ followed.row 1 = .ok row)
      ∧ ∃ final followed tally,
          (loopSubtraction .forward).solve .none Silent.silent
            = .ok ({ loopSubtraction .forward with onEntry := final }, tally, Silent.silent)
          ∧ (besideLoop .forward).solve .none Silent.silent
            = .ok ({ besideLoop .forward with onEntry := followed }, tally, Silent.silent)
          ∧ followed.row 4 = (besideLoop .forward).onEntry.row 4 := by
  have entry : (Cfg.grown loopSteps).entry = 0 := by decide +kernel
  have enters : (Cfg.grown loopSteps).HasEdge 0 1 := by decide +kernel
  have sources : ∀ edge ∈ (BuildStep.accepted (Cfg.grown loopSteps).nodeCount
      besideLoopSteps).filterMap BuildStep.edge?, 4 ≤ edge.source := by
    decide +kernel
  have reached : 1 ∈ (Cfg.grown loopSteps).reached := by
    rw [Cfg.mem_reached, entry]
    exact .single enters
  have full : ∀ direction, (loopSubtraction direction).Sized := fun direction =>
    { sized_initial _ _ 40 direction with gens := Table.sized_filled _ _ _ }
  have alsoFull : ∀ direction, (besideLoop direction).Sized := fun direction =>
    { sized_initial _ _ 40 direction with gens := (Table.sized_filled _ _ _).setRow _ _ }
  have directions : ∀ direction,
      (besideLoop direction).direction = (loopSubtraction direction).direction := by
    intro direction
    simp only [besideLoop, loopSubtraction, initial]
  have both := fun direction => solve_ignores_unreached (by decide)
    (fun edge listed found => Nat.not_lt.mpr (sources edge listed) (lt_of_reached_loop found)) rfl
    rfl (full direction) (alsoFull direction) (directions direction) (agreeOn_besideLoop direction)
  obtain ⟨_, final, followed, tally, alsoTally, _, _, solved, alsoSolved, rows, _⟩ := both .backward
  obtain ⟨row, found, alsoFound⟩ := rows 1 reached
  obtain ⟨_, ahead, alsoAhead, _, work, _, _, ran, alsoRan, _, forward⟩ := both .forward
  obtain ⟨_, untouched, rfl, _⟩ := forward rfl
  have inside : 4 < (besideLoop .forward).graph.nodeCount :=
    Nat.lt_of_lt_of_eq (by decide : 4 < 5) nodeCount_besideLoop.symm
  refine ⟨⟨final, followed, tally, alsoTally, row, solved Silent .none Silent.silent,
    alsoSolved Silent .none Silent.silent, found, alsoFound⟩, ahead, alsoAhead, work,
    ran Silent .none Silent.silent, alsoRan Silent .none Silent.silent, ?_⟩
  exact untouched 4 inside fun listed => absurd (lt_of_reached_loop listed) (by decide)

end Dataflow.Analysis
