import Dataflow.Proofs.Analysis.CarryingPaths

/-! More edges, more facts and fewer kills give more facts on entry. Two runs may reach different
nodes, in a different order and with a different number of sweeps, so they are compared by their
results: what the wider analysis ends with is a solution of the narrower one. The pass over the
edges that leave scopes only adds kills, and therefore adds no fact to a result.
-/

namespace Dataflow

namespace Cfg

variable {E F : Type} [Ord E] [Ord F] {cfg : Cfg E} {other : Cfg F}

/-- A graph with more edges carries facts along every pair of nodes that a graph with fewer does.
Witness: it reaches every node that the other reaches.
-/
theorem Coherent.feeds_mono (coherent : cfg.Coherent) (otherCoherent : other.Coherent)
    (entry : other.entry = cfg.entry)
    (edges : ∀ source target, cfg.HasEdge source target → other.HasEdge source target)
    {direction : Direction} {source target : Node}
    (feeds : cfg.toView.Feeds direction source target)
    : other.toView.Feeds direction source target := by
  have reaches : ∀ node, cfg.Reachable cfg.entry node → other.Reachable other.entry node := by
    intro node reachable
    rw [entry]
    exact Relation.ReflTransGen.mono edges _ _ reachable
  cases direction with
  | forward =>
      obtain ⟨reachable, edge⟩ := (coherent.feeds_forward_iff source target).mp feeds
      exact (otherCoherent.feeds_forward_iff source target).mpr
        ⟨reaches source reachable, edges source target edge⟩
  | backward =>
      obtain ⟨reachable, edge⟩ := (coherent.feeds_backward_iff source target).mp feeds
      exact (otherCoherent.feeds_backward_iff source target).mpr
        ⟨reaches source reachable, edges target source edge⟩

end Cfg

namespace Analysis

variable {E σ : Type} [Ord E] [Sink σ]

/-- The pass over the edges that leave scopes takes an analysis to one within it: the kills that it
finds stay, and nothing else changes.
-/
theorem within_of_widened {analysis : Analysis E} {kills : Table}
    (widened : ∀ bit, factColumn kills bit
      = analysis.graph.edges.foldl (widenColumn analysis.graph.index)
          (factColumn analysis.scopeEndKills bit))
    : ({ analysis with scopeEndKills := kills } : Analysis E).Within analysis where
  nodeCount := rfl
  width := rfl
  onEntry := .refl _
  gens := .refl _
  executionKills := .refl _
  feeds := fun _ _ feeds => feeds
  scopeEndKills := by
    intro node bit present
    rw [show kills.testBit node bit = _ from congrFun (widened bit) node]
    exact foldl_widenColumn_iff.mpr (Or.inl present)

/-- Over any graphs that can be grown, for facts that flow in one direction under a union: solving
an analysis ends with no fact that is missing in the result for another of the same width, whose
graph has the same nodes and entry and at least the same edges, and in which no fewer facts are
established or on entry and no more are killed. In particular the pass over the edges that leave
scopes, before solving, adds no fact anywhere.
-/
theorem solve_monotone [Std.TransOrd E] [Std.LawfulEqOrd E] [DecidableEq E]
    (steps : List (BuildStep E)) {analysis : Analysis E}
    (graph : analysis.graph = (Cfg.grown steps).toView) (full : analysis.Sized)
    (union : analysis.merge.join = .union) (mask : Mask) (sink : σ)
    : ∃ final tally heard,
        analysis.solve mask sink = .ok ({ analysis with onEntry := final }, tally, heard)
        ∧ (∀ (F τ : Type) [Ord F] [Std.TransOrd F] [Std.LawfulEqOrd F] [DecidableEq F] [Sink τ]
            (more : List (BuildStep F)) (other : Analysis F) (again : Mask) (listener : τ),
            other.graph = (Cfg.grown more).toView
            → other.Sized
            → other.merge.join = .union
            → other.width = analysis.width
            → other.direction = analysis.direction
            → (Cfg.grown more).nodeCount = (Cfg.grown steps).nodeCount
            → (Cfg.grown more).entry = (Cfg.grown steps).entry
            → (∀ source target, (Cfg.grown steps).HasEdge source target
              → (Cfg.grown more).HasEdge source target)
            → analysis.gens.Included other.gens
            → analysis.onEntry.Included other.onEntry
            → other.executionKills.Included analysis.executionKills
            → other.scopeEndKills.Included analysis.scopeEndKills
            → ∃ otherFinal otherTally reheard,
                other.solve again listener
                  = .ok ({ other with onEntry := otherFinal }, otherTally, reheard)
                ∧ final.Included otherFinal)
        ∧ ∃ widened passed exited exitedTally reheard,
            analysis.addFlowExitKills mask sink = .ok (widened, passed)
            ∧ widened.solve mask sink
              = .ok ({ widened with onEntry := exited }, exitedTally, reheard)
            ∧ exited.Included final := by
  have coherent := Cfg.coherent_grown steps
  have inRange : analysis.graph.InRange := graph ▸ coherent.inRange
  obtain ⟨final, tally, heard, rounds, solved, reaches⟩ := solve_ends full inRange mask sink
  refine ⟨final, tally, heard, solved, ?_, ?_⟩
  · intro F τ _ _ _ _ _ more other again listener otherGraph otherFull otherUnion width direction
      count entry edges gens onEntry execution scopeEnd
    have otherCoherent := Cfg.coherent_grown more
    obtain ⟨otherFinal, otherTally, reheard, otherRounds, otherSolved, otherReaches⟩ :=
      solve_ends otherFull (otherGraph ▸ otherCoherent.inRange) again listener
    have within : analysis.Within other := {
      nodeCount := by
        rw [otherGraph, graph]
        exact count
      width := width
      onEntry := onEntry
      gens := gens
      scopeEndKills := scopeEnd
      executionKills := execution
      feeds := by
        rw [otherGraph, graph, direction]
        exact fun _ _ feeds => coherent.feeds_mono otherCoherent entry edges feeds
    }
    exact ⟨otherFinal, otherTally, reheard, otherSolved,
      reaches.included_of_within within union otherUnion otherReaches⟩
  · obtain ⟨kills, passed, widens, sized, columns⟩ :=
      addFlowExitKills_simulates full inRange mask sink
    have widenedFull : ({ analysis with scopeEndKills := kills } : Analysis E).Sized :=
      { full with scopeEndKills := sized }
    obtain ⟨exited, exitedTally, reheard, exitedRounds, exitedSolved, exitedReaches⟩ :=
      solve_ends widenedFull inRange mask sink
    exact ⟨_, passed, exited, exitedTally, reheard, widens, exitedSolved,
      exitedReaches.included_of_within (within_of_widened columns) union union reaches⟩

/-- Every node of the graph of `loopSteps` establishes facts 0 and 2, and node 1 kills fact 2. -/
def loopWithKill : Analysis Nat :=
  {
    initial (Cfg.grown loopSteps).toView .union 40 .backward with
    gens := .filled (Cfg.grown loopSteps).nodeCount (wordsFor 40) 5,
    executionKills :=
      (Table.filled (Cfg.grown loopSteps).nodeCount (wordsFor 40) 0).setRow 1 [4, 0]
  }

/-- The edges of `loopSteps` in another order, and one that leads from the exit of the loop back to
the entry.
-/
def closedLoopSteps : List (BuildStep Nat) :=
  [
    .addNode none,
    .addNode none,
    .addNode none,
    .addEdge 3 0,
    .addEdgeLeaving 2 3 [1],
    .addEdge 2 1,
    .addEdge 1 2,
    .addEdge 0 1
  ]

/-- The same facts as in `loopWithKill`, of which no node kills any. -/
def closedLoop : Analysis Nat :=
  {
    initial (Cfg.grown closedLoopSteps).toView .union 40 .backward with
    gens := .filled (Cfg.grown closedLoopSteps).nodeCount (wordsFor 40) 5
  }

theorem solve_monotone_loop
    : ∃ final tally heard otherFinal otherTally reheard,
        loopWithKill.solve .none Silent.silent
          = .ok ({ loopWithKill with onEntry := final }, tally, heard)
        ∧ closedLoop.solve .none Silent.silent
          = .ok ({ closedLoop with onEntry := otherFinal }, otherTally, reheard)
        ∧ final.Included otherFinal := by
  have count : (Cfg.grown closedLoopSteps).nodeCount = (Cfg.grown loopSteps).nodeCount := by
    decide +kernel
  have full : loopWithKill.Sized := {
    sized_initial _ _ 40 .backward with
    gens := Table.sized_filled _ _ _
    executionKills := (Table.sized_filled _ _ _).setRow _ _
  }
  have closedFull : closedLoop.Sized :=
    { sized_initial _ _ 40 .backward with gens := Table.sized_filled _ _ _ }
  have gens : loopWithKill.gens.Included closedLoop.gens := by
    rw [closedLoop, count]
    exact .refl _
  have edges : ∀ edge ∈ (Cfg.grown loopSteps).edges.toList,
      edge ∈ (Cfg.grown closedLoopSteps).edges.toList := by
    decide +kernel
  have joined : ∀ source target, (Cfg.grown loopSteps).HasEdge source target
      → (Cfg.grown closedLoopSteps).HasEdge source target := by
    rintro source target ⟨edge, listed, ends⟩
    exact ⟨edge, edges edge listed, ends⟩
  have empty : ∀ (count width : Nat) (table : Table),
      (Table.filled count width 0).Included table := by
    intro count width table node bit present
    rw [Table.testBit_filled_zero] at present
    cases present
  have width : closedLoop.width = loopWithKill.width := by
    simp only [Analysis.width, closedLoop, loopWithKill, initial]
  have direction : closedLoop.direction = loopWithKill.direction := by
    simp only [closedLoop, loopWithKill, initial]
  obtain ⟨final, tally, heard, solved, others, _⟩ :=
    solve_monotone loopSteps rfl full rfl .none Silent.silent
  obtain ⟨otherFinal, otherTally, reheard, otherSolved, included⟩ :=
    others Nat Silent closedLoopSteps closedLoop .none Silent.silent rfl closedFull rfl width
      direction count (by decide +kernel) joined gens (empty _ _ _) (empty _ _ _) (empty _ _ _)
  exact ⟨final, tally, heard, otherFinal, otherTally, reheard, solved, otherSolved, included⟩

end Analysis

end Dataflow
