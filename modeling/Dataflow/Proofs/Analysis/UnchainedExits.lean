import Dataflow.Proofs.Analysis.FlowExits
import Dataflow.Proofs.Analysis.Run
import Dataflow.Proofs.Graph.EdgeOrder
import Dataflow.Proofs.Graph.Reachable

/-! The pass over the edges that leave scopes, where no scope that is left ends at the source of
another such edge. The chains of edges then have length one, so that an edge reads only kills that
the pass never widens: it copies once along every edge, in whatever order the edges come, and a
second pass finds nothing to do.
-/

namespace Dataflow

namespace Analysis

variable {E σ : Type} [Ord E] [Sink σ]

/-- No node where an edge leaves a scope is one where a scope ends that some edge leaves. -/
def Unchained (index : ElementIndex E) (edges : List (Edge E)) : Prop :=
  ∀ edge ∈ edges, ∀ ended ∈ index.exited edge,
    ∀ other ∈ edges, other.source = ended → other.exits = []

/-- The fact is killed at the source of an edge whenever a scope that the edge leaves ends it. -/
def Absorbed (index : ElementIndex E) (edges : List (Edge E)) (kills : Column) : Prop :=
  ∀ edge ∈ edges, ∀ ended ∈ index.exited edge, kills ended = true → kills edge.source = true

-----------------------------------------------------------------------------------------
-- One fact along edges that do not chain
-----------------------------------------------------------------------------------------

section Columns

variable {index : ElementIndex E} {edges : List (Edge E)} {kills : Column} {node : Node}

namespace Unchained

theorem of_perm (unchained : Unchained index edges) {others : List (Edge E)}
    (same : others.Perm edges)
    : Unchained index others := by
  intro edge listed ended member other alsoListed
  exact unchained edge (same.mem_iff.mp listed) ended member other (same.mem_iff.mp alsoListed)

/-- A chain has no second edge, for that edge would leave a scope where the first has led. -/
theorem length_eq_one (unchained : Unchained index edges) {length : Nat} {position : Nat → Nat}
    {edge : Nat → Edge E} (chain : ExitChain index edges kills node length position edge)
    : length = 1 := by
  by_contra more
  have longer : 1 < length := Nat.lt_of_le_of_ne chain.nonempty (Ne.symm more)
  have first : edge 0 ∈ edges := List.mem_of_getElem? (chain.listed 0 chain.nonempty)
  have second : edge 1 ∈ edges := List.mem_of_getElem? (chain.listed 1 longer)
  have leavesNone : (edge 1).exits = [] :=
    unchained (edge 0) first (edge 1).source (chain.linked 0 longer) (edge 1) second rfl
  obtain ⟨ended, member⟩ := chain.exists_exited longer
  simp [ElementIndex.exited, leavesNone] at member

/-- The pass kills the fact exactly where it was killed before, and where an edge leaves a scope
whose end killed it before.
-/
theorem foldl_widenColumn_iff (unchained : Unchained index edges)
    : edges.foldl (widenColumn index) kills node = true
      ↔ kills node = true
        ∨ ∃ edge ∈ edges, edge.source = node ∧ ∃ ended ∈ index.exited edge, kills ended = true := by
  rw [Analysis.foldl_widenColumn_iff]
  apply or_congr_right
  constructor
  · rintro ⟨length, position, edge, chain⟩
    obtain rfl := unchained.length_eq_one chain
    exact ⟨edge 0, List.mem_of_getElem? (chain.listed 0 chain.nonempty), chain.leaves, chain.killed⟩
  · rintro ⟨edge, listed, rfl, ended, member, killed⟩
    obtain ⟨position, found⟩ := List.mem_iff_getElem?.mp listed
    exact killedByChain_single found member killed

/-- The order of the edges makes no difference, since the pass depends on which edges there are. -/
theorem foldl_widenColumn_perm (unchained : Unchained index edges) {others : List (Edge E)}
    (same : others.Perm edges)
    : others.foldl (widenColumn index) kills = edges.foldl (widenColumn index) kills := by
  funext node
  apply Bool.eq_iff_iff.mpr
  rw [unchained.foldl_widenColumn_iff, (unchained.of_perm same).foldl_widenColumn_iff]
  simp only [same.mem_iff]

/-- After the pass no edge has anything to add: the kills where its scopes end are still the old
ones.
-/
theorem absorbed (unchained : Unchained index edges)
    : Absorbed index edges (edges.foldl (widenColumn index) kills) := by
  intro edge listed ended member killed
  rcases unchained.foldl_widenColumn_iff.mp killed with before | ⟨other, alsoListed, here, further⟩
  · exact unchained.foldl_widenColumn_iff.mpr
      (Or.inr ⟨edge, listed, rfl, ended, member, before⟩)
  · obtain ⟨_, exited, _⟩ := further
    simp [ElementIndex.exited, unchained edge listed ended member other alsoListed here] at exited

end Unchained

end Columns

-----------------------------------------------------------------------------------------
-- The pass over whole tables
-----------------------------------------------------------------------------------------

/-- An edge of which every fact has been absorbed leaves the tables and the sink alone. -/
theorem widenAt_of_absorbed {graph : GraphView E} (inRange : graph.InRange) (mask : Mask)
    {width : Nat} {state : Widening σ} (sized : state.kills.Sized graph.nodeCount width)
    (absorbed : ∀ bit, Absorbed graph.index graph.edges (factColumn state.kills bit))
    {edge : Edge E} (listed : edge ∈ graph.edges)
    : widenAt graph.index mask state edge = .ok state := by
  obtain ⟨held, found, length⟩ := sized.row (inRange.edges edge listed).1
  obtain ⟨gathered, gathers, gatheredLength, law⟩ :=
    gatherKills_simulates sized (inRange.exited_lt edge) length
  have same : gathered.1 = held := by
    apply Row.ext_testBit (gatheredLength.trans length.symm)
    intro bit
    rw [law, Bool.or_eq_left_iff_imp]
    intro gained
    obtain ⟨ended, member, killed⟩ := List.any_eq_true.mp gained
    rw [← Table.testBit_of_row found]
    exact absorbed bit edge listed ended member killed
  exact widenAt_eq_ok.mpr ⟨held, _, found, gathers, (if_pos same).symm⟩

/-- The pass stands still where every fact has been absorbed along every edge. -/
theorem addFlowExitKills_of_absorbed {analysis : Analysis E} (full : analysis.Sized)
    (inRange : analysis.graph.InRange)
    (absorbed : ∀ bit, Absorbed analysis.graph.index analysis.graph.edges
      (factColumn analysis.scopeEndKills bit))
    (mask : Mask) (sink : σ)
    : analysis.addFlowExitKills mask sink = .ok (analysis, sink) := by
  by_cases none : analysis.bits = 0
  · exact if_pos none
  · obtain ⟨_, folded, rfl⟩ := foldlM_succeeds
      (fun state : Widening σ => state = { kills := analysis.scopeEndKills, sink })
      analysis.graph.edges _ rfl
      (by
        rintro _ rfl edge listed
        exact ⟨_, widenAt_of_absorbed inRange mask full.scopeEndKills absorbed listed, rfl⟩)
    rw [addFlowExitKills, if_neg none]
    exact bind_eq_ok.mpr ⟨_, folded, rfl⟩

/-- A full table whose facts have each been taken through the edges is the one that the pass leaves,
whoever listens.
-/
theorem addFlowExitKills_eq_ok {analysis : Analysis E} (full : analysis.Sized)
    (inRange : analysis.graph.InRange) {final : Table}
    (sized : final.Sized analysis.graph.nodeCount analysis.width)
    (columns : ∀ bit, factColumn final bit
      = analysis.graph.edges.foldl (widenColumn analysis.graph.index)
          (factColumn analysis.scopeEndKills bit))
    (mask : Mask) (sink : σ)
    : ∃ heard,
        analysis.addFlowExitKills mask sink
          = .ok ({ analysis with scopeEndKills := final }, heard) := by
  obtain ⟨left, heard, passed, leftSized, leftColumns⟩ :=
    addFlowExitKills_simulates full inRange mask sink
  obtain rfl : left = final :=
    factColumn_injective leftSized sized fun bit => (leftColumns bit).trans (columns bit).symm
  exact ⟨heard, passed⟩

section Grown

variable [Std.TransOrd E] [Std.LawfulEqOrd E] [DecidableEq E]

/-- Over a grown graph whose exits do not chain, the pass ends with one table, whoever listens. In
it the scope-end kills of a node are the old ones of the node and of all nodes where a scope ends
that an edge from the node leaves. Every order of the edges is that of a graph that can be grown,
and over any such graph the pass ends with the same table. A second pass changes nothing and sends
nothing.
-/
theorem addFlowExitKills_unchained (steps : List (BuildStep E)) {analysis : Analysis E}
    (full : analysis.Sized) (graph : analysis.graph = (Cfg.grown steps).toView)
    (unchained : Unchained (Cfg.grown steps).toView.index (Cfg.grown steps).edges.toList)
    : ∃ final,
        (∀ (σ : Type) [Sink σ] (mask : Mask) (sink : σ),
          ∃ heard,
            analysis.addFlowExitKills mask sink
              = .ok ({ analysis with scopeEndKills := final }, heard))
        ∧ (∀ node < (Cfg.grown steps).nodeCount,
            ∃ row, final.row node = .ok row
              ∧ row.length = analysis.width
              ∧ ∀ bit,
                  row.testBit bit = true
                  ↔ analysis.scopeEndKills.testBit node bit = true
                    ∨ ∃ edge ∈ (Cfg.grown steps).edges.toList,
                        edge.source = node
                        ∧ ∃ ended ∈ (Cfg.grown steps).toView.index.exited edge,
                            analysis.scopeEndKills.testBit ended bit = true)
        ∧ (∀ edges, edges.Perm (Cfg.grown steps).edges.toList
          → (∃ reordered, (Cfg.grown steps).Relinked edges (Cfg.grown reordered))
            ∧ ∀ reordered, (Cfg.grown steps).Relinked edges (Cfg.grown reordered)
              → ∀ (σ : Type) [Sink σ] (mask : Mask) (sink : σ),
                  ∃ heard,
                    { analysis with graph := (Cfg.grown reordered).toView }.addFlowExitKills
                        mask sink
                      = .ok ({
                          analysis with
                          graph := (Cfg.grown reordered).toView,
                          scopeEndKills := final
                        }, heard))
        ∧ ∀ (σ : Type) [Sink σ] (mask : Mask) (sink : σ),
            { analysis with scopeEndKills := final }.addFlowExitKills mask sink
              = .ok ({ analysis with scopeEndKills := final }, sink) := by
  have inRange : analysis.graph.InRange := by
    rw [graph]
    exact (Cfg.coherent_grown steps).inRange
  obtain ⟨final, _, _, sized, columns⟩ :=
    addFlowExitKills_simulates full inRange .none Silent.silent
  refine ⟨final, fun σ _ mask sink => ?_, fun node inside => ?_, fun edges same => ⟨?_, ?_⟩,
    fun σ _ mask sink => ?_⟩
  · exact addFlowExitKills_eq_ok full inRange sized columns mask sink
  · have within : node < analysis.graph.nodeCount := by
      rw [graph]
      exact inside
    obtain ⟨row, found, length⟩ := sized.row within
    refine ⟨row, found, length, fun bit => ?_⟩
    have column := congrFun (columns bit) node
    rw [← Table.testBit_of_row found, show final.testBit node bit = _ from column, graph]
    exact unchained.foldl_widenColumn_iff
  · exact Cfg.exists_relinked steps fun edge listed =>
      (Cfg.coherent_grown steps).ends edge (same.mem_iff.mp listed)
  · intro reordered relinked σ _ mask sink
    -- The index does not see the edges, so the two passes differ in the order of the edges alone.
    have count : (Cfg.grown reordered).toView.nodeCount = analysis.graph.nodeCount := by
      rw [graph]
      exact relinked.nodeCount
    have index : (Cfg.grown reordered).toView.index = analysis.graph.index := by
      rw [graph]
      exact relinked.index
    refine addFlowExitKills_eq_ok (full.withGraph count) (Cfg.coherent_grown reordered).inRange
      (count ▸ sized) (fun bit => ?_) mask sink
    rw [columns, index, graph, show (Cfg.grown reordered).toView.edges = edges from relinked.edges]
    exact (unchained.foldl_widenColumn_perm same).symm
  · have fullAfter : { analysis with scopeEndKills := final }.Sized :=
      { full with scopeEndKills := sized }
    refine addFlowExitKills_of_absorbed fullAfter inRange (fun bit => ?_) mask sink
    rw [columns, graph]
    exact unchained.absorbed

end Grown

/-- Edges from nodes 0 and 3 leave scopes that end at nodes 1 and 2, element 8 at both of them. -/
def sideExits : List (BuildStep Nat) :=
  [
    .addNode (some 7),
    .addNode (some 8),
    .addNode none,
    .addEdgeLeaving 0 1 [8],
    .addEdge 1 2,
    .associate 8 1,
    .addEdgeLeaving 3 0 [7, 9],
    .addEdgeLeaving 0 3 [7]
  ]

/-- An analysis of 40 facts over these edges, with fact 5 killed at node 1 and fact 33 at node 2. -/
def sideExitKills : Analysis Nat :=
  {
    initial (Cfg.grown sideExits).toView .union 40 .forward with
    scopeEndKills :=
      ((Table.filled (Cfg.grown sideExits).nodeCount (wordsFor 40) 0).setRow 1 [32, 0]).setRow 2
        [0, 2]
  }

theorem addFlowExitKills_unchained_sideExits
    : Unchained (Cfg.grown sideExits).toView.index (Cfg.grown sideExits).edges.toList
      ∧ ∃ final heard row reordered,
          sideExitKills.addFlowExitKills .none Silent.silent
            = .ok ({ sideExitKills with scopeEndKills := final }, heard)
          ∧ final.row 0 = .ok row
          ∧ row.testBit 33 = true
          ∧ row.testBit 4 = false
          ∧ (Cfg.grown reordered).edges.toList = (Cfg.grown sideExits).edges.toList.reverse
          ∧ { sideExitKills with graph := (Cfg.grown reordered).toView }.addFlowExitKills .none
                Silent.silent
            = .ok ({
                sideExitKills with
                graph := (Cfg.grown reordered).toView,
                scopeEndKills := final
              }, heard) := by
  have full : sideExitKills.Sized :=
    {
      sized_initial _ _ 40 .forward with
      scopeEndKills := ((Table.sized_filled _ _ _).setRow _ _).setRow _ _
    }
  have unchained
      : Unchained (Cfg.grown sideExits).toView.index (Cfg.grown sideExits).edges.toList := by
    unfold Unchained
    decide +kernel
  obtain ⟨final, passes, rows, orders, _⟩ :=
    addFlowExitKills_unchained sideExits full rfl unchained
  obtain ⟨heard, passed⟩ := passes Silent .none Silent.silent
  obtain ⟨row, found, _, facts⟩ := rows 0 (by decide +kernel)
  obtain ⟨⟨reordered, relinked⟩, others⟩ := orders _ (List.reverse_perm _)
  obtain ⟨alsoHeard, alsoPassed⟩ := others reordered relinked Silent .none Silent.silent
  refine ⟨unchained, final, heard, row, reordered, passed, found, (facts 33).mpr (Or.inr ?_), ?_,
    relinked.edges, alsoPassed⟩
  · exact ⟨{ source := 0, target := 1, exits := [8] }, by decide +kernel, rfl, 2,
      by decide +kernel, by decide +kernel⟩
  · apply Bool.eq_false_iff.mpr
    intro killed
    exact absurd ((facts 4).mp killed) (by decide +kernel)

end Analysis

end Dataflow
