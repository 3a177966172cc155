import Dataflow.Proofs.Analysis.FlowExits
import Dataflow.Proofs.Analysis.LeastSolution
import Dataflow.Proofs.Graph.Reachable

/-! Kills on edges against kills at nodes. The end of a scope belongs to the edge that leaves it,
but the pass over such edges records it at the source of the edge, where it also stops facts that
would leave over other edges. Solving after the pass therefore finds no more than killing on the
edges themselves would, and the same where scope exits do not nest and the edges of a node leave
scopes that end the same facts.
-/

namespace Dataflow.Analysis

variable {E σ : Type} [Ord E] [Sink σ]

/-- Whether a fact ends on an edge: it is killed where a scope ends that the edge leaves. -/
def endsOn (analysis : Analysis E) (edge : Edge E) (bit : Nat) : Bool :=
  (analysis.graph.index.exited edge).any (factColumn analysis.scopeEndKills bit)

/-- A table of facts on entry that includes those of the analysis and passes on along every edge of
a reached node what leaves the node and does not end on the edge.
-/
structure EdgeSolution (cfg : Cfg E) (analysis : Analysis E) (table : Table) : Prop where
  sized : table.Sized analysis.graph.nodeCount analysis.width
  above : analysis.onEntry.Included table
  closed
    : ∀ edge ∈ cfg.edges.toList,
        cfg.Reachable cfg.entry edge.source
        → ∀ bit,
            ((table.testBit edge.source bit || analysis.gens.testBit edge.source bit)
                && !analysis.executionKills.testBit edge.source bit
                && !analysis.scopeEndKills.testBit edge.source bit
                && !analysis.endsOn edge bit) = true
            → table.testBit edge.target bit = true

/-- No node where a scope ends that some edge leaves is itself left by an edge that leaves a scope.
-/
def ExitsUnnested (graph : GraphView E) : Prop :=
  ∀ edge ∈ graph.edges, ∀ ended ∈ graph.index.exited edge, ∀ other ∈ graph.edges,
    other.source = ended → other.exits = []

/-- The same facts end on all edges that leave a node. -/
def ExitsAgree (analysis : Analysis E) : Prop :=
  ∀ first ∈ analysis.graph.edges, ∀ second ∈ analysis.graph.edges,
    first.source = second.source → ∀ bit, analysis.endsOn first bit = analysis.endsOn second bit

theorem endsOn_eq_true {analysis : Analysis E} {edge : Edge E} {bit : Nat}
    : analysis.endsOn edge bit = true
      ↔ ∃ ended ∈ analysis.graph.index.exited edge,
          analysis.scopeEndKills.testBit ended bit = true := by
  simp [endsOn, factColumn]

-----------------------------------------------------------------------------------------
-- The least solution on edges
-----------------------------------------------------------------------------------------

/-- The fact is on entry to a node at the start, or comes there over edges on which it does not end
from nodes that do not kill it.
-/
inductive CarriedOverEdges (cfg : Cfg E) (analysis : Analysis E) (bit : Nat) : Node → Prop
  | held {node : Node} (present : analysis.onEntry.testBit node bit = true)
    : CarriedOverEdges cfg analysis bit node
  | established (edge : Edge E) (listed : edge ∈ cfg.edges.toList)
    (reachable : cfg.Reachable cfg.entry edge.source)
    (here : analysis.gens.testBit edge.source bit = true)
    (kept : analysis.killed bit edge.source = false) (passes : analysis.endsOn edge bit = false)
    : CarriedOverEdges cfg analysis bit edge.target
  | further (edge : Edge E) (listed : edge ∈ cfg.edges.toList)
    (reachable : cfg.Reachable cfg.entry edge.source)
    (before : CarriedOverEdges cfg analysis bit edge.source)
    (kept : analysis.killed bit edge.source = false) (passes : analysis.endsOn edge bit = false)
    : CarriedOverEdges cfg analysis bit edge.target

section Edges

variable {cfg : Cfg E} {analysis : Analysis E}

/-- What leaves a node and passes an edge, with both kinds of kill taken together. -/
theorem passes_iff {table : Table} {edge : Edge E} {bit : Nat}
    : ((table.testBit edge.source bit || analysis.gens.testBit edge.source bit)
          && !analysis.executionKills.testBit edge.source bit
          && !analysis.scopeEndKills.testBit edge.source bit
          && !analysis.endsOn edge bit) = true
      ↔ (table.testBit edge.source bit = true ∨ analysis.gens.testBit edge.source bit = true)
        ∧ analysis.killed bit edge.source = false
        ∧ analysis.endsOn edge bit = false := by
  simp [killed, and_assoc]

theorem EdgeSolution.of_carried {table : Table} (solution : EdgeSolution cfg analysis table)
    {bit : Nat} {node : Node} (carried : CarriedOverEdges cfg analysis bit node)
    : table.testBit node bit = true := by
  induction carried with
  | held present => exact solution.above _ bit present
  | established edge listed reachable here kept passes =>
      exact solution.closed edge listed reachable bit (passes_iff.mpr ⟨.inr here, kept, passes⟩)
  | further edge listed reachable _ kept passes ih =>
      exact solution.closed edge listed reachable bit (passes_iff.mpr ⟨.inl ih, kept, passes⟩)

/-- There is a least solution on edges. Witness: the table of the facts that edges carry. -/
theorem exists_least_edgeSolution (coherent : cfg.Coherent) (graph : analysis.graph = cfg.toView)
    (full : analysis.Sized)
    : ∃ least, EdgeSolution cfg analysis least
      ∧ ∀ table, EdgeSolution cfg analysis table → least.Included table := by
  obtain ⟨least, sized, facts⟩ := Table.exists_testBit_iff analysis.graph.nodeCount analysis.width
    fun node bit => CarriedOverEdges cfg analysis bit node
  refine ⟨least, ⟨sized, ?_, ?_⟩, ?_⟩
  · intro node bit present
    exact (facts node bit).mpr ⟨full.onEntry.lt_of_testBit present, .held present⟩
  · intro edge listed reachable bit leaves
    obtain ⟨arrives, kept, passes⟩ := passes_iff.mp leaves
    have inside : edge.target < analysis.graph.nodeCount := by
      rw [graph]
      exact (coherent.ends edge listed).2
    rcases arrives with present | here
    · obtain ⟨⟨_, stored⟩, before⟩ := (facts edge.source bit).mp present
      exact (facts edge.target bit).mpr
        ⟨⟨inside, stored⟩, .further edge listed reachable before kept passes⟩
    · have stored := (full.gens.lt_of_testBit here).2
      exact (facts edge.target bit).mpr
        ⟨⟨inside, stored⟩, .established edge listed reachable here kept passes⟩
  · intro table solution node bit present
    exact solution.of_carried ((facts node bit).mp present).2

-----------------------------------------------------------------------------------------
-- Solutions at nodes and on edges
-----------------------------------------------------------------------------------------

/-- The kills that the pass leaves at each node. -/
def Widened (analysis : Analysis E) (kills : Table) : Prop :=
  ∀ node bit, kills.testBit node bit = true
    ↔ analysis.scopeEndKills.testBit node bit = true
      ∨ KilledByChain analysis.graph.index analysis.graph.edges
          (factColumn analysis.scopeEndKills bit) node

theorem Widened.of_endsOn {kills : Table} (widened : analysis.Widened kills) {edge : Edge E}
    (listed : edge ∈ analysis.graph.edges) {bit : Nat} (ends : analysis.endsOn edge bit = true)
    : kills.testBit edge.source bit = true := by
  obtain ⟨ended, member, present⟩ := endsOn_eq_true.mp ends
  obtain ⟨position, found⟩ := List.mem_iff_getElem?.mp listed
  exact (widened edge.source bit).mpr (Or.inr (killedByChain_single found member present))

/-- Where exits do not nest, a chain is a single edge: its second edge would leave a scope from
where the scope of the first ends.
-/
theorem Widened.endsOn {kills : Table} (widened : analysis.Widened kills)
    (unnested : ExitsUnnested analysis.graph) {node bit : Nat}
    (present : kills.testBit node bit = true)
    : analysis.scopeEndKills.testBit node bit = true
      ∨ ∃ edge ∈ analysis.graph.edges, edge.source = node ∧ analysis.endsOn edge bit = true := by
  refine ((widened node bit).mp present).imp_right ?_
  rintro ⟨length, position, edge, chain⟩
  have member : ∀ step < length, edge step ∈ analysis.graph.edges :=
    fun step inside => List.mem_of_getElem? (chain.listed step inside)
  refine ⟨edge 0, member 0 chain.nonempty, chain.leaves, endsOn_eq_true.mpr ?_⟩
  by_cases longer : 1 < length
  · obtain ⟨ended, exited⟩ := chain.exists_exited longer
    have noExits := unnested (edge 0) (member 0 chain.nonempty) _ (chain.linked 0 longer) (edge 1)
      (member 1 longer) rfl
    simp [ElementIndex.exited, noExits] at exited
  · have nonempty := chain.nonempty
    have killed := chain.killed
    rwa [show length - 1 = 0 by omega] at killed

/-- A solution on edges is one at nodes after the pass: a fact that leaves a node there does not end
on any of its edges.
-/
theorem EdgeSolution.solution (coherent : cfg.Coherent) (graph : analysis.graph = cfg.toView)
    (forward : analysis.direction = .forward) {kills : Table} (widened : analysis.Widened kills)
    {table : Table} (solution : EdgeSolution cfg analysis table)
    : ({ analysis with scopeEndKills := kills } : Analysis E).Solution table := by
  refine ⟨solution.sized, solution.above, ?_⟩
  intro source target feeds bit leaves
  simp only [graph, forward] at feeds
  obtain ⟨reachable, edge, listed, rfl, rfl⟩ := (coherent.feeds_forward_iff _ _).mp feeds
  simp only [Bool.and_eq_true, Bool.not_eq_true'] at leaves
  obtain ⟨⟨arrives, executed⟩, unkilled⟩ := leaves
  have member : edge ∈ analysis.graph.edges := by
    rw [graph]
    exact listed
  have kept : analysis.scopeEndKills.testBit edge.source bit = false := by
    by_contra present
    rw [(widened edge.source bit).mpr (Or.inl (eq_true_of_ne_false present))] at unkilled
    cases unkilled
  have passes : analysis.endsOn edge bit = false := by
    by_contra ends
    rw [widened.of_endsOn member (eq_true_of_ne_false ends)] at unkilled
    cases unkilled
  apply solution.closed edge listed reachable bit
  rw [arrives, executed, kept, passes]
  rfl

/-- Where exits do not nest and agree at each node, a solution at nodes after the pass is one on
edges: a fact that the pass kills at a node ends on all of its edges.
-/
theorem Solution.edgeSolution (coherent : cfg.Coherent) (graph : analysis.graph = cfg.toView)
    (forward : analysis.direction = .forward) {kills : Table} (widened : analysis.Widened kills)
    (unnested : ExitsUnnested analysis.graph) (agree : analysis.ExitsAgree) {table : Table}
    (solution : ({ analysis with scopeEndKills := kills } : Analysis E).Solution table)
    : EdgeSolution cfg analysis table := by
  refine ⟨solution.sized, solution.above, ?_⟩
  intro edge listed reachable bit leaves
  simp only [Bool.and_eq_true, Bool.not_eq_true'] at leaves
  obtain ⟨⟨⟨arrives, executed⟩, kept⟩, passes⟩ := leaves
  have member : edge ∈ analysis.graph.edges := by
    rw [graph]
    exact listed
  have unkilled : kills.testBit edge.source bit = false := by
    by_contra present
    have killed := widened.endsOn unnested (eq_true_of_ne_false present)
    rcases killed with held | ⟨other, found, same, ends⟩
    · rw [kept] at held
      cases held
    · rw [agree other found edge member same bit, passes] at ends
      cases ends
  have feeds : cfg.toView.Feeds .forward edge.source edge.target :=
    (coherent.feeds_forward_iff _ _).mpr ⟨reachable, edge, listed, rfl, rfl⟩
  apply solution.closed edge.source edge.target
  · simpa only [graph, forward] using feeds
  · simp only [arrives, executed, unkilled]
    rfl

end Edges

/-- Over any graph that can be grown, for facts that flow forward under a union: the pass over the
edges that leave scopes and then solving give a result within the least solution on edges, and this
solution itself if exits do not nest and agree at each node.
-/
theorem solve_included_edgeSolution [Std.TransOrd E] [Std.LawfulEqOrd E] [DecidableEq E] {τ : Type}
    [Sink τ] (steps : List (BuildStep E)) {analysis : Analysis E}
    (graph : analysis.graph = (Cfg.grown steps).toView) (full : analysis.Sized)
    (forward : analysis.direction = .forward) (union : analysis.merge.join = .union)
    (mask again : Mask) (sink : σ) (listener : τ)
    : ∃ least widened heard final tally reheard,
        EdgeSolution (Cfg.grown steps) analysis least
        ∧ (∀ table, EdgeSolution (Cfg.grown steps) analysis table → least.Included table)
        ∧ analysis.addFlowExitKills mask sink = .ok (widened, heard)
        ∧ widened.solve again listener = .ok ({ widened with onEntry := final }, tally, reheard)
        ∧ final.Included least
        ∧ (ExitsUnnested analysis.graph → analysis.ExitsAgree → final = least) := by
  have coherent := Cfg.coherent_grown steps
  have inRange : analysis.graph.InRange := graph ▸ coherent.inRange
  obtain ⟨least, leastSolution, below⟩ := exists_least_edgeSolution coherent graph full
  obtain ⟨kills, heard, passed, sized, columns⟩ :=
    addFlowExitKills_simulates full inRange mask sink
  have widened : analysis.Widened kills := by
    intro node bit
    rw [show kills.testBit node bit = _ from congrFun (columns bit) node]
    exact foldl_widenColumn_iff
  have widenedFull : ({ analysis with scopeEndKills := kills } : Analysis E).Sized :=
    { full with scopeEndKills := sized }
  obtain ⟨final, tally, reheard, rounds, solved, reaches⟩ :=
    solve_ends widenedFull inRange again listener
  have widenedUnion : ({ analysis with scopeEndKills := kills } : Analysis E).merge.join = .union :=
    union
  obtain ⟨solution, smallest⟩ := reaches.least widenedUnion
  have included : final.Included least :=
    smallest least (leastSolution.solution coherent graph forward widened)
  refine ⟨least, _, heard, final, tally, reheard, leastSolution, below, passed, solved, included,
    ?_⟩
  intro unnested agree
  have onEdges := solution.edgeSolution coherent graph forward widened unnested agree
  exact Table.Included.antisymm onEdges.sized leastSolution.sized included (below final onEdges)

/-- A scope that ends at node 3, which control reaches from node 1, and that is left early by the
edge from node 2.
-/
def earlyExitSteps : List (BuildStep Nat) :=
  [
    .addNode (some 1),
    .addNode none,
    .addNode (some 9),
    .addNode none,
    .addEdge 0 1,
    .addEdge 1 2,
    .addEdge 1 3,
    .addEdgeLeaving 2 4 [9],
    .addEdge 3 4
  ]

/-- Node 1 establishes facts 3 and 35, and fact 35 ends with the scope. -/
def earlyExit : Analysis Nat :=
  {
    initial (Cfg.grown earlyExitSteps).toView .union 40 .forward with
    gens := (Table.filled (Cfg.grown earlyExitSteps).nodeCount (wordsFor 40) 0).setRow 1 [8, 8],
    scopeEndKills :=
      (Table.filled (Cfg.grown earlyExitSteps).nodeCount (wordsFor 40) 0).setRow 3 [0, 8]
  }

theorem solve_included_edgeSolution_earlyExit
    : ∃ least widened heard final tally reheard,
        EdgeSolution (Cfg.grown earlyExitSteps) earlyExit least
        ∧ (∀ table, EdgeSolution (Cfg.grown earlyExitSteps) earlyExit table
          → least.Included table)
        ∧ earlyExit.addFlowExitKills .none Silent.silent = .ok (widened, heard)
        ∧ widened.solve .none Silent.silent
          = .ok ({ widened with onEntry := final }, tally, reheard)
        ∧ final = least := by
  have full : earlyExit.Sized :=
    {
      sized_initial _ _ 40 .forward with
      gens := (Table.sized_filled _ _ _).setRow _ _,
      scopeEndKills := (Table.sized_filled _ _ _).setRow _ _
    }
  have unnested : ExitsUnnested earlyExit.graph := by
    unfold ExitsUnnested
    decide +kernel
  have agree : earlyExit.ExitsAgree := by
    -- Edges with one source leave the same scopes.
    have exits : ∀ first ∈ earlyExit.graph.edges, ∀ second ∈ earlyExit.graph.edges,
        first.source = second.source → first.exits = second.exits := by
      decide +kernel
    intro first listed second alsoListed same bit
    rw [endsOn, endsOn, ElementIndex.exited, ElementIndex.exited,
      exits first listed second alsoListed same]
  obtain ⟨least, widened, heard, final, tally, reheard, solution, below, passed, solved, _,
      equal⟩ :=
    solve_included_edgeSolution earlyExitSteps rfl full rfl rfl .none .none Silent.silent
      Silent.silent
  exact ⟨least, widened, heard, final, tally, reheard, solution, below, passed, solved,
    equal unnested agree⟩

end Dataflow.Analysis
