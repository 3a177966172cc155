import Dataflow.Proofs.Sample.Lines

/-! Graphs of shapes at every size. A chain, a ladder and nested loops can be drawn as long as there
are names for their nodes. Their nodes are numbered as they are added and carry their numbers, and
control reaches all of them. Each of the nested loops is left by one edge that leaves a scope, and
the scope is that of the node which its latch leads back to.
-/

namespace Dataflow.Sample

-----------------------------------------------------------------------------------------
-- How many links and loops a layout has
-----------------------------------------------------------------------------------------

namespace Layout

theorem length_links_inSequence {layout : Layout} {number : Nat}
    (each : ∀ before, (layout.links before).length = number) (count before : Nat)
    : ((layout.inSequence count).links before).length = count * number := by
  induction count generalizing before with
  | zero => exact (Nat.zero_mul number).symm
  | succ count ih =>
      simp only [inSequence, followedBy, List.length_append, each, ih]
      rw [Nat.succ_mul, Nat.add_comm]

theorem length_links_chain (length before : Nat)
    : ((chain length).links before).length = length := by
  rw [chain, length_links_inSequence (fun _ => rfl), Nat.mul_one]

theorem length_links_ladder (rungs before : Nat)
    : ((ladder rungs).links before).length = 4 * rungs :=
  (length_links_inSequence (fun _ => rfl) rungs before).trans (Nat.mul_comm rungs 4)

theorem length_links_nested (body levels before : Nat)
    : ((nested body levels).links before).length = levels * (body + 4) := by
  induction levels generalizing before with
  | zero => exact (Nat.zero_mul _).symm
  | succ levels ih =>
      simp only [nested, loop, closed, followedBy, single, List.length_append, List.length_cons,
        List.length_nil, length_links_chain, ih]
      rw [Nat.succ_mul]
      omega

theorem length_links_loopNest (depth body before : Nat)
    : ((loopNest depth body).links before).length = max depth 1 * (body + 4) + 1 := by
  simp only [loopNest, followedBy, List.length_append, length_links_nested]
  rfl

theorem loops_chain (length before : Nat) : (chain length).loops before = [] := by
  induction length generalizing before with
  | zero => rfl
  | succ length ih => exact ih (before + 1)

theorem length_loops_nested (body levels before : Nat)
    : ((nested body levels).loops before).length = levels := by
  induction levels generalizing before with
  | zero => rfl
  | succ levels ih =>
      simp only [nested, loop, closed, followedBy, single, loops_chain, List.length_append,
        List.length_cons, List.length_nil, ih]
      omega

theorem length_loops_loopNest (depth body before : Nat)
    : ((loopNest depth body).loops before).length = max depth 1 := by
  simp only [loopNest, followedBy, List.length_append, length_loops_nested]
  rfl

-----------------------------------------------------------------------------------------
-- Every node is entered
-----------------------------------------------------------------------------------------

/-- Each node has a link from a smaller one. -/
def Entered (layout : Layout) : Prop :=
  ∀ before node : Nat,
    before < node
    → node ≤ before + layout.size
    → ∃ source : Nat, source < node
      ∧ ∃ edge ∈ layout.links before, edge.source = source ∧ edge.target = node

theorem entered_diamond : diamond.Entered := by
  intro before node after within
  change node ≤ before + 3 at within
  have cases : node = before + 1 ∨ node = before + 2 ∨ node = before + 3 := by omega
  rcases cases with rfl | rfl | rfl
  · exact ⟨before, by omega, .plain before (before + 1), by simp [diamond], rfl, rfl⟩
  · exact ⟨before, by omega, .plain before (before + 2), by simp [diamond], rfl, rfl⟩
  · exact ⟨before + 1, by omega, .plain (before + 1) (before + 3), by simp [diamond], rfl, rfl⟩

theorem Entered.inSequence {layout : Layout} (entered : layout.Entered) (count : Nat)
    : (layout.inSequence count).Entered := by
  induction count with
  | zero =>
      intro before node after within
      exact absurd within (Nat.not_le.mpr after)
  | succ count ih =>
      intro before node after within
      rw [Layout.inSequence, size_followedBy] at within
      by_cases inFirst : node ≤ before + layout.size
      · obtain ⟨source, smaller, edge, listed, ends⟩ := entered before node after inFirst
        exact ⟨source, smaller, edge, List.mem_append_left _ listed, ends⟩
      · obtain ⟨source, smaller, edge, listed, ends⟩ :=
          ih (before + layout.size) node (by omega) (by omega)
        exact ⟨source, smaller, edge, List.mem_append_right _ listed, ends⟩

end Layout

-----------------------------------------------------------------------------------------
-- Graphs with numbered nodes
-----------------------------------------------------------------------------------------

/-- The graph has as many nodes and edges as given and starts at its first node. Every other node
carries its own number, this number occurs nowhere else, and control reaches all nodes.
-/
structure Regular (cfg : Cfg Node) (nodes edges : Nat) : Prop where
  nodeCount : cfg.nodeCount = nodes
  edgeCount : cfg.edgeCount = edges
  entry : cfg.entry = 0
  carries : ∀ node : Nat, 1 ≤ node → node < nodes → cfg.element? node = some node
  indexed : ∀ node : Nat, 1 ≤ node → node < nodes → cfg.toView.index.nodes node = [node]
  reached : ∀ node : Nat, node < nodes → cfg.Reachable cfg.entry node

section Drawn

variable {size : Nat} {links : List (Edge Node)} {cfg : Cfg Node}
  (drawn : Cfg.initial.GrowsBy size links cfg)

include drawn

theorem element?_eq_some_iff {node other : Nat} (positive : 1 ≤ node) (inside : other < size + 1)
    : cfg.element? other = some node ↔ other = node := by
  cases other with
  | zero =>
      have unnumbered : cfg.element? 0 = .none := by
        rw [Cfg.element?_eq, drawn.elements]
        rfl
      simp only [unnumbered, reduceCtorEq, false_iff]
      omega
  | succ other =>
      rw [drawn.element?_eq_some (Nat.le_add_left 1 other) (drawn.nodeCount_of_initial ▸ inside)]
      exact Option.some_inj

theorem index_nodes_eq (few : size + 1 ≤ 0x100000000) {node : Nat} (positive : 1 ≤ node)
    (inside : node < size + 1)
    : cfg.toView.index.nodes node = [node] := by
  have count := drawn.nodeCount_of_initial
  have none : cfg.associations.toList = [] := by rw [drawn.associations]; rfl
  have index : cfg.toView.index = .ofOccurrences cfg.occurrences := rfl
  rw [index, ElementIndex.nodes_ofOccurrences, Cfg.occurrences_of_few (count ▸ few), none,
    List.append_nil, Cfg.filter_carried, count]
  calc (List.range (size + 1)).filter (fun other => cfg.element? other = some node)
      = (List.range (size + 1)).filter (fun other => other = node) := by
        apply List.filter_congr
        intro other listed
        exact decide_eq_decide.mpr
          (element?_eq_some_iff drawn positive (List.mem_range.mp listed))
    _ = [node] := by rw [List.filter_eq, List.count_range, if_pos inside, List.replicate_one]

/-- Control reaches every node, if each but the entry has an edge from a smaller one. By strong
induction on the node.
-/
theorem reachable_of_entered
    (entered : ∀ node : Nat, 0 < node → node < size + 1
      → ∃ source : Nat, source < node ∧ cfg.HasEdge source node)
    {node : Nat} (inside : node < size + 1)
    : cfg.Reachable cfg.entry node := by
  induction node using Nat.strongRecOn with
  | ind node ih =>
      rcases Nat.eq_zero_or_pos node with rfl | positive
      · rw [drawn.entry]
        exact .refl
      · obtain ⟨source, smaller, edge⟩ := entered node positive inside
        exact (ih source smaller (smaller.trans inside)).tail edge

theorem regular_of_drawn {edgeCount : Nat} (few : size + 1 ≤ 0x100000000)
    (number : links.length = edgeCount)
    (reached : ∀ node : Nat, node < size + 1 → cfg.Reachable cfg.entry node)
    : Regular cfg (size + 1) edgeCount where
  nodeCount := drawn.nodeCount_of_initial
  edgeCount := by rw [← number, ← drawn.edges_of_initial]; rfl
  entry := drawn.entry
  carries node positive inside := (element?_eq_some_iff drawn positive inside).mpr rfl
  indexed node positive inside := index_nodes_eq drawn few positive inside
  reached := reached

end Drawn

-----------------------------------------------------------------------------------------
-- Shapes at every size
-----------------------------------------------------------------------------------------

namespace Shape

/-- Lines have regular graphs, and the walk lists their nodes from the last to the first. -/
theorem Draws.regular_of_linear {shape : Shape} {layout : Layout} (draws : shape.Draws layout)
    (line : layout.Linear) (few : layout.size + 1 ≤ 0x100000000)
    : ∃ cfg, shape.toCfg = .ok cfg
      ∧ Cfg.initial.GrowsBy layout.size (layout.links 0) cfg
      ∧ Regular cfg (layout.size + 1) (layout.links 0).length
      ∧ cfg.postOrder cfg.entry = .ok (List.range (layout.size + 1)).reverse := by
  obtain ⟨cfg, built, drawn⟩ := draws.toCfg few
  have entered : ∀ node : Nat, 0 < node → node < layout.size + 1
      → ∃ source : Nat, source < node ∧ cfg.HasEdge source node := by
    intro node positive inside
    refine ⟨node - 1, by omega, (line.hasEdge_iff drawn).mpr ⟨by omega, Or.inl (by omega)⟩⟩
  refine ⟨cfg, built, drawn, ?_, ?_⟩
  · exact regular_of_drawn drawn few rfl fun node => reachable_of_entered drawn entered
  · rw [line.postOrder_eq drawn, drawn.nodeCount_of_initial]

theorem ladder_regular {rungs : Nat} (few : 3 * rungs + 1 ≤ 0x100000000)
    : ∃ cfg, (ladder rungs).toCfg = .ok cfg ∧ Regular cfg (3 * rungs + 1) (4 * rungs) := by
  rw [← Layout.size_ladder] at few ⊢
  obtain ⟨cfg, built, drawn⟩ := (draws_ladder rungs).toCfg few
  have entered : ∀ node : Nat, 0 < node → node < (Layout.ladder rungs).size + 1
      → ∃ source : Nat, source < node ∧ cfg.HasEdge source node := by
    intro node positive inside
    obtain ⟨source, smaller, edge, listed, ends⟩ :=
      Layout.entered_diamond.inSequence rungs 0 node positive
        (Nat.zero_add _ ▸ Nat.le_of_lt_succ inside)
    exact ⟨source, smaller, edge, drawn.edges_of_initial.symm ▸ listed, ends⟩
  exact ⟨cfg, built, regular_of_drawn drawn few (Layout.length_links_ladder rungs 0)
    fun node => reachable_of_entered drawn entered⟩

/-- As long as there are at most `2 ^ 32` nodes, chains, ladders and nested loops of any size can be
drawn and have regular graphs with the expected numbers of nodes and edges. From the entry of a
chain or of nested loops, the walk lists all nodes from the last to the first. Nested loops have one
edge for each level that leaves a scope. It comes from a node whose only other edge is a plain one
that leads back, and the scope is just that of the node which this one leads to.
-/
theorem shapes_regular
    : (∀ length,
        length + 1 ≤ 0x100000000
        → ∃ cfg, (chain length).toCfg = .ok cfg
          ∧ Regular cfg (length + 1) length
          ∧ cfg.postOrder cfg.entry = .ok (List.range (length + 1)).reverse)
      ∧ (∀ rungs,
          3 * rungs + 1 ≤ 0x100000000
          → ∃ cfg, (ladder rungs).toCfg = .ok cfg
            ∧ Regular cfg (3 * rungs + 1) (4 * rungs))
      ∧ ∀ depth body,
          max depth 1 * (body + 3) + 2 ≤ 0x100000000
          → ∃ cfg, (loopNest depth body).toCfg = .ok cfg
            ∧ Regular cfg (max depth 1 * (body + 3) + 2) (max depth 1 * (body + 4) + 1)
            ∧ cfg.postOrder cfg.entry
              = .ok (List.range (max depth 1 * (body + 3) + 2)).reverse
            ∧ (cfg.edges.toList.filter fun edge => edge.exits ≠ []).length = max depth 1
            ∧ ∀ edge ∈ cfg.edges.toList,
                edge.exits ≠ []
                → ∃ head : Nat, head < edge.source
                  ∧ edge.exits = [head]
                  ∧ cfg.outgoing edge.source = .ok [.plain edge.source head, edge] := by
  refine ⟨fun length few => ?_, fun rungs few => ladder_regular few, fun depth body few => ?_⟩
  · obtain ⟨cfg, built, _, regular, order⟩ := (draws_chain length).regular_of_linear
      (Layout.linear_chain length) (by rwa [Layout.size_chain])
    rw [Layout.size_chain, Layout.length_links_chain] at regular
    rw [Layout.size_chain] at order
    exact ⟨cfg, built, regular, order⟩
  · have line := Layout.linear_loopNest depth body
    obtain ⟨cfg, built, drawn, regular, order⟩ := (draws_loopNest depth body).regular_of_linear line
      (by rwa [Layout.size_loopNest])
    rw [Layout.size_loopNest, Layout.length_links_loopNest] at regular
    rw [Layout.size_loopNest] at order
    refine ⟨cfg, built, regular, order, ?_, fun edge => line.exits_eq drawn⟩
    rw [drawn.edges_of_initial, line.leaving, List.length_map, Layout.length_loops_loopNest]

/-- A chain of three nodes, two diamonds, and a loop inside another. -/
theorem shapes_regular_small
    : (3 + 1 ≤ 0x100000000
        ∧ ∃ cfg, (chain 3).toCfg = .ok cfg
          ∧ cfg.edgeCount = 3
          ∧ cfg.postOrder cfg.entry = .ok [3, 2, 1, 0])
      ∧ (3 * 2 + 1 ≤ 0x100000000
        ∧ ∃ cfg, (ladder 2).toCfg = .ok cfg
          ∧ cfg.nodeCount = 7
          ∧ cfg.toView.index.nodes 5 = [5]
          ∧ cfg.Reachable cfg.entry 6)
      ∧ (max 2 1 * (1 + 3) + 2 ≤ 0x100000000
        ∧ ∃ cfg, (loopNest 2 1).toCfg = .ok cfg
          ∧ cfg.element? 9 = some 9
          ∧ cfg.postOrder cfg.entry = .ok [9, 8, 7, 6, 5, 4, 3, 2, 1, 0]
          ∧ (cfg.edges.toList.filter fun edge => edge.exits ≠ []).length = 2) := by
  have fewInChain : 3 + 1 ≤ 0x100000000 := by decide
  have fewInLadder : 3 * 2 + 1 ≤ 0x100000000 := by decide
  have fewInNest : max 2 1 * (1 + 3) + 2 ≤ 0x100000000 := by decide
  obtain ⟨chains, ladders, nests⟩ := shapes_regular
  obtain ⟨line, lineBuilt, lineRegular, lineOrder⟩ := chains 3 fewInChain
  obtain ⟨rungs, rungsBuilt, rungsRegular⟩ := ladders 2 fewInLadder
  obtain ⟨nest, nestBuilt, nestRegular, nestOrder, nestExits, _⟩ := nests 2 1 fewInNest
  exact ⟨⟨fewInChain, line, lineBuilt, lineRegular.edgeCount, lineOrder⟩,
    ⟨fewInLadder, rungs, rungsBuilt, rungsRegular.nodeCount,
      rungsRegular.indexed 5 (by decide) (by decide), rungsRegular.reached 6 (by decide)⟩,
    ⟨fewInNest, nest, nestBuilt, nestRegular.carries 9 (by decide) (by decide), nestOrder,
      nestExits⟩⟩

end Shape

end Dataflow.Sample
