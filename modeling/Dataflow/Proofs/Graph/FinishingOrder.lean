import Dataflow.Proofs.Graph.VisitingOrder

/-! Edges run backwards in the order in which the depth-first walk finishes nodes, except on cycles.
The suspended nodes form a path, so the successors of a node that is being finished are either
finished already or lead on to the node along the stack. Without cycles the targets of all edges
come before their sources.
-/

namespace Dataflow

namespace PostOrder

/-- Each suspended node leads to all those above it, and a successor of a finished node was finished
before it or leads to it again. `finished` has the latest node first.
-/
structure Retracing (successors : Node → Except Fault (List Node)) (stack : List Suspended)
    (finished : List Node)
    : Prop where
  path
    : stack.Pairwise fun upper lower =>
        Relation.TransGen (Leads successors) lower.node upper.node
  backwards
    : ∀ later node earlier,
        finished = later ++ node :: earlier
        → ∀ target, Leads successors node target
        → target ∈ earlier ∨ Relation.TransGen (Leads successors) target node

namespace Retracing

variable {successors : Node → Except Fault (List Node)} {nodeCount : Nat} {start : Node}
  {marks : Array Bool} {finished : List Node} {below : List Suspended} {node target : Node}
  {rest : List Node}

/-- The successors of a node with nothing pending are marked. Those on the stack lead to the node,
and the others are finished.
-/
theorem finish (retracing : Retracing successors (⟨node, []⟩ :: below) finished)
    (walking : Walking successors nodeCount start marks (⟨node, []⟩ :: below) finished)
    : Retracing successors below (node :: finished) where
  path := (List.pairwise_cons.mp retracing.path).2
  backwards := by
    intro later source earlier split successor leads
    cases later with
    | nil =>
        cases split
        have marked := (walking.pending _ List.mem_cons_self successor leads).resolve_right
          List.not_mem_nil
        rcases (walking.marked successor).mp marked with before | ⟨frame, suspended, rfl⟩
        · exact Or.inl before
        · right
          rcases List.mem_cons.mp suspended with rfl | lower
          · exact .single leads
          · exact (List.pairwise_cons.mp retracing.path).1 frame lower
    | cons last later =>
        cases split
        exact retracing.backwards later source earlier rfl successor leads

theorem skip (retracing : Retracing successors (⟨node, target :: rest⟩ :: below) finished)
    : Retracing successors (⟨node, rest⟩ :: below) finished where
  path := by
    obtain ⟨top, lower⟩ := List.pairwise_cons.mp retracing.path
    exact List.pairwise_cons.mpr ⟨top, lower⟩
  backwards := retracing.backwards

/-- A node that the walk comes to is reached from all nodes suspended below it. -/
theorem descend (retracing : Retracing successors (⟨node, target :: rest⟩ :: below) finished)
    (leads : Leads successors node target) (targets : List Node)
    : Retracing successors (⟨target, targets⟩ :: ⟨node, rest⟩ :: below) finished where
  path := by
    refine List.pairwise_cons.mpr ⟨?_, retracing.skip.path⟩
    intro frame suspended
    rcases List.mem_cons.mp suspended with rfl | lower
    · exact .single leads
    · exact ((List.pairwise_cons.mp retracing.path).1 frame lower).tail leads
  backwards := retracing.backwards

/-- A walk that gives a result has retraced its edges, by induction on its recursion. -/
theorem result {stack : List Suspended} {order : List Node}
    (retracing : Retracing successors stack finished)
    (walking : Walking successors nodeCount start marks stack finished)
    (walked : walk successors marks stack finished = .ok order)
    : Retracing successors [] order.reverse := by
  fun_induction walk successors marks stack finished with
  | case1 marks finished =>
      cases walked
      rwa [List.reverse_reverse]
  | case2 marks finished node below ih =>
      exact ih (retracing.finish walking) walking.finish walked
  | case3 marks finished node target rest below missing => cases walked
  | case4 marks finished node target rest below seen ih =>
      exact ih retracing.skip (walking.skip seen) walked
  | case5 marks finished node target rest below unseen fault failed => cases walked
  | case6 marks finished node target rest below unseen targets found ih =>
      have inside : target < marks.size := (Array.getElem?_eq_some_iff.mp unseen).1
      have leads := walking.followed _ List.mem_cons_self target List.mem_cons_self
      exact ih (retracing.descend leads targets) (walking.descend inside found) walked

/-- Of distinct nodes in their finishing order, a successor of a node comes before it or leads to it
again.
-/
theorem idxOf_lt_or_leads {order : List Node} (retracing : Retracing successors [] order.reverse)
    (distinct : order.Nodup) (listed : node ∈ order) (leads : Leads successors node target)
    : order.idxOf target < order.idxOf node
      ∨ Relation.TransGen (Leads successors) target node := by
  obtain ⟨earlier, later, rfl⟩ := List.append_of_mem listed
  have split : (earlier ++ node :: later).reverse = later.reverse ++ node :: earlier.reverse := by
    simp
  refine (retracing.backwards _ _ _ split target leads).imp_left fun before => ?_
  have first : target ∈ earlier := List.mem_reverse.mp before
  have absent : node ∉ earlier := fun twice =>
    (List.nodup_append.mp distinct).2.2 node twice node List.mem_cons_self rfl
  rw [List.idxOf_append_of_mem first, List.idxOf_append_of_notMem absent]
  exact Nat.lt_add_right _ (List.idxOf_lt_length_iff.mpr first)

end Retracing

/-- The walk from a start within the graph retraces its edges. -/
theorem retracing_nodesFrom {successors : Node → Except Fault (List Node)} {nodeCount : Nat}
    {start : Node} (inside : start < nodeCount) {order : List Node}
    (listed : nodesFrom successors nodeCount start = .ok order)
    : Retracing successors [] order.reverse := by
  rw [nodesFrom, if_pos inside] at listed
  obtain ⟨targets, found, walked⟩ := bind_eq_ok.mp listed
  have initially : Retracing successors [⟨start, targets⟩] [] := {
    path := List.pairwise_singleton _ _
    backwards := fun later node earlier split => by simp at split
  }
  exact initially.result (.initial inside found) walked

end PostOrder

namespace Cfg

variable {E : Type}

/-- No cycle of edges passes through a node that control reaches from `start`. -/
def AcyclicFrom (cfg : Cfg E) (start : Node) : Prop :=
  ∀ node, cfg.Reachable start node → ¬Relation.TransGen cfg.HasEdge node node

/-- The nodes of a list are distinct, and with each of them the targets of its edges are listed, at
earlier positions.
-/
structure ReverseTopological (cfg : Cfg E) (order : List Node) : Prop where
  distinct : order.Nodup
  earlier
    : ∀ source target,
        cfg.HasEdge source target
        → source ∈ order
        → target ∈ order ∧ order.idxOf target < order.idxOf source

theorem ReverseTopological.not_hasEdge_self {cfg : Cfg E} {order : List Node}
    (topological : cfg.ReverseTopological order) {node : Node} (listed : node ∈ order)
    : ¬cfg.HasEdge node node :=
  fun edge => Nat.lt_irrefl _ (topological.earlier node node edge listed).2

theorem ReverseTopological.pairwise {cfg : Cfg E} {order : List Node}
    (topological : cfg.ReverseTopological order)
    : order.Pairwise fun earlier later => ¬cfg.HasEdge earlier later := by
  apply List.pairwise_iff_getElem.mpr
  intro first second inFirst inSecond ascending edge
  have lower := (topological.earlier _ _ edge (List.getElem_mem inFirst)).2
  rw [topological.distinct.idxOf_getElem, topological.distinct.idxOf_getElem] at lower
  exact Nat.lt_asymm ascending lower

/-- An edge from a listed node leads to a listed node, which comes before it unless the edge is on a
cycle.
-/
theorem Coherent.edge_backwards {cfg : Cfg E} (coherent : cfg.Coherent) {start : Node}
    (inside : start < cfg.nodeCount) {order : List Node} (found : cfg.postOrder start = .ok order)
    (members : ∀ node, node ∈ order ↔ cfg.Reachable start node) {source target : Node}
    (edge : cfg.HasEdge source target) (listed : source ∈ order)
    : target ∈ order
      ∧ (order.idxOf target < order.idxOf source
        ∨ Relation.TransGen cfg.HasEdge target source) := by
  refine ⟨(members target).mpr (((members source).mp listed).tail edge), ?_⟩
  have retracing := PostOrder.retracing_nodesFrom inside found
  have distinct := (PostOrder.nodup_nodesFrom inside found).1
  rw [← coherent.leads_eq] at edge ⊢
  exact retracing.idxOf_lt_or_leads distinct listed edge

/-- Where no cycle can be reached the walk lists every edge's target before its source. -/
theorem Coherent.reverseTopological {cfg : Cfg E} (coherent : cfg.Coherent) {start : Node}
    (inside : start < cfg.nodeCount) {order : List Node} (found : cfg.postOrder start = .ok order)
    (members : ∀ node, node ∈ order ↔ cfg.Reachable start node) (acyclic : cfg.AcyclicFrom start)
    : cfg.ReverseTopological order where
  distinct := (PostOrder.nodup_nodesFrom inside found).1
  earlier := by
    intro source target edge listed
    obtain ⟨reached, before | around⟩ := coherent.edge_backwards inside found members edge listed
    · exact ⟨reached, before⟩
    · exact absurd (around.tail edge) (acyclic target ((members target).mp reached))

/-- Over any graph that can be grown and from any of its nodes, the walk lists distinct nodes, every
edge from a listed node leads to a listed node, and that comes strictly earlier or a path of edges
leads on from it to the source of the edge. From a start that reaches no cycle the walk gives a
reverse topological order.
-/
theorem postOrder_runs_backwards (steps : List (BuildStep E)) {start : Node}
    (inside : start < (grown steps).nodeCount)
    : ∃ order, (grown steps).postOrder start = .ok order
      ∧ order.Nodup
      ∧ (∀ source target,
          (grown steps).HasEdge source target
          → source ∈ order
          → target ∈ order
            ∧ (order.idxOf target < order.idxOf source
              ∨ Relation.TransGen (grown steps).HasEdge target source))
      ∧ ((grown steps).AcyclicFrom start → (grown steps).ReverseTopological order) := by
  have coherent := coherent_grown steps
  obtain ⟨order, found, members⟩ := coherent.mem_postOrder_iff inside
  refine ⟨order, found, (PostOrder.nodup_nodesFrom inside found).1, ?_,
    coherent.reverseTopological inside found members⟩
  exact fun source target => coherent.edge_backwards inside found members

/-- Edges that lead from smaller to larger numbers close no cycle, and it is enough that they do so
below a limit that they do not cross.
-/
theorem acyclicFrom_of_ascending {cfg : Cfg E} (limit : Nat)
    (ascending : ∀ edge ∈ cfg.edges.toList,
      edge.source < limit → edge.source < edge.target ∧ edge.target < limit)
    {start : Node} (inside : start < limit)
    : cfg.AcyclicFrom start := by
  have upward : ∀ {source target : Node}, source < limit
      → Relation.TransGen cfg.HasEdge source target → source < target ∧ target < limit := by
    intro source target low path
    induction path with
    | single edge =>
        obtain ⟨edge, listed, rfl, rfl⟩ := edge
        exact ascending edge listed low
    | tail _ edge ih =>
        obtain ⟨edge, listed, rfl, rfl⟩ := edge
        obtain ⟨higher, within⟩ := ascending edge listed ih.2
        exact ⟨Nat.lt_trans ih.1 higher, within⟩
  intro node reached around
  have low : node < limit := by
    rcases Relation.reflTransGen_iff_eq_or_transGen.mp reached with same | path
    · exact same ▸ inside
    · exact (upward inside path).2
  exact Nat.lt_irrefl node (upward low around).1

/-- Two branches from the entry that join again, and beside them a node on a cycle of its own that
control does not reach.
-/
def diamondSteps : List (BuildStep Nat) :=
  [
    .addNode (some 1),
    .addNode (some 2),
    .addNode (some 3),
    .addNode (some 4),
    .addEdge 0 1,
    .addEdge 0 2,
    .addEdge 1 3,
    .addEdge 2 3,
    .addEdge 4 4,
    .addEdge 4 2
  ]

theorem diamond_acyclic : (grown diamondSteps).AcyclicFrom (grown diamondSteps).entry :=
  acyclicFrom_of_ascending 4 (by decide +kernel) (by decide +kernel)

/-- The edge that closes the cycle leads to a later node, and so on to its own source again. In the
diamond no edge does.
-/
theorem postOrder_runs_backwards_cyclic_diamond
    : 3 < (grown cyclicSteps).nodeCount
      ∧ (grown cyclicSteps).postOrder 3 = .ok [2, 1, 0, 3]
      ∧ (grown cyclicSteps).HasEdge 2 0
      ∧ Relation.TransGen (grown cyclicSteps).HasEdge 0 2
      ∧ 0 < (grown diamondSteps).nodeCount
      ∧ (grown diamondSteps).AcyclicFrom 0
      ∧ ∃ order, (grown diamondSteps).postOrder 0 = .ok order
        ∧ (grown diamondSteps).ReverseTopological order := by
  have inCycle : 3 < (grown cyclicSteps).nodeCount := by decide +kernel
  have inDiamond : 0 < (grown diamondSteps).nodeCount := by decide +kernel
  have closing : (grown cyclicSteps).HasEdge 2 0 := by decide +kernel
  obtain ⟨order, found, _, backwards, _⟩ := postOrder_runs_backwards cyclicSteps inCycle
  rw [postOrder_cyclic.2] at found
  cases found
  have around := (backwards 2 0 closing (by decide)).2.resolve_left (by decide)
  obtain ⟨sorted, listed, _, _, topological⟩ := postOrder_runs_backwards diamondSteps inDiamond
  exact ⟨inCycle, postOrder_cyclic.2, closing, around, inDiamond, diamond_acyclic, sorted, listed,
    topological diamond_acyclic⟩

end Cfg

end Dataflow
