import Dataflow.Proofs.Graph.Accepted
import Dataflow.Proofs.Graph.Reachable
import Mathlib.Data.Set.Function

/-! Growth of a graph where control does not reach. New edges that all start at unreached nodes make
no further node reachable and leave the edges from reached nodes as they were, so the depth-first
walk takes the same steps and the visiting order is the same list. Edges into a reached node may
have become more, but the new ones come from unreached nodes.
-/

namespace Dataflow

namespace PostOrder

/-- Marking a node keeps two arrays of marks alike wherever they were. -/
theorem getElem?_mark_congr {marks further : Array Bool} {node : Node}
    (same : further[node]? = marks[node]?) (target : Node)
    : (further.setIfInBounds target true)[node]? = (marks.setIfInBounds target true)[node]? := by
  by_cases here : target = node
  · have sizes : node < further.size ↔ node < marks.size := by
      rw [← Nat.not_le, ← Nat.not_le, ← Array.getElem?_eq_none_iff, ← Array.getElem?_eq_none_iff,
        same]
    simp only [here, Array.getElem?_setIfInBounds_self, sizes]
  · rw [Array.getElem?_setIfInBounds_ne here, Array.getElem?_setIfInBounds_ne here, same]

variable {successors others : Node → Except Fault (List Node)} {live : Set Node}

/-- The walk depends on nothing but the successors and the marks of the nodes that it comes to. By
induction on its recursion: the successors of a node in `live` are in `live` again.
-/
theorem walk_congr (same : live.EqOn successors others)
    (closed : ∀ node ∈ live, ∀ target, Leads successors node target → target ∈ live)
    {marks further : Array Bool} (marked : ∀ node ∈ live, further[node]? = marks[node]?)
    {stack : List Suspended} (within : ∀ frame ∈ stack, ∀ target ∈ frame.pending, target ∈ live)
    (finished : List Node)
    : walk others further stack finished = walk successors marks stack finished := by
  fun_induction walk successors marks stack finished generalizing further with
  | case1 marks finished => rw [walk]
  | case2 marks finished node below ih =>
      rw [walk]
      exact ih marked (List.forall_mem_cons.mp within).2
  | case3 marks finished node target pending below missing =>
      have member := (List.forall_mem_cons.mp (List.forall_mem_cons.mp within).1).1
      rw [walk_pending, marked target member, missing]
  | case4 marks finished node target pending below seen ih =>
      obtain ⟨top, lower⟩ := List.forall_mem_cons.mp within
      obtain ⟨member, later⟩ := List.forall_mem_cons.mp top
      rw [walk_pending, marked target member, seen]
      exact ih marked (List.forall_mem_cons.mpr ⟨later, lower⟩)
  | case5 marks finished node target pending below unseen fault failed =>
      have member := (List.forall_mem_cons.mp (List.forall_mem_cons.mp within).1).1
      simp only [walk_pending, marked target member, unseen, ← same member, failed]
  | case6 marks finished node target pending below unseen targets found ih =>
      obtain ⟨top, lower⟩ := List.forall_mem_cons.mp within
      obtain ⟨member, later⟩ := List.forall_mem_cons.mp top
      simp only [walk_pending, marked target member, unseen, ← same member, found]
      refine ih (fun other inside => ?_) (List.forall_mem_cons.mpr ⟨?_, ?_⟩)
      · exact getElem?_mark_congr (marked other inside) target
      · exact fun successor listed => closed target member successor ⟨targets, found, listed⟩
      · exact List.forall_mem_cons.mpr ⟨later, lower⟩

/-- The nodes listed from a start are the same for all successor functions that agree on the nodes
which the start leads to, and for all counts above those nodes.
-/
theorem nodesFrom_congr (same : live.EqOn successors others)
    (closed : ∀ node ∈ live, ∀ target, Leads successors node target → target ∈ live)
    {nodeCount further : Nat} (bounded : ∀ node ∈ live, node < nodeCount)
    (wider : nodeCount ≤ further) {start : Node} (member : start ∈ live)
    : nodesFrom others further start = nodesFrom successors nodeCount start := by
  have inside := bounded start member
  rw [nodesFrom, nodesFrom, if_pos inside, if_pos (inside.trans_le wider), ← same member]
  cases found : successors start with
  | error fault => rfl
  | ok targets =>
      refine walk_congr same closed (fun node within => ?_) ?_ []
      · have below := bounded node within
        apply getElem?_mark_congr
        rw [Array.getElem?_replicate, Array.getElem?_replicate, if_pos below,
          if_pos (below.trans_le wider)]
      · intro frame listed target waiting
        cases List.mem_singleton.mp listed
        exact closed start member target ⟨targets, found, waiting⟩

end PostOrder

-----------------------------------------------------------------------------------------
-- Graphs grown aside
-----------------------------------------------------------------------------------------

namespace Cfg

variable {E : Type}

/-- The nodes that control reaches from the entry. -/
def reached (cfg : Cfg E) : Set Node :=
  { node | cfg.Reachable cfg.entry node }

theorem mem_reached {cfg : Cfg E} {node : Node}
    : node ∈ cfg.reached ↔ cfg.Reachable cfg.entry node :=
  Iff.rfl

/-- The graph `next` has the entry of `cfg`, its edges, and after them only edges from nodes that
control does not reach in `cfg`.
-/
structure GrowsAside (cfg next : Cfg E) : Prop where
  coherent : cfg.Coherent
  grown : next.Coherent
  nodeCount : cfg.nodeCount ≤ next.nodeCount
  entry : next.entry = cfg.entry
  edges
    : ∃ more, next.edges.toList = cfg.edges.toList ++ more
        ∧ ∀ edge ∈ more, edge.source ∉ cfg.reached

/-- Steps that set no entry, and of which those that are accepted add edges from unreached nodes
only, grow a graph aside.
-/
theorem growsAside_append {steps more : List (BuildStep E)}
    (kept : ∀ step ∈ more, step.entry? = none)
    (dead : ∀ edge ∈ (BuildStep.accepted (grown steps).nodeCount more).filterMap BuildStep.edge?,
      edge.source ∉ (grown steps).reached)
    : (grown steps).GrowsAside (grown (steps ++ more)) := by
  have extended : (grown steps).Extends (BuildStep.accepted (grown steps).nodeCount more)
      (grown (steps ++ more)) := by
    have run := extends_foldl_after (grown steps) more
    rwa [grown, ← List.foldl_append] at run
  have noEntry : (BuildStep.accepted (grown steps).nodeCount more).filterMap BuildStep.entry?
      = [] := by
    refine List.filterMap_eq_nil_iff.mpr fun step listed => ?_
    exact kept step (BuildStep.mem_of_mem_accepted listed)
  refine ⟨coherent_grown steps, coherent_grown (steps ++ more), ?_, ?_, _, extended.edges, dead⟩
  · rw [extended.nodeCount]
    exact Nat.le_add_right _ _
  · rw [extended.entry, noEntry]
    rfl

namespace GrowsAside

variable {cfg next : Cfg E}

/-- No new edge leaves a reached node. -/
theorem filter_source_eq (aside : cfg.GrowsAside next) {node : Node} (member : node ∈ cfg.reached)
    : (next.edges.toList.filter fun edge => edge.source = node)
      = cfg.edges.toList.filter fun edge => edge.source = node := by
  obtain ⟨more, edges, dead⟩ := aside.edges
  have none : (more.filter fun edge => edge.source = node) = [] := by
    refine List.filter_eq_nil_iff.mpr fun edge listed => ?_
    simp only [decide_eq_true_eq]
    intro here
    exact dead edge listed (here ▸ member)
  rw [edges, List.filter_append, none, List.append_nil]

theorem hasEdge_iff (aside : cfg.GrowsAside next) {source : Node} (member : source ∈ cfg.reached)
    (target : Node)
    : next.HasEdge source target ↔ cfg.HasEdge source target := by
  have listed : ∀ graph : Cfg E, graph.HasEdge source target
      ↔ ∃ edge ∈ graph.edges.toList.filter (fun edge => edge.source = source),
          edge.target = target := by
    intro graph
    simp [HasEdge, and_assoc]
  rw [listed, listed, aside.filter_source_eq member]

/-- Control reaches the same nodes, by induction on the paths. -/
theorem reached_eq (aside : cfg.GrowsAside next) : next.reached = cfg.reached := by
  ext node
  rw [mem_reached, mem_reached, aside.entry]
  constructor
  · intro path
    induction path with
    | refl => exact .refl
    | tail _ edge ih => exact ih.tail ((aside.hasEdge_iff ih _).mp edge)
  · intro path
    induction path with
    | refl => exact .refl
    | tail before edge ih => exact ih.tail ((aside.hasEdge_iff before _).mpr edge)

theorem outgoing_eq (aside : cfg.GrowsAside next) {node : Node} (member : node ∈ cfg.reached)
    : next.outgoing node = cfg.outgoing node := by
  have inside := aside.coherent.reachable_lt member
  rw [aside.coherent.outgoing_eq inside, aside.grown.outgoing_eq (inside.trans_le aside.nodeCount),
    aside.filter_source_eq member]

/-- The visiting order stays as it is, since the walk comes to reached nodes only. -/
theorem postOrder_eq (aside : cfg.GrowsAside next)
    : next.postOrder next.entry = cfg.postOrder cfg.entry := by
  rw [postOrder, postOrder, aside.entry]
  refine PostOrder.nodesFrom_congr (fun node member => ?_) (fun node member target leads => ?_)
    (fun node member => aside.coherent.reachable_lt member) aside.nodeCount .refl
  · rw [successors, successors, aside.outgoing_eq member]
  · obtain ⟨targets, found, members⟩ :=
      aside.coherent.successors_eq (aside.coherent.reachable_lt member)
    exact member.tail ((members target).mp ((PostOrder.leads_iff found target).mp leads))

variable [Ord E]

theorem visited_eq (aside : cfg.GrowsAside next) : next.toView.visited = cfg.toView.visited := by
  simp only [GraphView.visited, toView, aside.postOrder_eq]

theorem neighbours_forward_eq (aside : cfg.GrowsAside next) {node : Node}
    (member : node ∈ cfg.reached)
    : next.toView.neighbours .forward node = cfg.toView.neighbours .forward node := by
  simp only [GraphView.neighbours, GraphView.targets, toView, aside.outgoing_eq member]

/-- Between reached nodes facts flow as before, in both directions. -/
theorem mem_neighbours_iff (aside : cfg.GrowsAside next) (direction : Direction)
    {source target : Node} (sourceReached : source ∈ cfg.reached)
    (targetReached : target ∈ cfg.reached)
    : target ∈ next.toView.neighbours direction source
      ↔ target ∈ cfg.toView.neighbours direction source := by
  cases direction with
  | forward => rw [aside.neighbours_forward_eq sourceReached]
  | backward =>
      have inside := aside.coherent.reachable_lt sourceReached
      rw [aside.coherent.mem_neighbours_backward inside,
        aside.grown.mem_neighbours_backward (inside.trans_le aside.nodeCount),
        aside.hasEdge_iff targetReached]

end GrowsAside

end Cfg

end Dataflow
