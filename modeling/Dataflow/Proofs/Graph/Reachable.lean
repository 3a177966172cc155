import Dataflow.Proofs.Graph.Flow
import Dataflow.Proofs.Graph.History

/-! The depth-first walk finishes exactly the nodes that it can reach. Every marked node is either
finished or suspended on the stack, and a successor that is not yet marked is still pending at a
suspended node; when the stack is empty the finished nodes are closed under successors.
-/

namespace Dataflow

namespace PostOrder

/-- One step of the walk at a pending successor. -/
theorem walk_pending (successors : Node → Except Fault (List Node)) (marks : Array Bool)
    (node target : Node) (pending : List Node) (below : List Suspended) (finished : List Node)
    : walk successors marks (⟨node, target :: pending⟩ :: below) finished
      = match marks[target]? with
        | none => .error .indexOutOfRange
        | some true => walk successors marks (⟨node, pending⟩ :: below) finished
        | some false =>
            match successors target with
            | .error fault => .error fault
            | .ok targets =>
                walk successors (marks.setIfInBounds target true)
                  (⟨target, targets⟩ :: ⟨node, pending⟩ :: below) finished := by
  rw [walk]
  split
  case h_1 missing => rw [missing]
  case h_2 seen => rw [seen]
  case h_3 unseen =>
    rewrite [unseen]
    rfl

/-- The walk follows an edge from `source` to `target`. -/
def Leads (successors : Node → Except Fault (List Node)) (source target : Node) : Prop :=
  ∃ targets, successors source = .ok targets ∧ target ∈ targets

/-- Every node has successors, all of them among the first `nodeCount` nodes. -/
def Total (successors : Node → Except Fault (List Node)) (nodeCount : Nat) : Prop :=
  ∀ node < nodeCount,
    ∃ targets, successors node = .ok targets ∧ ∀ target ∈ targets, target < nodeCount

/-- The state of a walk from `start`: which nodes are marked, what is known of the successors of a
suspended node, and that the successors of a finished node are all marked.
-/
structure Walking (successors : Node → Except Fault (List Node)) (nodeCount : Nat) (start : Node)
    (marks : Array Bool) (stack : List Suspended) (finished : List Node)
    : Prop where
  size : marks.size = nodeCount
  marked
    : ∀ node : Node,
        marks[node]? = some true ↔ node ∈ finished ∨ ∃ frame ∈ stack, frame.node = node
  begun : marks[start]? = some true
  reached
    : ∀ node : Node,
        marks[node]? = some true → Relation.ReflTransGen (Leads successors) start node
  pending
    : ∀ frame ∈ stack, ∀ target, Leads successors frame.node target
        → marks[target]? = some true ∨ target ∈ frame.pending
  followed : ∀ frame ∈ stack, ∀ target ∈ frame.pending, Leads successors frame.node target
  closed
    : ∀ node ∈ finished, ∀ target, Leads successors node target → marks[target]? = some true

theorem leads_iff {successors : Node → Except Fault (List Node)} {node : Node}
    {targets : List Node} (found : successors node = .ok targets) (target : Node)
    : Leads successors node target ↔ target ∈ targets := by
  constructor
  · rintro ⟨others, same, listed⟩
    rw [found] at same
    cases same
    exact listed
  · exact fun listed => ⟨targets, found, listed⟩

theorem mark_iff {marks : Array Bool} {target : Node} (inside : target < marks.size) (node : Node)
    : (marks.setIfInBounds target true)[node]? = some true
      ↔ node = target ∨ marks[node]? = some true := by
  by_cases here : node = target
  · simp [here, inside]
  · rw [Array.getElem?_setIfInBounds_ne (Ne.symm here)]
    simp [here]

namespace Walking

variable {successors : Node → Except Fault (List Node)} {nodeCount : Nat} {start : Node}
  {marks : Array Bool} {finished : List Node} {below : List Suspended} {node target : Node}
  {rest : List Node}

/-- A walk begins with its start marked and suspended and nothing finished. -/
theorem initial (inside : start < nodeCount) {targets : List Node}
    (found : successors start = .ok targets)
    : Walking successors nodeCount start
        ((Array.replicate nodeCount false).setIfInBounds start true) [⟨start, targets⟩] [] := by
  have stored : start < (Array.replicate nodeCount false).size := by simpa using inside
  have marked : ∀ node : Node,
      ((Array.replicate nodeCount false).setIfInBounds start true)[node]? = some true
        ↔ node = start := by
    intro node
    rw [mark_iff stored]
    simp [Array.getElem?_replicate]
  exact {
    size := by simp
    marked := by
      intro node
      rw [marked node]
      simp [eq_comm]
    begun := (marked start).mpr rfl
    reached := by
      intro node begun
      rw [(marked node).mp begun]
    pending := by
      intro frame listed target leads
      cases List.mem_singleton.mp listed
      exact Or.inr ((leads_iff found target).mp leads)
    followed := by
      intro frame listed target waiting
      cases List.mem_singleton.mp listed
      exact (leads_iff found target).mpr waiting
    closed := by simp
  }

/-- Finishing a node whose successors have all been followed. -/
theorem finish
    (walking : Walking successors nodeCount start marks (⟨node, []⟩ :: below) finished)
    : Walking successors nodeCount start marks below (node :: finished) where
  size := walking.size
  marked := by
    intro other
    rw [walking.marked other, List.exists_mem_cons_iff, List.mem_cons, eq_comm (a := node)]
    tauto
  begun := walking.begun
  reached := walking.reached
  pending := fun frame listed => walking.pending frame (List.mem_cons_of_mem _ listed)
  followed := fun frame listed => walking.followed frame (List.mem_cons_of_mem _ listed)
  closed := by
    intro other listed successor leads
    rcases List.mem_cons.mp listed with rfl | earlier
    · exact (walking.pending _ List.mem_cons_self successor leads).resolve_right List.not_mem_nil
    · exact walking.closed other earlier successor leads

/-- A pending successor is a node of the graph, for its source is one. -/
theorem pending_lt (total : Total successors nodeCount)
    (walking : Walking successors nodeCount start marks (⟨node, target :: rest⟩ :: below) finished)
    : target < marks.size := by
  have marked : marks[node]? = some true :=
    (walking.marked node).mpr (Or.inr ⟨_, List.mem_cons_self, rfl⟩)
  obtain ⟨inside, _⟩ := Array.getElem?_eq_some_iff.mp marked
  rw [walking.size] at inside ⊢
  obtain ⟨targets, found, bounded⟩ := total node inside
  have leads := walking.followed _ List.mem_cons_self target List.mem_cons_self
  exact bounded target ((leads_iff found target).mp leads)

/-- Passing over a successor that is marked. -/
theorem skip
    (walking : Walking successors nodeCount start marks (⟨node, target :: rest⟩ :: below) finished)
    (seen : marks[target]? = some true)
    : Walking successors nodeCount start marks (⟨node, rest⟩ :: below) finished where
  size := walking.size
  marked := by
    intro other
    rw [walking.marked other]
    simp only [List.exists_mem_cons_iff]
  begun := walking.begun
  reached := walking.reached
  pending := by
    intro frame listed successor leads
    rcases List.mem_cons.mp listed with rfl | lower
    · rcases walking.pending _ List.mem_cons_self successor leads with marked | waiting
      · exact Or.inl marked
      · rcases List.mem_cons.mp waiting with rfl | later
        · exact Or.inl seen
        · exact Or.inr later
    · exact walking.pending frame (List.mem_cons_of_mem _ lower) successor leads
  followed := by
    intro frame listed successor waiting
    rcases List.mem_cons.mp listed with rfl | lower
    · exact walking.followed _ List.mem_cons_self successor (List.mem_cons_of_mem _ waiting)
    · exact walking.followed frame (List.mem_cons_of_mem _ lower) successor waiting
  closed := walking.closed

/-- Suspending a node to visit a successor that is not marked yet. -/
theorem descend
    (walking : Walking successors nodeCount start marks (⟨node, target :: rest⟩ :: below) finished)
    (inside : target < marks.size) {targets : List Node} (found : successors target = .ok targets)
    : Walking successors nodeCount start (marks.setIfInBounds target true)
        (⟨target, targets⟩ :: ⟨node, rest⟩ :: below) finished where
  size := by rw [Array.size_setIfInBounds, walking.size]
  marked := by
    intro other
    rw [mark_iff inside, walking.marked other]
    simp only [List.exists_mem_cons_iff]
    tauto
  begun := (mark_iff inside start).mpr (Or.inr walking.begun)
  reached := by
    intro other marked
    rcases (mark_iff inside other).mp marked with rfl | before
    · have reachedNode := walking.reached node
        ((walking.marked node).mpr (Or.inr ⟨_, List.mem_cons_self, rfl⟩))
      exact reachedNode.tail (walking.followed _ List.mem_cons_self _ List.mem_cons_self)
    · exact walking.reached other before
  pending := by
    intro frame listed successor leads
    rcases List.mem_cons.mp listed with rfl | lower
    · exact Or.inr ((leads_iff found successor).mp leads)
    · rcases List.mem_cons.mp lower with rfl | lowest
      · rcases walking.pending _ List.mem_cons_self successor leads with marked | waiting
        · exact Or.inl ((mark_iff inside successor).mpr (Or.inr marked))
        · rcases List.mem_cons.mp waiting with rfl | later
          · exact Or.inl ((mark_iff inside _).mpr (Or.inl rfl))
          · exact Or.inr later
      · rcases walking.pending frame (List.mem_cons_of_mem _ lowest) successor leads with
          marked | waiting
        · exact Or.inl ((mark_iff inside successor).mpr (Or.inr marked))
        · exact Or.inr waiting
  followed := by
    intro frame listed successor waiting
    rcases List.mem_cons.mp listed with rfl | lower
    · exact (leads_iff found successor).mpr waiting
    · rcases List.mem_cons.mp lower with rfl | lowest
      · exact walking.followed _ List.mem_cons_self successor (List.mem_cons_of_mem _ waiting)
      · exact walking.followed frame (List.mem_cons_of_mem _ lowest) successor waiting
  closed := by
    intro other listed successor leads
    exact (mark_iff inside successor).mpr (Or.inr (walking.closed other listed successor leads))

/-- With nothing suspended the finished nodes are those reached. Witness: the start is marked, and
the successors of a finished node are marked and so finished.
-/
theorem mem_finished_iff (walking : Walking successors nodeCount start marks [] finished)
    (node : Node)
    : node ∈ finished ↔ Relation.ReflTransGen (Leads successors) start node := by
  have done : ∀ other : Node, marks[other]? = some true → other ∈ finished := by
    intro other marked
    rcases (walking.marked other).mp marked with finish | ⟨_, impossible, _⟩
    · exact finish
    · exact absurd impossible List.not_mem_nil
  constructor
  · exact fun listed => walking.reached node ((walking.marked node).mpr (Or.inl listed))
  · intro path
    induction path with
    | refl => exact done start walking.begun
    | tail _ leads ih => exact done _ (walking.closed _ ih _ leads)

/-- The walk ends with the nodes reached, by induction on its own recursion. -/
theorem result (total : Total successors nodeCount) {stack : List Suspended}
    (walking : Walking successors nodeCount start marks stack finished)
    : ∃ order, walk successors marks stack finished = .ok order
      ∧ ∀ node, node ∈ order ↔ Relation.ReflTransGen (Leads successors) start node := by
  fun_induction walk successors marks stack finished with
  | case1 marks finished =>
      exact ⟨_, rfl, fun node => List.mem_reverse.trans (walking.mem_finished_iff node)⟩
  | case2 marks finished node below ih => exact ih walking.finish
  -- The two failures of the walk do not arise: pending successors are in the graph.
  | case3 marks finished node target rest below missing =>
      have inside := walking.pending_lt total
      simp [Array.getElem?_eq_getElem inside] at missing
  | case4 marks finished node target rest below seen ih => exact ih (walking.skip seen)
  | case5 marks finished node target rest below unseen fault failed =>
      have inside := walking.pending_lt total
      rw [walking.size] at inside
      obtain ⟨targets, found, _⟩ := total target inside
      rw [found] at failed
      cases failed
  | case6 marks finished node target rest below unseen targets found ih =>
      exact ih (walking.descend (walking.pending_lt total) found)

end Walking

/-- The nodes listed from a start within the graph are those that a path of successors leads to. -/
theorem mem_nodesFrom_iff {successors : Node → Except Fault (List Node)} {nodeCount : Nat}
    (total : Total successors nodeCount) {start : Node} (inside : start < nodeCount)
    : ∃ order, nodesFrom successors nodeCount start = .ok order
      ∧ ∀ node, node ∈ order ↔ Relation.ReflTransGen (Leads successors) start node := by
  obtain ⟨targets, found, _⟩ := total start inside
  obtain ⟨order, walked, members⟩ := (Walking.initial inside found).result total
  refine ⟨order, ?_, members⟩
  rw [nodesFrom, if_pos inside]
  exact bind_eq_ok.mpr ⟨targets, found, walked⟩

end PostOrder

-----------------------------------------------------------------------------------------
-- Coherent graphs as views
-----------------------------------------------------------------------------------------

namespace Cfg

variable {E : Type} {cfg : Cfg E}

theorem Coherent.total (coherent : cfg.Coherent)
    : PostOrder.Total cfg.successors cfg.nodeCount := by
  intro node inside
  obtain ⟨targets, found, members⟩ := coherent.successors_eq inside
  exact ⟨targets, found, fun target listed =>
    (coherent.hasEdge_lt ((members target).mp listed)).2⟩

/-- The walk follows the edges of the graph. -/
theorem Coherent.leads_eq (coherent : cfg.Coherent)
    : PostOrder.Leads cfg.successors = cfg.HasEdge := by
  funext source target
  apply propext
  by_cases stored : source < cfg.nodeCount
  · obtain ⟨targets, found, members⟩ := coherent.successors_eq stored
    exact (PostOrder.leads_iff found target).trans (members target)
  · constructor
    · rintro ⟨targets, found, _⟩
      have missing : cfg.nodes[source]? = none :=
        Array.getElem?_eq_none_iff.mpr (Nat.not_lt.mp stored)
      rw [successors, Cfg.outgoing, missing] at found
      cases found
    · exact fun edge => absurd (coherent.hasEdge_lt edge).1 stored

/-- The walk over a coherent graph lists the nodes that control reaches from its start. -/
theorem Coherent.mem_postOrder_iff (coherent : cfg.Coherent) {start : Node}
    (inside : start < cfg.nodeCount)
    : ∃ order, cfg.postOrder start = .ok order
      ∧ ∀ node, node ∈ order ↔ cfg.Reachable start node := by
  obtain ⟨order, found, members⟩ := PostOrder.mem_nodesFrom_iff coherent.total inside
  rw [coherent.leads_eq] at members
  exact ⟨order, found, members⟩

theorem Coherent.reachable_lt (coherent : cfg.Coherent) {node : Node}
    (reachable : cfg.Reachable cfg.entry node)
    : node < cfg.nodeCount := by
  rcases reachable.cases_tail with same | ⟨_, _, edge⟩
  · rw [same]
    exact coherent.entry
  · exact (coherent.hasEdge_lt edge).2

/-- An edge leads from `source` to `target` in the direction of flow. -/
def FlowEdge (cfg : Cfg E) (direction : Direction) (source target : Node) : Prop :=
  match direction with
  | .forward => cfg.HasEdge source target
  | .backward => cfg.HasEdge target source

variable [Ord E]

theorem Coherent.mem_visited_iff (coherent : cfg.Coherent) (node : Node)
    : node ∈ cfg.toView.visited ↔ cfg.Reachable cfg.entry node := by
  obtain ⟨order, found, members⟩ := coherent.mem_postOrder_iff coherent.entry
  have visited : cfg.toView.visited = order := by simp only [GraphView.visited, toView, found]
  rw [visited]
  exact members node

theorem Coherent.mem_neighbours_forward (coherent : cfg.Coherent) {source : Node}
    (inside : source < cfg.nodeCount) (target : Node)
    : target ∈ cfg.toView.neighbours .forward source ↔ cfg.HasEdge source target := by
  have found : cfg.toView.outgoing source = _ := coherent.outgoing_eq inside
  rw [(GraphView.neighbours_forward found).2]
  simp [HasEdge, and_assoc]

theorem Coherent.mem_neighbours_backward (coherent : cfg.Coherent) {source : Node}
    (inside : source < cfg.nodeCount) (target : Node)
    : target ∈ cfg.toView.neighbours .backward source ↔ cfg.HasEdge target source := by
  have found : cfg.toView.incoming source = _ := coherent.incoming_eq inside
  rw [(GraphView.neighbours_backward found).2]
  simp only [HasEdge, List.mem_map, List.mem_filter, decide_eq_true_eq, and_assoc,
    and_comm (a := Edge.source _ = target)]

/-- Forward, facts flow along the edges from the nodes that control reaches. -/
theorem Coherent.feeds_forward_iff (coherent : cfg.Coherent) (source target : Node)
    : cfg.toView.Feeds .forward source target
      ↔ cfg.Reachable cfg.entry source ∧ cfg.HasEdge source target := by
  refine (and_congr_left fun _ => coherent.mem_visited_iff source).trans ?_
  exact and_congr_right fun reachable =>
    coherent.mem_neighbours_forward (coherent.reachable_lt reachable) target

/-- Backward, facts flow against the edges from the nodes that control reaches. -/
theorem Coherent.feeds_backward_iff (coherent : cfg.Coherent) (source target : Node)
    : cfg.toView.Feeds .backward source target
      ↔ cfg.Reachable cfg.entry source ∧ cfg.HasEdge target source := by
  refine (and_congr_left fun _ => coherent.mem_visited_iff source).trans ?_
  exact and_congr_right fun reachable =>
    coherent.mem_neighbours_backward (coherent.reachable_lt reachable) target

theorem Coherent.mem_neighbours (coherent : cfg.Coherent) (direction : Direction) {source : Node}
    (inside : source < cfg.nodeCount) (target : Node)
    : target ∈ cfg.toView.neighbours direction source ↔ cfg.FlowEdge direction source target := by
  cases direction with
  | forward => exact coherent.mem_neighbours_forward inside target
  | backward => exact coherent.mem_neighbours_backward inside target

/-- Facts flow along the flow edges from the nodes that control reaches. -/
theorem Coherent.feeds_iff (coherent : cfg.Coherent) (direction : Direction) (source target : Node)
    : cfg.toView.Feeds direction source target
      ↔ cfg.Reachable cfg.entry source ∧ cfg.FlowEdge direction source target := by
  cases direction with
  | forward => exact coherent.feeds_forward_iff source target
  | backward => exact coherent.feeds_backward_iff source target

/-- All views of a coherent graph name nodes of its own. -/
theorem Coherent.inRange [Std.TransOrd E] [Std.LawfulEqOrd E] [DecidableEq E]
    (coherent : cfg.Coherent)
    : cfg.toView.InRange where
  order := by
    obtain ⟨order, found, members⟩ := coherent.mem_postOrder_iff coherent.entry
    exact ⟨order, found, fun node listed => coherent.reachable_lt ((members node).mp listed)⟩
  outgoing := by
    intro node inside
    exact ⟨_, coherent.outgoing_eq inside, fun edge listed =>
      coherent.ends edge (List.mem_filter.mp listed).1⟩
  incoming := by
    intro node inside
    exact ⟨_, coherent.incoming_eq inside, fun edge listed =>
      coherent.ends edge (List.mem_filter.mp listed).1⟩
  edges := coherent.ends
  index := by
    intro element node member
    simp only [toView, ElementIndex.nodes_ofOccurrences] at member
    obtain ⟨occurrence, kept, rfl⟩ := List.mem_map.mp member
    exact coherent.occurrences_lt (List.mem_filter.mp kept).1

end Cfg

end Dataflow
