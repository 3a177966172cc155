import Dataflow.Graph.Cfg
import Mathlib.Data.List.Basic
import Mathlib.Logic.Relation

/-! Graphs under any history of steps. Whatever steps are tried, accepted or refused, the edges
listed at a node are the edges of the graph with that end, in the order in which they were added,
and every node that the graph names is one of its own.
-/

namespace Dataflow

/-- A step that grows a graph. -/
inductive BuildStep (E : Type) where
  | addNode (element : Option E)
  | addEdge (source target : Node)
  | addEdgeLeaving (source target : Node) (exits : List E)
  | associate (element : E) (node : Node)
  | setEntry (node : Node)
deriving DecidableEq, Repr

/-- The nodes that a step names, the source of an edge before its target. -/
def BuildStep.named {E : Type} : BuildStep E → List Node
  | addNode _ => []
  | addEdge source target => [source, target]
  | addEdgeLeaving source target _ => [source, target]
  | associate _ node => [node]
  | setEntry node => [node]

namespace Cfg

variable {E : Type}

/-- Try a step on a graph. The result has the graph that the step leaves, also if it is refused. -/
def attempt (cfg : Cfg E) : BuildStep E → EStateM.Result BadNode (Cfg E) Unit
  | .addNode element => .ok () (cfg.addNode element).2
  | .addEdge source target => (addEdge source target).run cfg
  | .addEdgeLeaving source target exits => (addEdgeLeaving source target exits).run cfg
  | .associate element node => (associate element node).run cfg
  | .setEntry node => (setEntry node).run cfg

/-- The graph that a step leaves. -/
def after (cfg : Cfg E) (step : BuildStep E) : Cfg E :=
  match cfg.attempt step with
  | .ok _ next => next
  | .error _ next => next

/-- The graph that a list of steps grows from the initial one. -/
def grown (steps : List (BuildStep E)) : Cfg E :=
  steps.foldl after initial

/-- The graph has an edge from `source` to `target`. -/
def HasEdge (cfg : Cfg E) (source target : Node) : Prop :=
  ∃ edge ∈ cfg.edges.toList, edge.source = source ∧ edge.target = target

instance (cfg : Cfg E) (source target : Node) : Decidable (cfg.HasEdge source target) :=
  inferInstanceAs
    (Decidable (∃ edge ∈ cfg.edges.toList, edge.source = source ∧ edge.target = target))

/-- A path of edges, possibly empty, leads from one node to the other. -/
def Reachable (cfg : Cfg E) : Node → Node → Prop :=
  Relation.ReflTransGen cfg.HasEdge

-----------------------------------------------------------------------------------------
-- What each step does
-----------------------------------------------------------------------------------------

/-- What follows a check is done if the node is there. Else it is refused, and the graph is left as it
was.
-/
theorem run_require_bind (cfg : Cfg E) (node : Node) {α : Type} (next : Unit → Growth E α)
    : (require node >>= next).run cfg
      = if node < cfg.nodeCount then
          (next ()).run cfg
        else
          .error { node, nodeCount := cfg.nodeCount } cfg := by
  by_cases inside : node < cfg.nodeCount
  · simp [require, inside, EStateM.run_bind]
  · simp [require, inside, EStateM.run_bind]

theorem addEdgeLeaving_eq_ok {cfg next : Cfg E} {source target : Node} {exits : List E}
    : (addEdgeLeaving source target exits).run cfg = .ok () next
      ↔ source < cfg.nodeCount ∧ target < cfg.nodeCount
        ∧ next =
          {
            cfg with
            nodes :=
              (cfg.nodes.modify source fun node =>
                { node with outgoing := node.outgoing.push cfg.edgeCount }).modify target
                  fun node => { node with incoming := node.incoming.push cfg.edgeCount },
            edges := cfg.edges.push { source, target, exits }
          } := by
  unfold addEdgeLeaving
  rw [run_require_bind, run_require_bind]
  split
  case isFalse outside => simp [outside]
  case isTrue sourceInside =>
    split
    case isFalse outside => simp [outside]
    case isTrue targetInside =>
      simp only [sourceInside, targetInside, true_and]
      refine ⟨fun added => ?_, fun same => same ▸ rfl⟩
      cases added
      rfl

/-- A call that names one node and then changes the graph, if it is accepted. -/
theorem require_modify_eq_ok {cfg next : Cfg E} {node : Node} {change : Cfg E → Cfg E}
    : (require node >>= fun _ => (modify change : Growth E Unit)).run cfg = .ok () next
      ↔ node < cfg.nodeCount ∧ next = change cfg := by
  rw [run_require_bind]
  split
  case isFalse outside => simp [outside]
  case isTrue inside =>
    simp only [inside, true_and]
    refine ⟨fun changed => ?_, fun same => same ▸ rfl⟩
    cases changed
    rfl

/-- A call that names one node and then changes the graph, if it is refused. -/
theorem require_modify_eq_error {cfg next : Cfg E} {node : Node} {change : Cfg E → Cfg E}
    {bad : BadNode}
    : (require node >>= fun _ => (modify change : Growth E Unit)).run cfg = .error bad next
      ↔ [node].find? (fun node => cfg.nodeCount ≤ node) = some bad.node
        ∧ bad.nodeCount = cfg.nodeCount ∧ next = cfg := by
  obtain ⟨refused, count⟩ := bad
  rw [run_require_bind]
  by_cases inside : node < cfg.nodeCount
  · simp only [if_pos inside, List.find?_cons, Nat.not_le.mpr inside]
    exact ⟨nofun, nofun⟩
  · simp [inside, Nat.not_lt.mp inside, eq_comm, and_assoc]

theorem addEdgeLeaving_eq_error {cfg next : Cfg E} {source target : Node} {exits : List E}
    {bad : BadNode}
    : (addEdgeLeaving source target exits).run cfg = .error bad next
      ↔ [source, target].find? (fun node => cfg.nodeCount ≤ node) = some bad.node
        ∧ bad.nodeCount = cfg.nodeCount ∧ next = cfg := by
  obtain ⟨node, count⟩ := bad
  unfold addEdgeLeaving
  rw [run_require_bind, run_require_bind]
  by_cases sourceInside : source < cfg.nodeCount
  · by_cases targetInside : target < cfg.nodeCount
    · simp only [if_pos sourceInside, if_pos targetInside, List.find?_cons,
        Nat.not_le.mpr sourceInside, Nat.not_le.mpr targetInside]
      exact ⟨nofun, nofun⟩
    · simp [sourceInside, targetInside, Nat.not_le.mpr sourceInside, Nat.not_lt.mp targetInside,
        eq_comm, and_assoc]
  · simp [sourceInside, Nat.not_lt.mp sourceInside, eq_comm, and_assoc]

/-- A step is refused for the first of the nodes it names that the graph does not have. All checks
come before what is stored, so the graph is then left as it was.
-/
theorem attempt_eq_error_iff {cfg next : Cfg E} {step : BuildStep E} {bad : BadNode}
    : cfg.attempt step = .error bad next
      ↔ step.named.find? (fun node => cfg.nodeCount ≤ node) = some bad.node
        ∧ bad.nodeCount = cfg.nodeCount ∧ next = cfg := by
  cases step with
  | addNode element => simp [attempt, BuildStep.named]
  | addEdge source target => exact addEdgeLeaving_eq_error
  | addEdgeLeaving source target exits => exact addEdgeLeaving_eq_error
  | associate element node => exact require_modify_eq_error
  | setEntry node => exact require_modify_eq_error

-----------------------------------------------------------------------------------------
-- Coherence of the stored positions
-----------------------------------------------------------------------------------------

/-- There is an edge at each of the stored positions, and they are those of the graph with the given
end at the node, in the order of the graph.
-/
structure Lists (cfg : Cfg E) (ending : Edge E → Node) (node : Node) (positions : Array Nat)
    : Prop where
  bounded : ∀ position ∈ positions.toList, position < cfg.edgeCount
  edges
    : (positions.toList.filterMap fun position => cfg.edges[position]?)
        = cfg.edges.toList.filter fun edge => ending edge = node

/-- Reading the edges at positions within the graph succeeds, by induction on the positions. -/
theorem edgesAt_of_bounded {cfg : Cfg E} {positions : Array Nat}
    (bounded : ∀ position ∈ positions.toList, position < cfg.edgeCount)
    : cfg.edgesAt positions
      = .ok (positions.toList.filterMap fun position => cfg.edges[position]?) := by
  rw [edgesAt]
  generalize positions.toList = listed at bounded
  induction listed with
  | nil => rfl
  | cons position rest ih =>
      obtain ⟨first, others⟩ := List.forall_mem_cons.mp bounded
      have found : cfg.edges[position]? = some cfg.edges[position] :=
        Array.getElem?_eq_getElem first
      rw [List.mapM_cons, edgeAt, found, ok_bind, ih others, List.filterMap_cons_some found]
      rfl

theorem Lists.edgesAt_eq {cfg : Cfg E} {ending : Edge E → Node} {node : Node}
    {positions : Array Nat} (lists : cfg.Lists ending node positions)
    : cfg.edgesAt positions = .ok (cfg.edges.toList.filter fun edge => ending edge = node) :=
  lists.edges ▸ edgesAt_of_bounded lists.bounded

/-- The graph names only nodes of its own, and each node lists its edges at both ends. -/
structure Coherent (cfg : Cfg E) : Prop where
  entry : cfg.entry < cfg.nodeCount
  ends : ∀ edge ∈ cfg.edges.toList, edge.source < cfg.nodeCount ∧ edge.target < cfg.nodeCount
  associated : ∀ occurrence ∈ cfg.associations.toList, occurrence.2 < cfg.nodeCount
  outgoing
    : ∀ node stored, cfg.nodes[node]? = some stored → cfg.Lists Edge.source node stored.outgoing
  incoming
    : ∀ node stored, cfg.nodes[node]? = some stored → cfg.Lists Edge.target node stored.incoming

theorem coherent_initial : (initial : Cfg E).Coherent := by
  have unlinked : ∀ (node : Node) (stored : CfgNode E), (initial : Cfg E).nodes[node]? = some stored
      → stored.outgoing = #[] ∧ stored.incoming = #[] := by
    intro node stored found
    simp only [initial, List.getElem?_toArray, List.getElem?_singleton] at found
    split at found
    · cases found
      exact ⟨rfl, rfl⟩
    · cases found
  refine ⟨Nat.zero_lt_one, by simp [initial], by simp [initial], ?_, ?_⟩
  · intro node stored found
    rw [(unlinked node stored found).1]
    exact ⟨by simp, rfl⟩
  · intro node stored found
    rw [(unlinked node stored found).2]
    exact ⟨by simp, rfl⟩

/-- Lists survive a new edge: the end that it has in common with a list takes its position in. -/
theorem Lists.push {cfg next : Cfg E} {ending : Edge E → Node} {node : Node}
    {positions : Array Nat} (lists : cfg.Lists ending node positions) (edge : Edge E)
    (edges : next.edges = cfg.edges.push edge)
    : next.Lists ending node
        (if ending edge = node then positions.push cfg.edgeCount else positions) := by
  have count : next.edgeCount = cfg.edgeCount + 1 := by simp [edgeCount, edges]
  have old : (positions.toList.filterMap fun position => next.edges[position]?)
      = positions.toList.filterMap fun position => cfg.edges[position]? := by
    apply List.filterMap_congr
    intro position listed
    have inside : position < cfg.edges.size := lists.bounded position listed
    rw [edges, Array.getElem?_push_lt inside, Array.getElem?_eq_getElem inside]
  have whole : next.edges.toList = cfg.edges.toList ++ [edge] := by simp [edges]
  split
  case isTrue here =>
    constructor
    · intro position listed
      rw [Array.toList_push, List.mem_append, List.mem_singleton] at listed
      rcases listed with earlier | last
      · have inside := lists.bounded position earlier
        omega
      · omega
    · have last : next.edges[cfg.edgeCount]? = some edge := by simp [edges, edgeCount]
      rw [Array.toList_push, List.filterMap_append, old, lists.edges, whole, List.filter_append,
        List.filterMap_cons_some last]
      simp [here]
  case isFalse elsewhere =>
    constructor
    · intro position listed
      have inside := lists.bounded position listed
      omega
    · rw [old, lists.edges, whole, List.filter_append]
      simp [elsewhere]

theorem Lists.of_edges_eq {cfg next : Cfg E} {ending : Edge E → Node} {node : Node}
    {positions : Array Nat} (lists : cfg.Lists ending node positions)
    (edges : next.edges = cfg.edges)
    : next.Lists ending node positions := by
  refine ⟨?_, ?_⟩
  · simpa only [edgeCount, edges] using lists.bounded
  · simpa only [edges] using lists.edges

theorem Coherent.addNode {cfg : Cfg E} (coherent : cfg.Coherent) (element : Option E)
    : (cfg.addNode element).2.Coherent := by
  have count : (cfg.addNode element).2.nodeCount = cfg.nodeCount + 1 := by
    simp [Cfg.addNode, nodeCount]
  -- The new node is past both ends of every edge, so its lists are rightly empty.
  have fresh : ∀ ending : Edge E → Node,
      (∀ edge ∈ cfg.edges.toList, ending edge < cfg.nodeCount)
      → (cfg.addNode element).2.Lists ending cfg.nodeCount #[] := by
    intro ending bounded
    refine ⟨by simp, ?_⟩
    symm
    apply List.filter_eq_nil_iff.mpr
    intro edge listed
    have inside := bounded edge listed
    simp only [decide_eq_true_eq]
    exact Nat.ne_of_lt inside
  have node_cases : ∀ node stored, (cfg.addNode element).2.nodes[node]? = some stored
      → cfg.nodes[node]? = some stored
        ∨ node = cfg.nodeCount ∧ stored = { element, outgoing := #[], incoming := #[] } := by
    intro node stored found
    simp only [Cfg.addNode, Array.getElem?_push] at found
    split at found
    case isTrue last => exact Or.inr ⟨last, (Option.some.inj found).symm⟩
    case isFalse => exact Or.inl found
  refine ⟨?_, ?_, ?_, ?_, ?_⟩
  · rw [count]
    exact Nat.lt_succ_of_lt coherent.entry
  · intro edge listed
    have inside := coherent.ends edge listed
    rw [count]
    exact ⟨Nat.lt_succ_of_lt inside.1, Nat.lt_succ_of_lt inside.2⟩
  · intro occurrence listed
    rw [count]
    exact Nat.lt_succ_of_lt (coherent.associated occurrence listed)
  · intro node stored found
    rcases node_cases node stored found with old | ⟨rfl, rfl⟩
    · exact (coherent.outgoing node stored old).of_edges_eq rfl
    · exact fresh Edge.source fun edge listed => (coherent.ends edge listed).1
  · intro node stored found
    rcases node_cases node stored found with old | ⟨rfl, rfl⟩
    · exact (coherent.incoming node stored old).of_edges_eq rfl
    · exact fresh Edge.target fun edge listed => (coherent.ends edge listed).2

theorem Coherent.addEdgeLeaving {cfg next : Cfg E} (coherent : cfg.Coherent)
    {source target : Node} {exits : List E}
    (added : (addEdgeLeaving source target exits).run cfg = .ok () next)
    : next.Coherent := by
  obtain ⟨sourceInside, targetInside, rfl⟩ := addEdgeLeaving_eq_ok.mp added
  -- An edge from a node to itself is stored in both lists of the one node.
  have node_cases : ∀ node stored,
      ((cfg.nodes.modify source fun node =>
          { node with outgoing := node.outgoing.push cfg.edgeCount }).modify target fun node =>
            { node with incoming := node.incoming.push cfg.edgeCount })[node]? = some stored
      → ∃ old, cfg.nodes[node]? = some old
        ∧ stored.outgoing
          = (if source = node then old.outgoing.push cfg.edgeCount else old.outgoing)
        ∧ stored.incoming
          = (if target = node then old.incoming.push cfg.edgeCount else old.incoming) := by
    intro node stored found
    simp only [Array.getElem?_modify] at found
    cases before : cfg.nodes[node]? with
    | none => simp [before] at found
    | some old =>
        refine ⟨old, rfl, ?_⟩
        rw [before] at found
        by_cases atSource : source = node <;> by_cases atTarget : target = node <;>
          simp only [atSource, atTarget, if_true, if_false, Option.map_some,
            Option.some.injEq] at found ⊢ <;>
          simp [← found]
  refine ⟨?_, ?_, ?_, ?_, ?_⟩
  · simpa [nodeCount] using coherent.entry
  · intro edge listed
    simp only [Array.toList_push, List.mem_append, List.mem_singleton] at listed
    simp only [nodeCount, Array.size_modify]
    rcases listed with earlier | rfl
    · exact coherent.ends edge earlier
    · exact ⟨sourceInside, targetInside⟩
  · simpa [nodeCount] using coherent.associated
  · intro node stored found
    obtain ⟨old, before, outgoing, _⟩ := node_cases node stored found
    rw [outgoing]
    exact (coherent.outgoing node old before).push { source, target, exits } rfl
  · intro node stored found
    obtain ⟨old, before, _, incoming⟩ := node_cases node stored found
    rw [incoming]
    exact (coherent.incoming node old before).push { source, target, exits } rfl

theorem Coherent.attempt {cfg next : Cfg E} (coherent : cfg.Coherent) {step : BuildStep E}
    (accepted : cfg.attempt step = .ok () next)
    : next.Coherent := by
  cases step with
  | addNode element =>
      cases accepted
      exact coherent.addNode element
  | addEdge source target => exact coherent.addEdgeLeaving accepted
  | addEdgeLeaving source target exits => exact coherent.addEdgeLeaving accepted
  | associate element node =>
      obtain ⟨inside, rfl⟩ := require_modify_eq_ok.mp accepted
      refine { coherent with associated := ?_, outgoing := ?_, incoming := ?_ }
      · intro occurrence listed
        simp only [Array.toList_push, List.mem_append, List.mem_singleton] at listed
        rcases listed with earlier | rfl
        · exact coherent.associated occurrence earlier
        · exact inside
      · exact fun other stored found => (coherent.outgoing other stored found).of_edges_eq rfl
      · exact fun other stored found => (coherent.incoming other stored found).of_edges_eq rfl
  | setEntry node =>
      obtain ⟨inside, rfl⟩ := require_modify_eq_ok.mp accepted
      refine { coherent with entry := inside, outgoing := ?_, incoming := ?_ }
      · exact fun other stored found => (coherent.outgoing other stored found).of_edges_eq rfl
      · exact fun other stored found => (coherent.incoming other stored found).of_edges_eq rfl

/-- Every history leaves a coherent graph, by induction on its steps: an accepted step keeps it
coherent, and a refused one has left it alone.
-/
theorem coherent_grown (steps : List (BuildStep E)) : (grown steps).Coherent := by
  refine List.foldlRecOn steps after coherent_initial ?_
  intro cfg coherent step _
  unfold after
  split
  case h_1 next accepted => exact coherent.attempt accepted
  case h_2 bad next refused =>
    rw [(attempt_eq_error_iff.mp refused).2.2]
    exact coherent

-----------------------------------------------------------------------------------------
-- What a coherent graph answers
-----------------------------------------------------------------------------------------

theorem Coherent.outgoing_eq {cfg : Cfg E} (coherent : cfg.Coherent) {node : Node}
    (inside : node < cfg.nodeCount)
    : cfg.outgoing node = .ok (cfg.edges.toList.filter fun edge => edge.source = node) := by
  have found : cfg.nodes[node]? = some cfg.nodes[node] := Array.getElem?_eq_getElem inside
  rw [Cfg.outgoing, found]
  exact (coherent.outgoing node _ found).edgesAt_eq

theorem Coherent.incoming_eq {cfg : Cfg E} (coherent : cfg.Coherent) {node : Node}
    (inside : node < cfg.nodeCount)
    : cfg.incoming node = .ok (cfg.edges.toList.filter fun edge => edge.target = node) := by
  have found : cfg.nodes[node]? = some cfg.nodes[node] := Array.getElem?_eq_getElem inside
  rw [Cfg.incoming, found]
  exact (coherent.incoming node _ found).edgesAt_eq

theorem Coherent.successors_eq {cfg : Cfg E} (coherent : cfg.Coherent) {node : Node}
    (inside : node < cfg.nodeCount)
    : ∃ targets, cfg.successors node = .ok targets
      ∧ ∀ target, target ∈ targets ↔ cfg.HasEdge node target := by
  refine ⟨(cfg.edges.toList.filter fun edge => edge.source = node).map Edge.target, ?_, ?_⟩
  · rw [successors, coherent.outgoing_eq inside]
    rfl
  · intro target
    simp [HasEdge, and_assoc]

theorem Coherent.hasEdge_lt {cfg : Cfg E} (coherent : cfg.Coherent) {source target : Node}
    (edge : cfg.HasEdge source target)
    : source < cfg.nodeCount ∧ target < cfg.nodeCount := by
  obtain ⟨edge, listed, rfl, rfl⟩ := edge
  exact coherent.ends edge listed

theorem Coherent.occurrences_lt {cfg : Cfg E} (coherent : cfg.Coherent) {occurrence : E × Node}
    (listed : occurrence ∈ cfg.occurrences)
    : occurrence.2 < cfg.nodeCount := by
  rcases List.mem_append.mp listed with carried | associated
  · obtain ⟨⟨stored, position⟩, indexed, named⟩ := List.mem_filterMap.mp carried
    have inside : position < cfg.nodeCount := by
      simpa [nodeCount] using (List.mem_zipIdx indexed).2.1
    obtain ⟨element, _, rfl⟩ := Option.map_eq_some_iff.mp named
    exact Nat.lt_of_le_of_lt (Nat.min_le_left position Node.last) inside
  · exact coherent.associated occurrence associated

end Cfg

end Dataflow
