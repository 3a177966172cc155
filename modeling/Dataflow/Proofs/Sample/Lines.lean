import Dataflow.Proofs.Graph.LineOrder
import Dataflow.Proofs.Sample.Drawing

/-! Layouts that are lines with loops. Control goes from each node of a line to the next one, and
from the latch of a loop back to its head as well. Of two loops one lies inside the other or ahead
of it. Chains and nested loops are lines, for whatever is put together from lines is one.
-/

namespace Dataflow.Sample

/-- The second loop lies around the first, or further on. -/
def Loop.Precedes (first second : Loop) : Prop :=
  first.latch < second.head ∨ (second.head ≤ first.head ∧ first.latch < second.latch)

namespace Layout

/-- The links from a node of a line, in order. -/
def departing (loops : List Loop) (node : Nat) : List (Edge Node) :=
  match loops.find? fun loop => loop.latch = node with
  | some loop => [loop.back, loop.leave]
  | .none => [.plain node (node + 1)]

/-- The layout is a line with loops. Its loops lie between its nodes, the inner ones first, and its
links are those from each node in turn and from the node that it is drawn after.
-/
structure Linear (layout : Layout) : Prop where
  between
    : ∀ before, ∀ loop ∈ layout.loops before,
        before < loop.head ∧ loop.head < loop.latch ∧ loop.latch < before + layout.size
  ordered : ∀ before, (layout.loops before).Pairwise Loop.Precedes
  outgoing
    : ∀ before node : Nat,
        before ≤ node
        → node < before + layout.size
        → (layout.links before).filter (fun edge => edge.source = node)
          = departing (layout.loops before) node
  elsewhere
    : ∀ before node : Nat,
        node < before ∨ before + layout.size ≤ node
        → (layout.links before).filter (fun edge => edge.source = node) = []
  leaving
    : ∀ before,
        (layout.links before).filter (fun edge => edge.exits ≠ [])
          = (layout.loops before).map Loop.leave

-----------------------------------------------------------------------------------------
-- Links from one node
-----------------------------------------------------------------------------------------

theorem find?_latch_eq_none {loops : List Loop} {node : Nat}
    (others : ∀ loop ∈ loops, loop.latch ≠ node)
    : loops.find? (fun loop => loop.latch = node) = .none :=
  List.find?_eq_none.mpr fun loop listed => by simpa using others loop listed

theorem departing_append_left {first second : List Loop} {node : Nat}
    (others : ∀ loop ∈ second, loop.latch ≠ node)
    : departing (first ++ second) node = departing first node := by
  rw [departing, departing, List.find?_append, find?_latch_eq_none others, Option.or_none]

theorem departing_append_right {first second : List Loop} {node : Nat}
    (others : ∀ loop ∈ first, loop.latch ≠ node)
    : departing (first ++ second) node = departing second node := by
  rw [departing, departing, List.find?_append, find?_latch_eq_none others, Option.none_or]

-----------------------------------------------------------------------------------------
-- Lines are put together from lines
-----------------------------------------------------------------------------------------

theorem linear_none : none.Linear where
  between := by simp [none]
  ordered := by simp [none]
  outgoing := by
    intro before node notBefore notAfter
    exact absurd notAfter (Nat.not_lt.mpr notBefore)
  elsewhere := by simp [none]
  leaving := by simp [none]

theorem linear_single : single.Linear where
  between := by simp [single]
  ordered := by simp [single]
  outgoing := by
    intro before node notBefore notAfter
    have here : before = node := Nat.le_antisymm notBefore (Nat.le_of_lt_succ notAfter)
    simp [single, here, Edge.plain, departing]
  elsewhere := by
    intro before node outside
    rw [size_single] at outside
    have other : before ≠ node := by omega
    simp [single, other, Edge.plain]
  leaving := by simp [single, Edge.plain]

theorem Linear.followedBy {first second : Layout} (early : first.Linear) (late : second.Linear)
    : (first.followedBy second).Linear where
  between := by
    intro before loop listed
    rw [size_followedBy]
    rcases List.mem_append.mp listed with inFirst | inSecond
    · have bounds := early.between before loop inFirst
      omega
    · have bounds := late.between (before + first.size) loop inSecond
      omega
  ordered := by
    intro before
    refine List.pairwise_append.mpr ⟨early.ordered before, late.ordered _, ?_⟩
    intro loop inFirst further inSecond
    have bounds := early.between before loop inFirst
    have furtherBounds := late.between (before + first.size) further inSecond
    exact Or.inl (by omega)
  outgoing := by
    intro before node notBefore notAfter
    rw [size_followedBy] at notAfter
    simp only [Layout.followedBy, List.filter_append]
    by_cases inFirst : node < before + first.size
    · rw [early.outgoing before node notBefore inFirst, late.elsewhere _ node (Or.inl inFirst),
        List.append_nil, departing_append_left]
      intro loop listed
      have bounds := late.between (before + first.size) loop listed
      omega
    · rw [early.elsewhere before node (Or.inr (by omega)), List.nil_append,
        late.outgoing _ node (by omega) (by omega), departing_append_right]
      intro loop listed
      have bounds := early.between before loop listed
      omega
  elsewhere := by
    intro before node outside
    rw [size_followedBy] at outside
    simp only [Layout.followedBy, List.filter_append]
    rw [early.elsewhere before node (by omega), late.elsewhere _ node (by omega), List.append_nil]
  leaving := by
    intro before
    simp only [Layout.followedBy, List.filter_append, List.map_append]
    rw [early.leaving, late.leaving]

theorem Linear.inSequence {layout : Layout} (line : layout.Linear) (count : Nat)
    : (layout.inSequence count).Linear := by
  induction count with
  | zero => exact linear_none
  | succ count ih => exact line.followedBy ih

/-- Closing a line of two nodes or more to a loop gives a line again. Only its last node, which had
no links, gets some.
-/
theorem Linear.closed {layout : Layout} (line : layout.Linear) (long : 2 ≤ layout.size)
    : layout.closed.Linear where
  between := by
    intro before loop listed
    rw [size_closed]
    rcases List.mem_append.mp listed with inner | outermost
    · have bounds := line.between before loop inner
      omega
    · cases List.mem_singleton.mp outermost
      simp only [around]
      omega
  ordered := by
    intro before
    refine List.pairwise_append.mpr ⟨line.ordered before, List.pairwise_singleton _ _, ?_⟩
    intro loop inner outermost listed
    cases List.mem_singleton.mp listed
    have bounds := line.between before loop inner
    exact Or.inr ⟨bounds.1, bounds.2.2⟩
  outgoing := by
    intro before node notBefore notAfter
    rw [size_closed] at notAfter
    simp only [Layout.closed, List.filter_append]
    by_cases last : before + layout.size = node
    · rw [line.elsewhere before node (by omega), departing_append_right]
      · simp [departing, around, Loop.back, Loop.leave, Edge.plain, last]
      · intro loop listed
        have bounds := line.between before loop listed
        omega
    · rw [line.outgoing before node notBefore (by omega), departing_append_left]
      · simp [around, Loop.back, Loop.leave, Edge.plain, last]
      · intro loop listed
        cases List.mem_singleton.mp listed
        exact last
  elsewhere := by
    intro before node outside
    rw [size_closed] at outside
    have other : before + layout.size ≠ node := by omega
    simp only [Layout.closed, List.filter_append]
    rw [line.elsewhere before node (by omega)]
    simp [around, Loop.back, Loop.leave, Edge.plain, other]
  leaving := by
    intro before
    simp only [Layout.closed, List.filter_append, List.map_append]
    rw [line.leaving]
    simp [Loop.back, Loop.leave, Edge.plain]

theorem Linear.loop {inside : Layout} (line : inside.Linear) : inside.loop.Linear :=
  (linear_single.followedBy (line.followedBy linear_single)).closed
    (by simp only [size_followedBy, size_single]; omega)

theorem linear_chain (length : Nat) : (chain length).Linear :=
  linear_single.inSequence length

theorem linear_nested (body levels : Nat) : (nested body levels).Linear := by
  induction levels with
  | zero => exact linear_none
  | succ levels ih => exact ((linear_chain body).followedBy ih).loop

theorem linear_loopNest (depth body : Nat) : (loopNest depth body).Linear :=
  (linear_nested body (max depth 1)).followedBy linear_single

-----------------------------------------------------------------------------------------
-- Loops of a line
-----------------------------------------------------------------------------------------

namespace Linear

variable {layout : Layout} (line : layout.Linear) {before : Nat} {loop other : Loop}

include line

/-- Of two different loops one comes before the other. -/
theorem precedes_or (listed : loop ∈ layout.loops before) (alsoListed : other ∈ layout.loops before)
    (different : loop ≠ other)
    : loop.Precedes other ∨ other.Precedes loop := by
  have symmetric : Std.Symm fun first second : Loop =>
      first.Precedes second ∨ second.Precedes first :=
    ⟨fun _ _ => Or.symm⟩
  have either : (layout.loops before).Pairwise fun first second =>
      first.Precedes second ∨ second.Precedes first :=
    (line.ordered before).imp Or.inl
  exact either.forall listed alsoListed different

theorem eq_of_latch_eq (listed : loop ∈ layout.loops before)
    (alsoListed : other ∈ layout.loops before) (same : loop.latch = other.latch)
    : loop = other := by
  by_contra different
  have bounds := line.between before loop listed
  have otherBounds := line.between before other alsoListed
  rcases line.precedes_or listed alsoListed different with first | second
  · rcases first with ahead | ⟨_, shorter⟩ <;> omega
  · rcases second with ahead | ⟨_, shorter⟩ <;> omega

/-- No two loops have their latch in common, so a latch has the links of its own loop only. -/
theorem departing_latch (listed : loop ∈ layout.loops before)
    : departing (layout.loops before) loop.latch = [loop.back, loop.leave] := by
  obtain ⟨found, search⟩ : ∃ found,
      (layout.loops before).find? (fun other => other.latch = loop.latch) = some found :=
    Option.isSome_iff_exists.mp (List.find?_isSome.mpr ⟨loop, listed, by simp⟩)
  have same : found.latch = loop.latch := by simpa using List.find?_some search
  have own := line.eq_of_latch_eq (List.mem_of_find?_eq_some search) listed same
  rw [departing, search, own]

/-- A loop with its latch inside another one has its head there as well. -/
theorem head_le_head (listed : loop ∈ layout.loops before)
    (alsoListed : other ∈ layout.loops before) (notBefore : loop.head ≤ other.latch)
    (inside : other.latch < loop.latch)
    : loop.head ≤ other.head := by
  have different : loop ≠ other := fun same => by simp [same] at inside
  have bounds := line.between before loop listed
  have otherBounds := line.between before other alsoListed
  rcases line.precedes_or listed alsoListed different with first | second
  · rcases first with ahead | ⟨_, shorter⟩ <;> omega
  · rcases second with ahead | ⟨around, _⟩
    · omega
    · exact around

/-- A loop with its head inside another one has its latch there as well. -/
theorem latch_le_latch (listed : loop ∈ layout.loops before)
    (alsoListed : other ∈ layout.loops before) (inside : loop.head < other.head)
    (notAfter : other.head ≤ loop.latch)
    : other.latch ≤ loop.latch := by
  have different : loop ≠ other := fun same => by simp [same] at inside
  have bounds := line.between before loop listed
  have otherBounds := line.between before other alsoListed
  rcases line.precedes_or listed alsoListed different with first | second
  · rcases first with ahead | ⟨around, _⟩ <;> omega
  · rcases second with ahead | ⟨_, shorter⟩ <;> omega

theorem mem_targets_departing {node target : Nat}
    : target ∈ (departing (layout.loops before) node).map Edge.target
      ↔ target = node + 1
        ∨ ∃ loop ∈ layout.loops before, loop.latch = node ∧ loop.head = target := by
  by_cases latch : ∃ loop ∈ layout.loops before, loop.latch = node
  · obtain ⟨loop, listed, rfl⟩ := latch
    rw [line.departing_latch listed]
    simp only [Loop.back, Loop.leave, Edge.plain, List.map_cons, List.map_nil, List.mem_cons,
      List.not_mem_nil, or_false]
    constructor
    · rintro (rfl | rfl)
      · exact Or.inr ⟨loop, listed, rfl, rfl⟩
      · exact Or.inl rfl
    · rintro (rfl | ⟨other, alsoListed, same, rfl⟩)
      · exact Or.inr rfl
      · exact Or.inl (by rw [line.eq_of_latch_eq alsoListed listed same])
  · have others : ∀ loop ∈ layout.loops before, loop.latch ≠ node :=
      fun loop listed same => latch ⟨loop, listed, same⟩
    rw [departing, find?_latch_eq_none others]
    constructor
    · exact fun next => Or.inl (List.mem_singleton.mp next)
    · rintro (rfl | ⟨loop, listed, same, _⟩)
      · exact List.mem_singleton_self _
      · exact absurd same (others loop listed)

-----------------------------------------------------------------------------------------
-- Graphs of lines
-----------------------------------------------------------------------------------------

variable {cfg : Cfg Node} (drawn : Cfg.initial.GrowsBy layout.size (layout.links 0) cfg)

include drawn

theorem outgoing_latch (listed : loop ∈ layout.loops 0)
    : cfg.outgoing loop.latch = .ok [loop.back, loop.leave] := by
  have bounds := line.between 0 loop listed
  have count := drawn.nodeCount_of_initial
  rw [drawn.coherent.outgoing_eq (show loop.latch < cfg.nodeCount by omega),
    drawn.edges_of_initial, line.outgoing 0 _ (Nat.zero_le _) bounds.2.2,
    line.departing_latch listed]

/-- An edge that leaves a scope comes from a latch, which has just one other edge. That one leads
back to the head, whose scope is left.
-/
theorem exits_eq {edge : Edge Node} (listed : edge ∈ cfg.edges.toList) (leaving : edge.exits ≠ [])
    : ∃ head : Nat, head < edge.source
      ∧ edge.exits = [head]
      ∧ cfg.outgoing edge.source = .ok [.plain edge.source head, edge] := by
  rw [drawn.edges_of_initial] at listed
  have chosen : edge ∈ (layout.links 0).filter (fun edge => edge.exits ≠ []) :=
    List.mem_filter.mpr ⟨listed, by simpa using leaving⟩
  rw [line.leaving] at chosen
  obtain ⟨loop, looping, rfl⟩ := List.mem_map.mp chosen
  exact ⟨loop.head, (line.between 0 loop looping).2.1, rfl, line.outgoing_latch drawn looping⟩

/-- The edges lead from each node but the last to the next one, and from each latch to its head. -/
theorem hasEdge_iff {source target : Nat}
    : cfg.HasEdge source target
      ↔ source < layout.size
        ∧ (target = source + 1
          ∨ ∃ loop ∈ layout.loops 0, loop.latch = source ∧ loop.head = target) := by
  have listed : cfg.HasEdge source target
      ↔ target ∈ ((layout.links 0).filter fun edge => edge.source = source).map Edge.target := by
    simp [Cfg.HasEdge, drawn.edges_of_initial, and_assoc]
  rw [listed]
  by_cases inside : source < layout.size
  · rw [line.outgoing 0 source (Nat.zero_le _) (by omega), line.mem_targets_departing]
    simp [inside]
  · rw [line.elsewhere 0 source (by omega)]
    simp [inside]

theorem stepwise : PostOrder.Stepwise cfg.successors cfg.nodeCount := by
  have count := drawn.nodeCount_of_initial
  intro node inside
  obtain ⟨targets, found, members⟩ := drawn.coherent.successors_eq inside
  refine ⟨targets, found, fun target listed => ?_, fun further => ?_⟩
  · obtain ⟨within, next | ⟨loop, looping, rfl, rfl⟩⟩ :=
      (line.hasEdge_iff drawn).mp ((members target).mp listed)
    · omega
    · have bounds := line.between 0 loop looping
      omega
  · exact (members _).mpr ((line.hasEdge_iff drawn).mpr ⟨by omega, Or.inl rfl⟩)

/-- The walk lists the nodes of a line from the last to the first. -/
theorem postOrder_eq : cfg.postOrder cfg.entry = .ok (List.range cfg.nodeCount).reverse := by
  have entry : cfg.entry = 0 := drawn.entry
  have count := drawn.nodeCount_of_initial
  rw [entry]
  exact PostOrder.nodesFrom_of_stepwise (line.stepwise drawn) (by omega)

end Linear

end Layout

end Dataflow.Sample
