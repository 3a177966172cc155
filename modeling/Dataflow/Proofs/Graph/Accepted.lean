import Dataflow.Proofs.Graph.History

/-! A graph against the steps that were tried to grow it. A step is accepted exactly if every node
that it names is there by then. The accepted steps, in order, give the edges, the associations and
the entry of the graph; a refused step names the first node that was missing and leaves no trace.
-/

namespace Dataflow

namespace BuildStep

variable {E : Type}

/-- The element, if any, of the node that a step adds. -/
def element? : BuildStep E → Option (Option E)
  | addNode element => some element
  | _ => none

/-- The edge that a step adds. -/
def edge? : BuildStep E → Option (Edge E)
  | addEdge source target => some (.plain source target)
  | addEdgeLeaving source target exits => some { source, target, exits }
  | _ => none

/-- The association that a step adds. -/
def association? : BuildStep E → Option (E × Node)
  | associate element node => some (element, node)
  | _ => none

/-- The node that a step makes the entry. -/
def entry? : BuildStep E → Option Node
  | setEntry node => some node
  | _ => none

/-- Every node that the step names is among the first `count`. -/
def Known (count : Nat) (step : BuildStep E) : Prop :=
  ∀ node ∈ step.named, node < count

instance (count : Nat) : DecidablePred (Known count : BuildStep E → Prop) :=
  fun step => inferInstanceAs (Decidable (∀ node ∈ step.named, node < count))

/-- Of the steps tried on a graph of `count` nodes, those that name only nodes which are there by
then.
-/
def accepted : Nat → List (BuildStep E) → List (BuildStep E)
  | _, [] => []
  | count, step :: rest =>
      if step.Known count then
        step :: accepted (count + step.element?.toList.length) rest
      else
        accepted count rest

theorem find?_named_eq_none {count : Nat} {step : BuildStep E}
    : step.named.find? (fun node => count ≤ node) = none ↔ step.Known count := by
  simp [Known, List.find?_eq_none]

/-- Steps that add nodes name none, so they are never left out. -/
theorem element?_of_not_known {count : Nat} {step : BuildStep E} (unknown : ¬step.Known count)
    : step.element? = none := by
  cases step with
  | addNode element => exact absurd (by simp [Known, named]) unknown
  | addEdge | addEdgeLeaving | associate | setEntry => rfl

theorem filterMap_element?_accepted (count : Nat) (steps : List (BuildStep E))
    : (accepted count steps).filterMap element? = steps.filterMap element? := by
  induction steps generalizing count with
  | nil => rfl
  | cons step rest ih =>
      rw [accepted]
      split
      case isTrue => simp only [List.filterMap_cons, ih]
      case isFalse unknown => rw [ih, List.filterMap_cons_none (element?_of_not_known unknown)]

theorem mem_of_mem_accepted {count : Nat} {steps : List (BuildStep E)} {step : BuildStep E}
    (listed : step ∈ accepted count steps)
    : step ∈ steps := by
  induction steps generalizing count with
  | nil => exact listed
  | cons first rest ih =>
      rw [accepted] at listed
      split at listed
      case isTrue =>
        rcases List.mem_cons.mp listed with rfl | later
        · exact List.mem_cons_self
        · exact List.mem_cons_of_mem first (ih later)
      case isFalse => exact List.mem_cons_of_mem first (ih listed)

/-- Whether further steps are accepted depends on the nodes that the steps before them add. -/
theorem accepted_append (count : Nat) (steps later : List (BuildStep E))
    : accepted count (steps ++ later)
      = accepted count steps ++ accepted (count + (steps.filterMap element?).length) later := by
  induction steps generalizing count with
  | nil => rfl
  | cons step rest ih =>
      rw [List.cons_append, accepted, accepted]
      split
      case isTrue =>
        have added : ((step :: rest).filterMap element?).length
            = step.element?.toList.length + (rest.filterMap element?).length := by
          cases found : step.element? with
          | none => simp [found]
          | some element => simp [found, Nat.add_comm]
        rw [ih, added, Nat.add_assoc, List.cons_append]
      case isFalse unknown => rw [ih, List.filterMap_cons_none (element?_of_not_known unknown)]

theorem accepted_concat (count : Nat) (steps : List (BuildStep E)) (last : BuildStep E)
    : accepted count (steps ++ [last])
      = accepted count steps
        ++ if last.Known (count + (steps.filterMap element?).length) then [last] else [] :=
  accepted_append count steps [last]

/-- Steps that name only nodes which are there from the start are all accepted. -/
theorem accepted_of_known {count : Nat} {steps : List (BuildStep E)}
    (known : ∀ step ∈ steps, step.Known count)
    : accepted count steps = steps := by
  induction steps generalizing count with
  | nil => rfl
  | cons step rest ih =>
      obtain ⟨first, others⟩ := List.forall_mem_cons.mp known
      rw [accepted, if_pos first, ih]
      intro later listed node named
      exact Nat.lt_add_right _ (others later listed node named)

end BuildStep

namespace Cfg

variable {E : Type}

-----------------------------------------------------------------------------------------
-- What an accepted step adds
-----------------------------------------------------------------------------------------

/-- The elements of the nodes, in order. -/
def elements (cfg : Cfg E) : List (Option E) :=
  cfg.nodes.toList.map CfgNode.element

/-- The graph `next` has what `cfg` has, and after it what the steps add, in order. -/
structure Extends (cfg : Cfg E) (steps : List (BuildStep E)) (next : Cfg E) : Prop where
  elements : next.elements = cfg.elements ++ steps.filterMap BuildStep.element?
  edges : next.edges.toList = cfg.edges.toList ++ steps.filterMap BuildStep.edge?
  associations
    : next.associations.toList
        = cfg.associations.toList ++ steps.filterMap BuildStep.association?
  entry : next.entry = (steps.filterMap BuildStep.entry?).getLast?.getD cfg.entry

theorem Extends.refl (cfg : Cfg E) : cfg.Extends [] cfg := by
  constructor <;> simp

theorem Extends.trans {cfg middle next : Cfg E} {early late : List (BuildStep E)}
    (before : cfg.Extends early middle) (after : middle.Extends late next)
    : cfg.Extends (early ++ late) next := by
  constructor
  · rw [after.elements, before.elements, List.filterMap_append, List.append_assoc]
  · rw [after.edges, before.edges, List.filterMap_append, List.append_assoc]
  · rw [after.associations, before.associations, List.filterMap_append, List.append_assoc]
  · rw [after.entry, before.entry, List.filterMap_append, List.getLast?_append]
    cases (late.filterMap BuildStep.entry?).getLast? <;> rfl

theorem Extends.nodeCount {cfg next : Cfg E} {steps : List (BuildStep E)}
    (extended : cfg.Extends steps next)
    : next.nodeCount = cfg.nodeCount + (steps.filterMap BuildStep.element?).length := by
  simpa [Cfg.elements, Cfg.nodeCount] using congrArg List.length extended.elements

/-- Changing the edges that a node lists leaves the elements alone. -/
theorem map_element_modify (nodes : List (CfgNode E)) (position : Nat)
    (change : CfgNode E → CfgNode E) (kept : ∀ node, (change node).element = node.element)
    : (nodes.modify position change).map CfgNode.element = nodes.map CfgNode.element := by
  apply List.ext_getElem?
  intro index
  rw [List.getElem?_map, List.getElem?_modify, List.getElem?_map]
  cases nodes[index]? with
  | none => split <;> rfl
  | some node => split <;> simp [kept]

theorem extends_of_addEdgeLeaving {cfg next : Cfg E} {source target : Node} {exits : List E}
    (added : (addEdgeLeaving source target exits).run cfg = .ok () next)
    : cfg.Extends [.addEdgeLeaving source target exits] next := by
  obtain ⟨_, _, rfl⟩ := addEdgeLeaving_eq_ok.mp added
  refine ⟨?_, Array.toList_push, (List.append_nil _).symm, rfl⟩
  simp only [Cfg.elements, Array.toList_modify]
  rw [map_element_modify, map_element_modify]
  · exact (List.append_nil _).symm
  · exact fun _ => rfl
  · exact fun _ => rfl

/-- An accepted step adds what it says and nothing else, by cases on the step. -/
theorem extends_of_attempt {cfg next : Cfg E} {step : BuildStep E}
    (accepted : cfg.attempt step = .ok () next)
    : cfg.Extends [step] next := by
  cases step with
  | addNode element =>
      cases accepted
      refine ⟨?_, (List.append_nil _).symm, (List.append_nil _).symm, rfl⟩
      simp [Cfg.elements, addNode, BuildStep.element?]
  | addEdge source target => exact { extends_of_addEdgeLeaving accepted with }
  | addEdgeLeaving source target exits => exact extends_of_addEdgeLeaving accepted
  | associate element node =>
      obtain ⟨_, rfl⟩ := require_modify_eq_ok.mp accepted
      exact ⟨(List.append_nil _).symm, (List.append_nil _).symm, Array.toList_push, rfl⟩
  | setEntry node =>
      obtain ⟨_, rfl⟩ := require_modify_eq_ok.mp accepted
      exact ⟨(List.append_nil _).symm, (List.append_nil _).symm, (List.append_nil _).symm, rfl⟩

-----------------------------------------------------------------------------------------
-- Which steps are refused
-----------------------------------------------------------------------------------------

theorem not_known_of_error {cfg next : Cfg E} {step : BuildStep E} {bad : BadNode}
    (refused : cfg.attempt step = .error bad next)
    : ¬step.Known cfg.nodeCount := by
  intro known
  have missing := (attempt_eq_error_iff.mp refused).1
  rw [BuildStep.find?_named_eq_none.mpr known] at missing
  cases missing

theorem attempt_of_known {cfg : Cfg E} {step : BuildStep E} (known : step.Known cfg.nodeCount)
    : ∃ next, cfg.attempt step = .ok () next := by
  cases tried : cfg.attempt step with
  | ok _ next => exact ⟨next, rfl⟩
  | error bad next => exact absurd known (not_known_of_error tried)

theorem attempt_of_not_known {cfg : Cfg E} {step : BuildStep E}
    (unknown : ¬step.Known cfg.nodeCount)
    : ∃ bad, cfg.attempt step = .error bad cfg := by
  obtain ⟨node, missing⟩ :=
    Option.ne_none_iff_exists'.mp fun none => unknown (BuildStep.find?_named_eq_none.mp none)
  exact ⟨{ node, nodeCount := cfg.nodeCount }, attempt_eq_error_iff.mpr ⟨missing, rfl, rfl⟩⟩

theorem known_of_ok {cfg next : Cfg E} {step : BuildStep E}
    (taken : cfg.attempt step = .ok () next)
    : step.Known cfg.nodeCount := by
  by_contra unknown
  obtain ⟨bad, refused⟩ := attempt_of_not_known unknown
  rw [taken] at refused
  cases refused

theorem after_of_error {cfg next : Cfg E} {step : BuildStep E} {bad : BadNode}
    (refused : cfg.attempt step = .error bad next)
    : cfg.after step = next := by
  simp only [after, refused]

theorem after_of_ok {cfg next : Cfg E} {step : BuildStep E}
    (accepted : cfg.attempt step = .ok () next)
    : cfg.after step = next := by
  simp only [after, accepted]

-----------------------------------------------------------------------------------------
-- Whole histories
-----------------------------------------------------------------------------------------

/-- Trying steps adds what the accepted ones among them say, by induction on the steps: each finds
the nodes that the graph had at first and those added by the steps before it.
-/
theorem extends_foldl_after (cfg : Cfg E) (steps : List (BuildStep E))
    : cfg.Extends (BuildStep.accepted cfg.nodeCount steps) (steps.foldl after cfg) := by
  induction steps generalizing cfg with
  | nil => exact .refl cfg
  | cons step rest ih =>
      rw [List.foldl_cons, BuildStep.accepted]
      split
      case isTrue known =>
        obtain ⟨next, accepted⟩ := attempt_of_known known
        have added := extends_of_attempt accepted
        have later := ih next
        rw [added.nodeCount] at later
        rw [after_of_ok accepted]
        exact added.trans later
      case isFalse unknown =>
        obtain ⟨bad, refused⟩ := attempt_of_not_known unknown
        rw [after_of_error refused]
        exact ih cfg

/-- The graph is the one that the steps describe: its nodes are the entry it began with and one for
each step that adds one, the accepted steps give the rest in order, every node lists the edges at
each of its ends in that order, and only nodes of the graph are named.
-/
structure DescribedBy (cfg : Cfg E) (steps : List (BuildStep E)) : Prop where
  nodeCount : cfg.nodeCount = 1 + (steps.filterMap BuildStep.element?).length
  edges : cfg.edges.toList = (BuildStep.accepted 1 steps).filterMap BuildStep.edge?
  associations
    : cfg.associations.toList = (BuildStep.accepted 1 steps).filterMap BuildStep.association?
  entry : cfg.entry = ((BuildStep.accepted 1 steps).filterMap BuildStep.entry?).getLast?.getD 0
  outgoing
    : ∀ node < cfg.nodeCount,
        cfg.outgoing node = .ok (cfg.edges.toList.filter fun edge => edge.source = node)
  incoming
    : ∀ node < cfg.nodeCount,
        cfg.incoming node = .ok (cfg.edges.toList.filter fun edge => edge.target = node)
  ends : ∀ edge ∈ cfg.edges.toList, edge.source < cfg.nodeCount ∧ edge.target < cfg.nodeCount
  associated : ∀ association ∈ cfg.associations.toList, association.2 < cfg.nodeCount
  entered : cfg.entry < cfg.nodeCount

theorem describedBy_grown (steps : List (BuildStep E)) : (grown steps).DescribedBy steps := by
  have extended : (initial : Cfg E).Extends (BuildStep.accepted 1 steps) (grown steps) :=
    extends_foldl_after initial steps
  have coherent := coherent_grown steps
  refine ⟨?_, extended.edges, extended.associations, extended.entry, ?_, ?_, coherent.ends,
    coherent.associated, coherent.entry⟩
  · rw [extended.nodeCount, BuildStep.filterMap_element?_accepted]
    rfl
  · exact fun node inside => coherent.outgoing_eq inside
  · exact fun node inside => coherent.incoming_eq inside

theorem grown_concat (steps : List (BuildStep E)) (last : BuildStep E)
    : grown (steps ++ [last]) = (grown steps).after last := by
  rw [grown, List.foldl_append]
  rfl

theorem accepted_concat_grown (steps : List (BuildStep E)) (last : BuildStep E)
    : BuildStep.accepted 1 (steps ++ [last])
      = BuildStep.accepted 1 steps
        ++ if last.Known (grown steps).nodeCount then [last] else [] := by
  rw [BuildStep.accepted_concat, (describedBy_grown steps).nodeCount]

/-- Whatever steps have been tried, the graph is the one that they describe. While it has at most
`2 ^ 32` nodes with the new one, adding a node gives the position of the node as its name. A further
step is refused exactly if it names a node that the graph does not have; the refusal names the first
of them and the number of nodes, the graph that the step leaves is the one it found, and the step
does not count as accepted. Every other step does.
-/
theorem grown_describedBy_history (steps : List (BuildStep E))
    : (grown steps).DescribedBy steps
      ∧ (∀ element,
          ((grown steps).addNode element).2.nodeCount ≤ 0x100000000
          → ((grown steps).addNode element).1 = (grown steps).nodeCount
            ∧ ((grown steps).addNode element).2.nodes[((grown steps).addNode element).1]?
              = some { element, outgoing := #[], incoming := #[] })
      ∧ ∀ step,
          ((∃ bad left, (grown steps).attempt step = .error bad left)
            ↔ ∃ node ∈ step.named, (grown steps).nodeCount ≤ node)
          ∧ (∀ bad left, (grown steps).attempt step = .error bad left
            → step.named.find? (fun node => (grown steps).nodeCount ≤ node) = some bad.node
              ∧ bad.nodeCount = (grown steps).nodeCount
              ∧ left = grown steps
              ∧ grown (steps ++ [step]) = left
              ∧ BuildStep.accepted 1 (steps ++ [step]) = BuildStep.accepted 1 steps)
          ∧ ∀ left, (grown steps).attempt step = .ok () left
            → grown (steps ++ [step]) = left
              ∧ BuildStep.accepted 1 (steps ++ [step]) = BuildStep.accepted 1 steps ++ [step] := by
  refine ⟨describedBy_grown steps, ?_, fun step => ⟨?_, ?_, ?_⟩⟩
  · intro element few
    have name : ((grown steps).addNode element).1 = (grown steps).nodeCount := by
      simp only [addNode, nodeCount, Array.size_push] at few
      exact Nat.min_eq_left (Nat.le_of_lt_succ few)
    refine ⟨name, ?_⟩
    rw [name]
    exact Array.getElem?_push_size
  · constructor
    · rintro ⟨bad, left, refused⟩
      have missing := (attempt_eq_error_iff.mp refused).1
      refine ⟨bad.node, List.mem_of_find?_eq_some missing, ?_⟩
      simpa using List.find?_some missing
    · rintro ⟨node, member, outside⟩
      have unknown : ¬step.Known (grown steps).nodeCount :=
        fun known => Nat.not_lt.mpr outside (known node member)
      obtain ⟨bad, refused⟩ := attempt_of_not_known unknown
      exact ⟨bad, grown steps, refused⟩
  · intro bad left refused
    obtain ⟨missing, count, unchanged⟩ := attempt_eq_error_iff.mp refused
    refine ⟨missing, count, unchanged, (grown_concat steps step).trans (after_of_error refused), ?_⟩
    rw [accepted_concat_grown, if_neg (not_known_of_error refused), List.append_nil]
  · intro left taken
    refine ⟨(grown_concat steps step).trans (after_of_ok taken), ?_⟩
    rw [accepted_concat_grown, if_pos (known_of_ok taken)]

/-- A history with an edge from a node to itself and parallel edges. Four steps are refused, one of
them because its node comes later.
-/
def tangledSteps : List (BuildStep Nat) :=
  [
    .addEdge 0 1,
    .addNode (some 4),
    .addEdge 1 1,
    .addEdge 0 1,
    .associate 7 2,
    .addNode none,
    .addEdgeLeaving 0 1 [4],
    .associate 7 2,
    .setEntry 3,
    .setEntry 1,
    .addEdge 9 5
  ]

theorem grown_describedBy_history_tangled
    : (grown tangledSteps).nodeCount = 3
      ∧ (grown tangledSteps).outgoing 0
        = .ok [.plain 0 1, { source := 0, target := 1, exits := [4] }]
      ∧ (grown tangledSteps).incoming 1
        = .ok [.plain 1 1, .plain 0 1, { source := 0, target := 1, exits := [4] }]
      ∧ ((grown tangledSteps).addNode (some 8)).1 = 3
      ∧ ∃ bad, (grown tangledSteps).attempt (.addEdge 1 5) = .error bad (grown tangledSteps)
        ∧ bad.node = 5 ∧ bad.nodeCount = 3 := by
  obtain ⟨described, names, refuses⟩ := grown_describedBy_history tangledSteps
  have count : (grown tangledSteps).nodeCount = 3 := described.nodeCount
  have edges : (grown tangledSteps).edges.toList
      = [.plain 1 1, .plain 0 1, { source := 0, target := 1, exits := [4] }] := described.edges
  refine ⟨count, ?_, ?_, ?_, ?_⟩
  · rw [described.outgoing 0 (by rw [count]; decide), edges]
    rfl
  · rw [described.incoming 1 (by rw [count]; decide), edges]
    rfl
  · rw [(names (some 8) ?_).1, count]
    simp only [addNode, nodeCount, Array.size_push] at count ⊢
    omega
  · obtain ⟨fails, tells, _⟩ := refuses (.addEdge 1 5)
    obtain ⟨bad, left, refused⟩ := fails.mpr ⟨5, by simp [BuildStep.named], by rw [count]; decide⟩
    obtain ⟨missing, counted, rfl, _⟩ := tells bad left refused
    rw [count] at missing counted
    exact ⟨bad, refused, (Option.some.inj missing).symm, counted⟩

end Cfg

end Dataflow
