import Dataflow.Proofs.Analysis.LeastSolution
import Dataflow.Proofs.Analysis.Recording
import Dataflow.Proofs.Graph.Reachable

/-! Solving a freshly recorded analysis finds the facts that some path carries. A fact is on entry
to a node exactly when a path of edges leads there, along the edges or against them, from a node
that establishes it, and no node on the way kills it.
-/

namespace Dataflow.Analysis

variable {E σ : Type} [Ord E] [Sink σ]

-----------------------------------------------------------------------------------------
-- Facts carried from feeder to feeder
-----------------------------------------------------------------------------------------

/-- The fact reaches a node from one that establishes it, over nodes that feed one another and do
not kill it.
-/
inductive Carried (analysis : Analysis E) (bit : Nat) : Node → Prop
  | established {source target : Node}
    (feeds : analysis.graph.Feeds analysis.direction source target)
    (here : analysis.gens.testBit source bit = true) (kept : analysis.killed bit source = false)
    : analysis.Carried bit target
  | further {source target : Node} (before : analysis.Carried bit source)
    (feeds : analysis.graph.Feeds analysis.direction source target)
    (kept : analysis.killed bit source = false)
    : analysis.Carried bit target

open Classical in
/-- The nodes that the fact is carried to are closed under what leaves them. -/
theorem closed_carried (analysis : Analysis E) (bit : Nat)
    : (analysis.factRule bit).Closed (stopsOf analysis.graph analysis.direction)
        (fun node => decide (analysis.Carried bit node)) := by
  intro stop listed leaves target reached
  have feeds := feeds_iff_stop.mpr ⟨stop, listed, rfl, reached⟩
  simp only [FactRule.leaving, factRule, Bool.and_eq_true, Bool.or_eq_true, decide_eq_true_eq,
    Bool.not_eq_true'] at leaves
  obtain ⟨held, kept⟩ := leaves
  rw [decide_eq_true_eq]
  rcases held with carried | here
  · exact .further carried feeds kept
  · exact .established feeds here kept

/-- A fact that is on entry nowhere at first ends up on entry where it is carried to. Witness: no
sweep leaves the closed set of those nodes, and a solution passes the fact on along every step.
-/
theorem Reaches.testBit_iff_carried {analysis : Analysis E} (union : analysis.merge.join = .union)
    {rounds : Nat} {final : Table}
    (reaches : Reaches analysis (stopsOf analysis.graph analysis.direction) analysis.onEntry rounds
      final)
    {bit : Nat} (absent : ∀ node, analysis.onEntry.testBit node bit = false) (node : Node)
    : final.testBit node bit = true ↔ analysis.Carried bit node := by
  constructor
  · intro present
    classical
    have start : factColumn analysis.onEntry bit
        ≤ fun other => decide (analysis.Carried bit other) := by
      intro other
      rw [factColumn, absent other]
      exact Bool.false_le _
    have below :=
      (analysis.factRule bit).iterate_sweep_le (analysis.closed_carried bit) start rounds
    rw [← reaches.columns bit] at below
    exact of_decide_eq_true (Bool.le_iff_imp.mp (below node) present)
  · intro carried
    have solution := (reaches.least union).1
    have passes : ∀ {source target : Node},
        analysis.graph.Feeds analysis.direction source target
        → (final.testBit source bit || analysis.gens.testBit source bit) = true
        → analysis.killed bit source = false
        → final.testBit target bit = true := by
      intro source target feeds held kept
      apply solution.closed source target feeds bit
      rw [← leaving_factRule, FactRule.leaving, Bool.and_eq_true]
      exact ⟨held, congrArg not kept⟩
    induction carried with
    | established feeds here kept => exact passes feeds (by rw [here, Bool.or_true]) kept
    | further _ feeds kept ih => exact passes feeds (by rw [ih, Bool.true_or]) kept

-----------------------------------------------------------------------------------------
-- Paths of edges
-----------------------------------------------------------------------------------------

/-- A path along the edges that brings the fact to `node`: its first node is reached from the entry
and establishes the fact, and no node before the last kills it.
-/
structure ForwardPath (cfg : Cfg E) (analysis : Analysis E) (bit : Nat) (node : Node) (length : Nat)
    (path : Nat → Node)
    : Prop where
  nonempty : 1 ≤ length
  last : path length = node
  edges : ∀ index < length, cfg.HasEdge (path index) (path (index + 1))
  reachable : cfg.Reachable cfg.entry (path 0)
  established : analysis.gens.testBit (path 0) bit = true
  kept : ∀ index < length, analysis.killed bit (path index) = false

/-- A path along the edges from `node` on that the fact is brought back over: its second node is
reached from the entry, its last establishes the fact, and no node after the first kills it.
-/
structure BackwardPath (cfg : Cfg E) (analysis : Analysis E) (bit : Nat) (node : Node)
    (length : Nat) (path : Nat → Node)
    : Prop where
  nonempty : 1 ≤ length
  first : path 0 = node
  edges : ∀ index < length, cfg.HasEdge (path index) (path (index + 1))
  reachable : cfg.Reachable cfg.entry (path 1)
  established : analysis.gens.testBit (path length) bit = true
  kept : ∀ index, 1 ≤ index → index ≤ length → analysis.killed bit (path index) = false

/-- Some path carries the fact to the node in the direction of flow. -/
def CarriedByPath (cfg : Cfg E) (analysis : Analysis E) (bit : Nat) (node : Node) : Prop :=
  match analysis.direction with
  | .forward => ∃ length path, ForwardPath cfg analysis bit node length path
  | .backward => ∃ length path, BackwardPath cfg analysis bit node length path

section Paths

variable {cfg : Cfg E} {analysis : Analysis E} {bit : Nat}

theorem ForwardPath.reachable_at {node : Node} {length : Nat} {path : Nat → Node}
    (carrying : ForwardPath cfg analysis bit node length path) {index : Nat}
    (inside : index ≤ length)
    : cfg.Reachable cfg.entry (path index) := by
  induction index with
  | zero => exact carrying.reachable
  | succ index ih => exact (ih (by omega)).tail (carrying.edges index (by omega))

theorem carried_of_forwardPath (coherent : cfg.Coherent) (graph : analysis.graph = cfg.toView)
    (forward : analysis.direction = .forward) {node : Node} {length : Nat} {path : Nat → Node}
    (carrying : ForwardPath cfg analysis bit node length path)
    : analysis.Carried bit node := by
  have feeds : ∀ index < length,
      analysis.graph.Feeds analysis.direction (path index) (path (index + 1)) := by
    intro index inside
    rw [graph, forward]
    exact (coherent.feeds_forward_iff _ _).mpr
      ⟨carrying.reachable_at (by omega), carrying.edges index inside⟩
  have along : ∀ index < length, analysis.Carried bit (path (index + 1)) := by
    intro index inside
    induction index with
    | zero =>
        exact .established (feeds 0 inside) carrying.established (carrying.kept 0 inside)
    | succ index ih =>
        exact .further (ih (by omega)) (feeds (index + 1) inside) (carrying.kept (index + 1) inside)
  have arrived := along (length - 1) (Nat.sub_lt carrying.nonempty Nat.one_pos)
  rwa [Nat.sub_add_cancel carrying.nonempty, carrying.last] at arrived

/-- A path grows at its end with every further feeder. -/
theorem forwardPath_of_carried (coherent : cfg.Coherent) (graph : analysis.graph = cfg.toView)
    (forward : analysis.direction = .forward) {node : Node} (carried : analysis.Carried bit node)
    : ∃ length path, ForwardPath cfg analysis bit node length path := by
  induction carried with
  | @established source target feeds here kept =>
      rw [graph, forward, coherent.feeds_forward_iff] at feeds
      refine ⟨1, fun index => if index = 0 then source else target, ?_⟩
      refine ⟨Nat.le_refl 1, rfl, ?_, feeds.1, here, ?_⟩
      · intro index inside
        cases Nat.lt_one_iff.mp inside
        exact feeds.2
      · intro index inside
        cases Nat.lt_one_iff.mp inside
        exact kept
  | @further source target _ feeds kept ih =>
      rw [graph, forward, coherent.feeds_forward_iff] at feeds
      obtain ⟨length, path, carrying⟩ := ih
      have old : ∀ index ≤ length,
          (if index ≤ length then path index else target) = path index :=
        fun index inside => if_pos inside
      refine ⟨length + 1, fun index => if index ≤ length then path index else target, ?_⟩
      refine ⟨by omega, if_neg (by omega), ?_, ?_, ?_, ?_⟩
      · intro index inside
        simp only [old index (by omega)]
        by_cases within : index + 1 ≤ length
        · rw [old (index + 1) within]
          exact carrying.edges index within
        · rw [if_neg within, show index = length by omega, carrying.last]
          exact feeds.2
      · simpa only [old 0 (Nat.zero_le _)] using carrying.reachable
      · simpa only [old 0 (Nat.zero_le _)] using carrying.established
      · intro index inside
        simp only [old index (by omega)]
        by_cases within : index < length
        · exact carrying.kept index within
        · rw [show index = length by omega, carrying.last]
          exact kept

/-- A path shrinks at its start: the rest of it carries the fact to the second node. -/
theorem carried_of_backwardPath (coherent : cfg.Coherent) (graph : analysis.graph = cfg.toView)
    (backward : analysis.direction = .backward) {node : Node} {length : Nat} {path : Nat → Node}
    (carrying : BackwardPath cfg analysis bit node length path)
    : analysis.Carried bit node := by
  induction length generalizing node path with
  | zero => exact absurd carrying.nonempty (Nat.not_succ_le_zero 0)
  | succ length ih =>
      have feeds : analysis.graph.Feeds analysis.direction (path 1) node := by
        rw [graph, backward, coherent.feeds_backward_iff, ← carrying.first]
        exact ⟨carrying.reachable, carrying.edges 0 carrying.nonempty⟩
      have kept := carrying.kept 1 (Nat.le_refl 1) carrying.nonempty
      rcases Nat.eq_zero_or_pos length with rfl | longer
      · exact .established feeds carrying.established kept
      · have rest : BackwardPath cfg analysis bit (path 1) length fun index => path (index + 1) := {
          nonempty := longer
          first := rfl
          edges := fun index inside => carrying.edges (index + 1) (Nat.succ_lt_succ inside)
          reachable := carrying.reachable.tail (carrying.edges 1 (Nat.succ_lt_succ longer))
          established := carrying.established
          kept := fun index _ inside => carrying.kept (index + 1) (by omega) (by omega)
        }
        exact .further (ih rest) feeds kept

/-- A path grows at its start with every further feeder. -/
theorem backwardPath_of_carried (coherent : cfg.Coherent) (graph : analysis.graph = cfg.toView)
    (backward : analysis.direction = .backward) {node : Node} (carried : analysis.Carried bit node)
    : ∃ length path, BackwardPath cfg analysis bit node length path := by
  induction carried with
  | @established source target feeds here kept =>
      rw [graph, backward, coherent.feeds_backward_iff] at feeds
      refine ⟨1, fun index => if index = 0 then target else source, ?_⟩
      refine ⟨Nat.le_refl 1, rfl, ?_, feeds.1, here, ?_⟩
      · intro index inside
        cases Nat.lt_one_iff.mp inside
        exact feeds.2
      · intro index positive _
        rw [if_neg (Nat.ne_of_gt positive)]
        exact kept
  | @further source target _ feeds kept ih =>
      rw [graph, backward, coherent.feeds_backward_iff] at feeds
      obtain ⟨length, path, carrying⟩ := ih
      refine ⟨length + 1, fun index => if index = 0 then target else path (index - 1), ?_⟩
      refine ⟨by omega, rfl, ?_, ?_, ?_, ?_⟩
      · intro index inside
        cases index with
        | zero => simpa [carrying.first] using feeds.2
        | succ index => simpa using carrying.edges index (by omega)
      · simpa [carrying.first] using feeds.1
      · simpa using carrying.established
      · intro index positive inside
        obtain ⟨before, rfl⟩ := Nat.exists_eq_succ_of_ne_zero (Nat.ne_of_gt positive)
        simp only [Nat.succ_ne_zero, if_false, Nat.succ_sub_one]
        cases before with
        | zero => rw [carrying.first]; exact kept
        | succ before => exact carrying.kept (before + 1) (by omega) (by omega)

theorem carried_iff_path (coherent : cfg.Coherent) (graph : analysis.graph = cfg.toView)
    (node : Node)
    : analysis.Carried bit node ↔ CarriedByPath cfg analysis bit node := by
  unfold CarriedByPath
  cases direction : analysis.direction with
  | forward =>
      exact ⟨forwardPath_of_carried coherent graph direction,
        fun ⟨_, _, carrying⟩ => carried_of_forwardPath coherent graph direction carrying⟩
  | backward =>
      exact ⟨backwardPath_of_carried coherent graph direction,
        fun ⟨_, _, carrying⟩ => carried_of_backwardPath coherent graph direction carrying⟩

end Paths

/-- Over any graph that can be grown, whatever has been recorded on a fresh analysis under a union,
solving succeeds and puts a fact on entry to a node exactly when a path carries it there.
Recordings whose facts fit the rows can always be made.
-/
theorem solve_iff_carriedByPath [Std.TransOrd E] [Std.LawfulEqOrd E] [DecidableEq E]
    (steps : List (BuildStep E)) {bits : Nat} (positive : 0 < bits) (direction : Direction)
    (recordings : List (Recording E))
    : ((∀ recording ∈ recordings, recording.Fits (wordsFor bits))
        → ∃ recorded,
            (initial (Cfg.grown steps).toView .union bits direction).recordAll recordings
              = .ok recorded)
      ∧ ∀ recorded,
          (initial (Cfg.grown steps).toView .union bits direction).recordAll recordings
            = .ok recorded
          → ∀ (mask : Mask) (sink : σ), ∃ solved tally heard,
              recorded.solve mask sink = .ok (solved, tally, heard)
              ∧ ∀ node < (Cfg.grown steps).nodeCount,
                  ∃ row, solved.onEntry.row node = .ok row
                    ∧ ∀ bit < wordBits * wordsFor bits,
                        (row.testBit bit = true
                          ↔ CarriedByPath (Cfg.grown steps) recorded bit node) := by
  have coherent := Cfg.coherent_grown steps
  have inRange := coherent.inRange
  have full := sized_initial (Cfg.grown steps).toView .union bits direction
  refine ⟨recordAll_succeeds full inRange recordings, fun recorded made mask sink => ?_⟩
  have prepares := prepares_of_recordAll full made
  obtain ⟨final, tally, heard, rounds, solved, reaches, _⟩ :=
    solve_reaches prepares.sized (prepares.graph ▸ inRange) (prepares.bits ▸ positive) mask sink
  refine ⟨_, tally, heard, solved, ?_⟩
  intro node inside
  have stored : node < recorded.graph.nodeCount := prepares.graph ▸ inside
  obtain ⟨row, found, _⟩ := reaches.sized.row stored
  refine ⟨row, found, fun bit _ => ?_⟩
  have absent : ∀ other, recorded.onEntry.testBit other bit = false := by
    intro other
    rw [prepares.onEntry]
    exact Table.testBit_filled_zero _ _ other bit
  have union : recorded.merge.join = .union := by rw [prepares.merge]; rfl
  rw [← Table.testBit_of_row found, reaches.testBit_iff_carried union absent]
  exact carried_iff_path coherent prepares.graph node

/-- A loop through nodes 1 and 2 behind the entry, left from node 2. The edge from node 9 is
refused.
-/
def loopSteps : List (BuildStep Nat) :=
  [
    .addNode (some 1),
    .addNode (some 2),
    .addNode none,
    .addEdge 0 1,
    .addEdge 1 2,
    .addEdge 2 1,
    .addEdge 9 1,
    .addEdgeLeaving 2 3 [1]
  ]

/-- Fact 35 is established in the loop, and fact 3 ends with the scope that its exit leaves. -/
def loopRecordings : List (Recording Nat) :=
  [.gen 2 35, .kill .scopeEnd 1 3, .flowExits]

theorem solve_iff_carriedByPath_loop
    : 0 < 40 ∧ (∀ recording ∈ loopRecordings, recording.Fits (wordsFor 40))
      ∧ ∃ recorded solved tally heard row,
          (initial (Cfg.grown loopSteps).toView .union 40 .forward).recordAll loopRecordings
            = .ok recorded
          ∧ recorded.solve .none Silent.silent = .ok (solved, tally, heard)
          ∧ solved.onEntry.row 2 = .ok row ∧ row.testBit 35 = true := by
  have fit : ∀ recording ∈ loopRecordings, recording.Fits (wordsFor 40) := by decide
  obtain ⟨succeeds, solves⟩ :=
    solve_iff_carriedByPath (σ := Silent) loopSteps (by decide : 0 < 40) .forward loopRecordings
  obtain ⟨recorded, made⟩ := succeeds fit
  obtain ⟨solved, tally, heard, ran, rows⟩ := solves recorded made .none Silent.silent
  obtain ⟨row, found, carries⟩ := rows 2 (by decide +kernel)
  refine ⟨by decide, fit, recorded, solved, tally, heard, row, made, ran, found, ?_⟩
  rw [carries 35 (by decide), CarriedByPath,
    (prepares_of_recordAll (sized_initial _ _ _ _) made).direction]
  have facts : (match (initial (Cfg.grown loopSteps).toView .union 40 .forward).recordAll
        loopRecordings with
      | .ok recorded =>
          recorded.gens.testBit 2 35 && !recorded.killed 35 2 && !recorded.killed 35 1
      | .error _ => false) = true := by
    decide +kernel
  simp only [made, Bool.and_eq_true, Bool.not_eq_true'] at facts
  obtain ⟨⟨established, keptAtTwo⟩, keptAtOne⟩ := facts
  have enters : (Cfg.grown loopSteps).HasEdge 0 1 := by decide +kernel
  have forth : (Cfg.grown loopSteps).HasEdge 1 2 := by decide +kernel
  have back : (Cfg.grown loopSteps).HasEdge 2 1 := by decide +kernel
  -- The path goes once round the loop: from node 2 back to node 1 and on to node 2.
  refine ⟨2, fun index => if index = 1 then 1 else 2, by decide, rfl, ?_, ?_, established, ?_⟩
  · intro index inside
    rcases Nat.le_one_iff_eq_zero_or_eq_one.mp (Nat.le_of_lt_succ inside) with rfl | rfl
    · exact back
    · exact forth
  · exact (Relation.ReflTransGen.single enters).tail forth
  · intro index inside
    rcases Nat.le_one_iff_eq_zero_or_eq_one.mp (Nat.le_of_lt_succ inside) with rfl | rfl
    · exact keptAtTwo
    · exact keptAtOne

end Dataflow.Analysis
