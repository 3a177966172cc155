import Dataflow.Proofs.Analysis.Convergence

/-! Solving under a union computes the least table of facts on entry that has the facts it starts
from and passes on what leaves every visited node. The order of the visits and of the edges, and
how often a node is visited, therefore leave no trace in the result.
-/

namespace Dataflow

/-- Every row of `lower` is included in the row of `upper` at the same node. -/
def Table.Included (lower upper : Table) : Prop :=
  ∀ node bit, lower.testBit node bit = true → upper.testBit node bit = true

theorem Table.Included.refl (table : Table) : table.Included table :=
  fun _ _ present => present

theorem Table.Included.trans {first second third : Table} (lower : first.Included second)
    (upper : second.Included third)
    : first.Included third :=
  fun node bit present => upper node bit (lower node bit present)

theorem Table.Included.eq_false {lower upper : Table} (included : lower.Included upper)
    {node bit : Nat} (absent : upper.testBit node bit = false)
    : lower.testBit node bit = false := by
  rw [Bool.eq_false_iff] at absent ⊢
  exact fun present => absent (included node bit present)

theorem Table.Included.antisymm {left right : Table} {count width : Nat}
    (sizedLeft : left.Sized count width) (sizedRight : right.Sized count width)
    (forth : left.Included right) (back : right.Included left)
    : left = right :=
  sizedLeft.ext_testBit sizedRight fun node bit =>
    Bool.eq_iff_iff.mpr ⟨forth node bit, back node bit⟩

namespace Analysis

variable {E σ : Type} [Ord E] [Sink σ]

-----------------------------------------------------------------------------------------
-- Columns below a closed column
-----------------------------------------------------------------------------------------

/-- The fact holds wherever the stops would carry it from the nodes at which it holds. -/
def FactRule.Closed (rule : FactRule) (stops : List Stop) (column : Column) : Prop :=
  ∀ stop ∈ stops,
    rule.leaving column stop.node = true → ∀ target ∈ stop.targets, column target = true

theorem FactRule.leaving_mono (rule : FactRule) {lower upper : Column} (below : lower ≤ upper)
    {node : Node} (leaves : rule.leaving lower node = true)
    : rule.leaving upper node = true := by
  simp only [leaving, Bool.and_eq_true, Bool.or_eq_true] at leaves ⊢
  exact ⟨leaves.1.imp_left (below node), leaves.2⟩

/-- A sweep stays below a closed column. By induction on the stops: what leaves a node leaves it in
the closed column as well, so the targets of the visit hold the fact there.
-/
theorem FactRule.sweep_le (rule : FactRule) {stops : List Stop} {upper : Column}
    (closed : rule.Closed stops upper) {column : Column} (below : column ≤ upper)
    : rule.sweep stops column ≤ upper := by
  induction stops generalizing column with
  | nil => exact below
  | cons stop rest ih =>
      refine ih (fun later listed => closed later (List.mem_cons_of_mem stop listed)) ?_
      intro node
      rw [visit_apply]
      split
      case isTrue moved =>
        have leaves := rule.leaving_mono below moved.1
        rw [closed stop List.mem_cons_self leaves node moved.2]
        exact Bool.le_true _
      case isFalse => exact below node

theorem FactRule.iterate_sweep_le (rule : FactRule) {stops : List Stop} {upper : Column}
    (closed : rule.Closed stops upper) {column : Column} (below : column ≤ upper) (rounds : Nat)
    : (rule.sweep stops)^[rounds] column ≤ upper := by
  induction rounds with
  | zero => exact below
  | succ rounds ih =>
      rw [Function.iterate_succ_apply']
      exact rule.sweep_le closed ih

theorem FactRule.advances_iterate (rule : FactRule) (stops : List Stop) (column : Column)
    (rounds : Nat)
    : Advances rule.join column ((rule.sweep stops)^[rounds] column) := by
  induction rounds with
  | zero => exact .refl rule.join column
  | succ rounds ih =>
      rw [Function.iterate_succ_apply']
      exact ih.trans (rule.advances_sweep stops _)

-----------------------------------------------------------------------------------------
-- Solutions
-----------------------------------------------------------------------------------------

/-- A table of facts on entry that includes those of the analysis and passes on what leaves every
visited node to the nodes that it feeds.
-/
structure Solution (analysis : Analysis E) (table : Table) : Prop where
  sized : table.Sized analysis.graph.nodeCount analysis.width
  above : analysis.onEntry.Included table
  closed
    : ∀ source target,
        analysis.graph.Feeds analysis.direction source target
        → ∀ bit,
            ((table.testBit source bit || analysis.gens.testBit source bit)
                && !analysis.executionKills.testBit source bit
                && !analysis.scopeEndKills.testBit source bit) = true
            → table.testBit target bit = true

theorem leaving_factRule (analysis : Analysis E) (table : Table) (node bit : Nat)
    : (analysis.factRule bit).leaving (factColumn table bit) node
      = ((table.testBit node bit || analysis.gens.testBit node bit)
        && !analysis.executionKills.testBit node bit
        && !analysis.scopeEndKills.testBit node bit) := by
  simp only [FactRule.leaving, factRule, factColumn, killed, Bool.not_or, Bool.and_assoc]

theorem Solution.closed_column {analysis : Analysis E} {table : Table}
    (solution : analysis.Solution table) (bit : Nat)
    : (analysis.factRule bit).Closed (stopsOf analysis.graph analysis.direction)
        (factColumn table bit) := by
  intro stop listed leaves target reached
  rw [leaving_factRule] at leaves
  have feeds := feeds_iff_stop.mpr ⟨stop, listed, rfl, reached⟩
  exact solution.closed stop.node target feeds bit leaves

/-- What a run reaches under a union is the least solution. Witness: nothing is dropped on the way
and the last sweep is quiet, so it is a solution; every sweep stays below any other.
-/
theorem Reaches.least {analysis : Analysis E} (union : analysis.merge.join = .union) {rounds : Nat}
    {final : Table}
    (reaches : Reaches analysis (stopsOf analysis.graph analysis.direction) analysis.onEntry rounds
      final)
    : analysis.Solution final ∧ ∀ table, analysis.Solution table → final.Included table := by
  have settles : analysis.merge.join.settled = true := by rw [union]; rfl
  refine ⟨⟨reaches.sized, ?_, ?_⟩, ?_⟩
  · intro node bit present
    have advances := (analysis.factRule bit).advances_iterate
      (stopsOf analysis.graph analysis.direction) (factColumn analysis.onEntry bit) rounds
    rw [← reaches.columns bit] at advances
    have held : factColumn analysis.onEntry bit node = analysis.merge.join.settled :=
      present.trans settles.symm
    exact (advances.settled held).trans settles
  · intro source target feeds bit leaves
    rw [← leaving_factRule] at leaves
    have quiet : analysis.Quiet final := reaches.quiet
    exact (quiet.settled feeds leaves).trans settles
  · intro table solution node bit present
    have start : factColumn analysis.onEntry bit ≤ factColumn table bit :=
      fun other => Bool.le_iff_imp.mpr (solution.above other bit)
    have below :=
      (analysis.factRule bit).iterate_sweep_le (solution.closed_column bit) start rounds
    rw [← reaches.columns bit] at below
    exact Bool.le_iff_imp.mp (below node) present

/-- Whatever holds on entry or is passed on in `analysis` does so in `other` as well: no fewer facts
are on entry or established there, no more are killed, and facts flow along every pair of nodes that
they flow along in `analysis`.
-/
structure Within {F : Type} [Ord F] (analysis : Analysis E) (other : Analysis F) : Prop where
  nodeCount : other.graph.nodeCount = analysis.graph.nodeCount
  width : other.width = analysis.width
  onEntry : analysis.onEntry.Included other.onEntry
  gens : analysis.gens.Included other.gens
  scopeEndKills : other.scopeEndKills.Included analysis.scopeEndKills
  executionKills : other.executionKills.Included analysis.executionKills
  feeds
    : ∀ source target,
        analysis.graph.Feeds analysis.direction source target
        → other.graph.Feeds other.direction source target

/-- A solution of the wider analysis is one of the narrower. Witness: what leaves a node in the
narrower one leaves it in the wider one too, and so has been passed on.
-/
theorem Solution.of_within {F : Type} [Ord F] {analysis : Analysis E} {other : Analysis F}
    (within : analysis.Within other) {table : Table} (solution : other.Solution table)
    : analysis.Solution table := by
  refine ⟨?_, within.onEntry.trans solution.above, ?_⟩
  · rw [← within.nodeCount, ← within.width]
    exact solution.sized
  · intro source target feeds bit leaves
    apply solution.closed source target (within.feeds source target feeds) bit
    simp only [Bool.and_eq_true, Bool.or_eq_true, Bool.not_eq_true'] at leaves ⊢
    obtain ⟨⟨arrives, executed⟩, ended⟩ := leaves
    exact ⟨⟨arrives.imp_right (within.gens source bit), within.executionKills.eq_false executed⟩,
      within.scopeEndKills.eq_false ended⟩

/-- What a run of the narrower analysis reaches is included in what a run of the wider one reaches,
since that is a solution of both.
-/
theorem Reaches.included_of_within {F : Type} [Ord F] {analysis : Analysis E} {other : Analysis F}
    (within : analysis.Within other) (union : analysis.merge.join = .union)
    (otherUnion : other.merge.join = .union) {rounds otherRounds : Nat} {final otherFinal : Table}
    (reaches : Reaches analysis (stopsOf analysis.graph analysis.direction) analysis.onEntry rounds
      final)
    (otherReaches : Reaches other (stopsOf other.graph other.direction) other.onEntry otherRounds
      otherFinal)
    : final.Included otherFinal :=
  (reaches.least union).2 otherFinal ((otherReaches.least otherUnion).1.of_within within)

/-- Two analyses with the same tables and the same feeding pairs have the same solutions. -/
theorem Solution.transport {F : Type} [Ord F] {analysis : Analysis E} {other : Analysis F}
    (full : analysis.Sized) (otherFull : other.Sized) (positive : 0 < analysis.bits)
    (gens : other.gens = analysis.gens) (scopeEnd : other.scopeEndKills = analysis.scopeEndKills)
    (execution : other.executionKills = analysis.executionKills)
    (onEntry : other.onEntry = analysis.onEntry)
    (feeds : ∀ source target, other.graph.Feeds other.direction source target
      ↔ analysis.graph.Feeds analysis.direction source target)
    {table : Table} (solution : analysis.Solution table)
    : other.Solution table := by
  -- Equal tables fix the width and, since rows have words, the number of nodes.
  have widths : analysis.width = other.width := by
    rw [← full.onEntry.width_eq, ← onEntry, otherFull.onEntry.width_eq]
  have counts : analysis.graph.nodeCount = other.graph.nodeCount := by
    have sizes : analysis.graph.nodeCount * analysis.width
        = other.graph.nodeCount * analysis.width := by
      rw [← full.onEntry.size_eq, ← onEntry, otherFull.onEntry.size_eq, widths]
    have words : 0 < analysis.width := by
      simp only [width, wordsFor, wordBits]
      omega
    exact Nat.eq_of_mul_eq_mul_right words sizes
  exact solution.of_within {
    nodeCount := counts
    width := widths
    onEntry := onEntry ▸ .refl _
    gens := gens ▸ .refl _
    scopeEndKills := scopeEnd ▸ .refl _
    executionKills := execution ▸ .refl _
    feeds := fun source target => (feeds source target).mp
  }

/-- Solving under a union changes the facts on entry alone, to the least solution. A run over
another graph from the same tables ends with the same facts on entry whenever the sweeps of both
carry facts between the same pairs of nodes, in whatever order.
-/
theorem solve_least_solution {analysis : Analysis E} (full : analysis.Sized)
    (inRange : analysis.graph.InRange) (positive : 0 < analysis.bits)
    (union : analysis.merge.join = .union) (mask : Mask) (sink : σ)
    : ∃ final tally heard,
        analysis.solve mask sink = .ok ({ analysis with onEntry := final }, tally, heard)
        ∧ analysis.Solution final
        ∧ (∀ table, analysis.Solution table → final.Included table)
        ∧ ∀ (F τ : Type) [Ord F] [Sink τ] (other : Analysis F) (again : Mask) (listener : τ),
            other.Sized
            → other.graph.InRange
            → 0 < other.bits
            → other.merge.join = .union
            → other.gens = analysis.gens
            → other.scopeEndKills = analysis.scopeEndKills
            → other.executionKills = analysis.executionKills
            → other.onEntry = analysis.onEntry
            → (∀ source target, other.graph.Feeds other.direction source target
              ↔ analysis.graph.Feeds analysis.direction source target)
            → ∃ otherTally reheard,
                other.solve again listener
                  = .ok ({ other with onEntry := final }, otherTally, reheard) := by
  obtain ⟨final, tally, heard, rounds, solved, reaches, _⟩ :=
    solve_reaches full inRange positive mask sink
  obtain ⟨solution, least⟩ := reaches.least union
  refine ⟨final, tally, heard, solved, solution, least, ?_⟩
  intro F τ _ _ other again listener otherFull otherInRange otherPositive otherUnion gens scopeEnd
    execution onEntry feeds
  obtain ⟨otherFinal, otherTally, reheard, otherRounds, otherSolved, otherReaches, _⟩ :=
    solve_reaches otherFull otherInRange otherPositive again listener
  obtain ⟨otherSolution, otherLeast⟩ := otherReaches.least otherUnion
  have forth : other.Solution final :=
    solution.transport full otherFull positive gens scopeEnd execution onEntry feeds
  have back : analysis.Solution otherFinal :=
    otherSolution.transport otherFull full otherPositive gens.symm scopeEnd.symm execution.symm
      onEntry.symm fun source target => (feeds source target).symm
  have same : otherFinal = final :=
    Table.Included.antisymm back.sized solution.sized (otherLeast final forth)
      (least otherFinal back)
  exact ⟨otherTally, reheard, by rw [otherSolved, same]⟩

/-- The analysis of `selfFeeding` over a graph with the same edges and visited nodes, both listed in
another order.
-/
def selfFeedingReordered : Analysis Nat :=
  {
    selfFeeding .union with
    graph := .listed 3 [1, 2, 0] [.plain 1 2, .plain 1 1, .plain 0 1, .plain 1 0, .plain 1 1] []
  }

theorem selfFeedingReordered_feeds (source target : Node)
    : selfFeedingReordered.graph.Feeds .forward source target
      ↔ (selfFeeding .union).graph.Feeds .forward source target := by
  have visits : source ∈ selfFeedingReordered.graph.visited
      ↔ source ∈ (selfFeeding .union).graph.visited := by
    change source ∈ [1, 2, 0] ↔ source ∈ [2, 0, 1, 0]
    simp only [List.mem_cons, List.not_mem_nil, or_false]
    tauto
  refine (and_congr_left fun _ => visits).trans (and_congr_right fun visited => ?_)
  change source ∈ [2, 0, 1, 0] at visited
  simp only [List.mem_cons, List.not_mem_nil, or_false] at visited
  rcases visited with rfl | rfl | rfl | rfl
  · exact Iff.rfl
  · exact Iff.rfl
  · change target ∈ [2, 1, 0, 1] ↔ target ∈ [0, 1, 2]
    simp only [List.mem_cons, List.not_mem_nil, or_false]
    tauto
  · exact Iff.rfl

theorem solve_least_solution_selfFeeding
    : ∃ final tally heard otherTally reheard,
        (selfFeeding .union).solve .none Silent.silent
          = .ok ({ selfFeeding .union with onEntry := final }, tally, heard)
        ∧ selfFeedingReordered.solve .none Silent.silent
          = .ok ({ selfFeedingReordered with onEntry := final }, otherTally, reheard)
        ∧ (selfFeeding .union).Solution final
        ∧ ∀ table, (selfFeeding .union).Solution table → final.Included table := by
  obtain ⟨final, tally, heard, solved, solution, least, others⟩ :=
    solve_least_solution (selfFeeding_sized .union) (selfFeeding_inRange .union) (by decide) rfl
      .none Silent.silent
  obtain ⟨otherTally, reheard, otherSolved⟩ :=
    others Nat Silent selfFeedingReordered .none Silent.silent
      { selfFeeding_sized .union with }
      (GraphView.listed_inRange (by decide) (by decide) (by decide)) (by decide) rfl rfl rfl rfl rfl
      selfFeedingReordered_feeds
  exact ⟨final, tally, heard, otherTally, reheard, solved, otherSolved, solution, least⟩

end Analysis

end Dataflow
