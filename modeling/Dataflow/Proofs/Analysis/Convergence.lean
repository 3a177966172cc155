import Dataflow.Proofs.Analysis.Run

/-! What holds when a run has ended, for either join. No more sweeps than nodes change anything,
whatever the width of the rows; the facts on entry then agree with what every visited node sends
on, and solving again finds nothing left to do.
-/

namespace Dataflow.Analysis

variable {E σ : Type} [Ord E] [Sink σ]

-----------------------------------------------------------------------------------------
-- Tables that a further sweep leaves alone
-----------------------------------------------------------------------------------------

/-- A sweep from the table moves no fact. -/
def Quiet (analysis : Analysis E) (table : Table) : Prop :=
  ∀ bit,
    (analysis.factRule bit).sweep (stopsOf analysis.graph analysis.direction) (factColumn table bit)
      = factColumn table bit

theorem Quiet.settled {analysis : Analysis E} {table : Table} (quiet : analysis.Quiet table)
    {source target : Node} (feeds : analysis.graph.Feeds analysis.direction source target)
    {bit : Nat} (leaves : (analysis.factRule bit).leaving (factColumn table bit) source = true)
    : table.testBit target bit = analysis.merge.join.settled := by
  obtain ⟨stop, listed, rfl, reached⟩ := feeds_iff_stop.mp feeds
  have still := (FactRule.sweep_eq_self_iff _ _ _).mp (quiet bit) stop listed
  exact (FactRule.visit_eq_self_iff _ _ _).mp still leaves target reached

/-- In rows without words no fact can leave a node. -/
theorem quiet_of_no_facts {analysis : Analysis E} (full : analysis.Sized) (none : analysis.bits = 0)
    {table : Table} (sized : table.Sized analysis.graph.nodeCount analysis.width)
    : analysis.Quiet table := by
  intro bit
  have noWords : wordBits * analysis.width ≤ bit := by simp [width, none, wordsFor, wordBits]
  exact sweep_factColumn_of_le full noWords sized _

/-- Every run over full tables and a graph in range ends, that of an analysis of no facts at once.
-/
theorem solve_ends {analysis : Analysis E} (full : analysis.Sized)
    (inRange : analysis.graph.InRange) (mask : Mask) (sink : σ)
    : ∃ final tally heard rounds,
        analysis.solve mask sink = .ok ({ analysis with onEntry := final }, tally, heard)
        ∧ Reaches analysis (stopsOf analysis.graph analysis.direction) analysis.onEntry rounds
            final := by
  by_cases none : analysis.bits = 0
  · refine ⟨analysis.onEntry, _, sink, 0, solve_of_no_facts none mask sink, full.onEntry, ?_, ?_,
      ?_⟩
    · exact fun _ => rfl
    · exact fun index impossible => absurd impossible (Nat.not_lt_zero index)
    · exact quiet_of_no_facts full none full.onEntry
  · obtain ⟨final, tally, heard, rounds, solved, reaches, _⟩ :=
      solve_reaches full inRange (Nat.pos_of_ne_zero none) mask sink
    exact ⟨final, tally, heard, rounds, solved, reaches⟩

/-- Where a run has ended is where its sweeps lead, since every run ends in one way. -/
theorem reaches_of_solve {analysis : Analysis E} (full : analysis.Sized)
    (inRange : analysis.graph.InRange) {mask : Mask} {sink heard : σ} {final : Table}
    {tally : Tally}
    (solved : analysis.solve mask sink = .ok ({ analysis with onEntry := final }, tally, heard))
    : ∃ rounds,
        Reaches analysis (stopsOf analysis.graph analysis.direction) analysis.onEntry rounds
          final := by
  obtain ⟨ended, _, _, rounds, ran, reaches⟩ := solve_ends full inRange mask sink
  rw [solved] at ran
  cases ran
  exact ⟨rounds, reaches⟩

/-- Merging what leaves a node into the row of a node that it feeds gives the row back. Witness: a
fact that arrives has already settled there, and a fact that does not is not touched.
-/
theorem Quiet.merge_transfer {analysis : Analysis E} (full : analysis.Sized)
    (inRange : analysis.graph.InRange) {table : Table}
    (sized : table.Sized analysis.graph.nodeCount analysis.width) (quiet : analysis.Quiet table)
    {source target : Node} (feeds : analysis.graph.Feeds analysis.direction source target)
    : ∃ held leaving arrived, table.row source = .ok held
      ∧ analysis.transfer source held = .ok leaving
      ∧ table.row target = .ok arrived
      ∧ analysis.merge.join.rows arrived leaving = .ok arrived
      ∧ (analysis.merge.join = .subtract
        → ∀ bit, ¬(arrived.testBit bit = true ∧ leaving.testBit bit = true)) := by
  obtain ⟨sourceInside, targetInside⟩ := inRange.feeds_lt feeds
  obtain ⟨held, found, heldLength⟩ := sized.row sourceInside
  obtain ⟨leaving, transferred, leavingLength, law⟩ := full.transfer sourceInside heldLength
  obtain ⟨arrived, foundTarget, arrivedLength⟩ := sized.row targetInside
  obtain ⟨merged, joined, mergedLength⟩ :=
    rows_of_length_eq analysis.merge.join (arrivedLength.trans leavingLength.symm)
  have settled : ∀ bit, leaving.testBit bit = true
      → arrived.testBit bit = analysis.merge.join.settled := by
    intro bit leaves
    rw [← Table.testBit_of_row foundTarget]
    apply quiet.settled feeds
    rwa [law bit, ← Table.testBit_of_row found] at leaves
  have same : merged = arrived := by
    apply Row.ext_testBit mergedLength
    intro bit
    rw [Join.testBit_of_rows joined, Join.bit_eq_ite]
    split
    case isTrue leaves => exact (settled bit leaves).symm
    case isFalse => rfl
  refine ⟨held, leaving, arrived, found, transferred, foundTarget, same ▸ joined, ?_⟩
  rintro subtracts bit ⟨present, leaves⟩
  rw [settled bit leaves, subtracts] at present
  cases present

/-- A run from a quiet table is one sweep without updates. Witness: a sweep that moved a fact would
have to be the first, and the updates are bounded by the facts that are no longer open.
-/
theorem solve_of_quiet {analysis : Analysis E} (full : analysis.Sized)
    (inRange : analysis.graph.InRange) (positive : 0 < analysis.bits)
    (quiet : analysis.Quiet analysis.onEntry) (mask : Mask) (sink : σ)
    : ∃ heard, analysis.solve mask sink = .ok (analysis, { sweeps := 1, updates := 0 }, heard) := by
  obtain ⟨final, tally, heard, rounds, solved, reaches, sweeps, _, budget⟩ :=
    solve_reaches full inRange positive mask sink
  have noRounds : rounds = 0 := by
    by_contra some
    obtain ⟨bit, moved⟩ := reaches.moving 0 (Nat.pos_of_ne_zero some)
    exact moved (quiet bit)
  have same : final = analysis.onEntry := by
    apply factColumn_injective reaches.sized full.onEntry
    intro bit
    rw [reaches.columns bit, noRounds]
    rfl
  subst same
  have noUpdates : tally.updates = 0 := by omega
  have counted : tally = { sweeps := 1, updates := 0 } := by
    cases tally
    simp_all
  exact ⟨heard, by rw [solved, counted]⟩

/-- An analysis over a listed graph in which one node is visited twice and one feeds itself. -/
def selfFeeding (merge : Merge) : Analysis Nat :=
  {
    initial (.listed 3 [2, 0, 1, 0] [.plain 0 1, .plain 1 0, .plain 1 1, .plain 1 2] [(7, 1)])
      merge 40 .forward with
    gens := .filled 3 (wordsFor 40) 5
  }

theorem selfFeeding_sized (merge : Merge) : (selfFeeding merge).Sized :=
  { sized_initial _ merge 40 .forward with gens := Table.sized_filled _ _ _ }

theorem selfFeeding_inRange (merge : Merge) : (selfFeeding merge).graph.InRange :=
  GraphView.listed_inRange (by decide) (by decide) (by decide)

/-- Every run ends. At most as many of its sweeps change something as there are nodes, so that it
takes at most one more; every such sweep makes an update, and no more updates are made than
there are facts in the table. Witness: a sweep that changes something moves some fact, and only
the first sweeps, one for each node, can move any one fact.
-/
theorem solve_sweeps_le {analysis : Analysis E} (full : analysis.Sized)
    (inRange : analysis.graph.InRange) (positive : 0 < analysis.bits) (mask : Mask) (sink : σ)
    : ∃ solved tally heard, analysis.solve mask sink = .ok (solved, tally, heard)
      ∧ 0 < tally.sweeps
      ∧ tally.sweeps ≤ analysis.graph.nodeCount + 1
      ∧ tally.sweeps - 1 ≤ tally.updates
      ∧ tally.updates ≤ 32 * analysis.width * analysis.graph.nodeCount := by
  obtain ⟨final, tally, heard, rounds, solved, reaches, sweeps, updates, budget⟩ :=
    solve_reaches full inRange positive mask sink
  have most := analysis.openCount_le analysis.onEntry
  have fewRounds : rounds ≤ analysis.graph.nodeCount := by
    cases rounds with
    | zero => exact Nat.zero_le _
    | succ last =>
        obtain ⟨bit, moved⟩ := reaches.moving last (Nat.lt_succ_self last)
        exact FactRule.index_lt_of_moving _ (route_inRange inRange analysis.direction) _ moved
  rw [wordBits] at most
  exact ⟨_, tally, heard, solved, by omega, by omega, by omega, by omega⟩

theorem solve_sweeps_le_selfFeeding
    : (selfFeeding { join := .subtract, startsFull := true }).Sized
      ∧ (selfFeeding { join := .subtract, startsFull := true }).graph.InRange
      ∧ ∃ solved tally heard,
          (selfFeeding { join := .subtract, startsFull := true }).solve .none Silent.silent
            = .ok (solved, tally, heard)
          ∧ 0 < tally.sweeps
          ∧ tally.sweeps ≤ 4
          ∧ tally.sweeps - 1 ≤ tally.updates
          ∧ tally.updates ≤ 32 * 2 * 3 :=
  ⟨selfFeeding_sized _, selfFeeding_inRange _,
    solve_sweeps_le (selfFeeding_sized _) (selfFeeding_inRange _) (by decide) .none Silent.silent⟩

/-- When a run has ended, merging what leaves a visited node into the facts on entry to a node that
it feeds changes nothing, and under a subtraction the two have no fact in common. Solving again
leaves the analysis as it is, in one sweep without updates, or in none if there are no facts.
-/
theorem solve_converges {τ : Type} [Sink τ] {analysis : Analysis E} (full : analysis.Sized)
    (inRange : analysis.graph.InRange) (mask again : Mask) (sink : σ) (listener : τ)
    : ∃ final tally heard,
        analysis.solve mask sink = .ok ({ analysis with onEntry := final }, tally, heard)
        ∧ (∀ source target, analysis.graph.Feeds analysis.direction source target
          → ∃ held leaving arrived, final.row source = .ok held
            ∧ analysis.transfer source held = .ok leaving
            ∧ final.row target = .ok arrived
            ∧ analysis.merge.join.rows arrived leaving = .ok arrived
            ∧ (analysis.merge.join = .subtract
              → ∀ bit, ¬(arrived.testBit bit = true ∧ leaving.testBit bit = true)))
        ∧ ∃ reheard,
            ({ analysis with onEntry := final } : Analysis E).solve again listener
              = .ok
                ({ analysis with onEntry := final },
                  { sweeps := if analysis.bits = 0 then 0 else 1, updates := 0 }, reheard) := by
  by_cases none : analysis.bits = 0
  · refine ⟨analysis.onEntry, _, sink, solve_of_no_facts none mask sink, ?_, listener, ?_⟩
    · intro source target feeds
      have quiet := quiet_of_no_facts full none full.onEntry
      exact quiet.merge_transfer full inRange full.onEntry feeds
    · rw [solve_of_no_facts none again listener, if_pos none]
  · obtain ⟨final, tally, heard, rounds, solved, reaches, _⟩ :=
      solve_reaches full inRange (Nat.pos_of_ne_zero none) mask sink
    have quiet : analysis.Quiet final := reaches.quiet
    refine ⟨final, tally, heard, solved, ?_, ?_⟩
    · intro source target feeds
      exact quiet.merge_transfer full inRange reaches.sized feeds
    · rw [if_neg none]
      exact solve_of_quiet (full.withOnEntry reaches.sized) inRange (Nat.pos_of_ne_zero none) quiet
        again listener

theorem solve_converges_selfFeeding
    : (selfFeeding { join := .subtract, startsFull := true }).Sized
      ∧ (selfFeeding { join := .subtract, startsFull := true }).graph.InRange
      ∧ ∃ final tally heard,
          (selfFeeding { join := .subtract, startsFull := true }).solve .none Silent.silent
            = .ok
              ({ selfFeeding { join := .subtract, startsFull := true } with onEntry := final },
                tally, heard)
          ∧ ∃ held leaving arrived, final.row 1 = .ok held
            ∧ (selfFeeding { join := .subtract, startsFull := true }).transfer 1 held = .ok leaving
            ∧ final.row 1 = .ok arrived
            ∧ Join.subtract.rows arrived leaving = .ok arrived := by
  refine ⟨selfFeeding_sized _, selfFeeding_inRange _, ?_⟩
  obtain ⟨final, tally, heard, solved, agrees, _⟩ :=
    solve_converges (selfFeeding_sized { join := .subtract, startsFull := true })
      (selfFeeding_inRange _) .none .none Silent.silent Silent.silent
  obtain ⟨held, leaving, arrived, found, transferred, foundTarget, joined, _⟩ :=
    agrees 1 1 ⟨by decide, by decide⟩
  exact ⟨final, tally, heard, solved, held, leaving, arrived, found, transferred, foundTarget,
    joined⟩

end Dataflow.Analysis
