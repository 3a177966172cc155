import Dataflow.Proofs.Analysis.Sweep

/-! Whole runs, fact by fact. A run over full tables always ends with a result: the sweeps that
changed something, applied to each fact on its own, and then one that changes none.
-/

namespace Dataflow.Analysis

variable {E σ : Type} [Ord E] [Sink σ]

/-- The table `final` is what `rounds` sweeps make of `start`, each of them moving some fact, and a
further sweep moves none.
-/
structure Reaches (analysis : Analysis E) (stops : List Stop) (start : Table) (rounds : Nat)
    (final : Table)
    : Prop where
  sized : final.Sized analysis.graph.nodeCount analysis.width
  columns
    : ∀ bit,
        factColumn final bit
          = ((analysis.factRule bit).sweep stops)^[rounds] (factColumn start bit)
  moving
    : ∀ index < rounds,
        ∃ bit,
          (analysis.factRule bit).sweep stops
              (((analysis.factRule bit).sweep stops)^[index] (factColumn start bit))
            ≠ ((analysis.factRule bit).sweep stops)^[index] (factColumn start bit)
  quiet : ∀ bit, (analysis.factRule bit).sweep stops (factColumn final bit) = factColumn final bit

/-- Sweeping on after the end of a run changes nothing. -/
theorem Reaches.iterate_of_le {analysis : Analysis E} {stops : List Stop} {start final : Table}
    {rounds later : Nat} (reaches : Reaches analysis stops start rounds final)
    (enough : rounds ≤ later) (bit : Nat)
    : ((analysis.factRule bit).sweep stops)^[later] (factColumn start bit)
      = factColumn final bit := by
  obtain ⟨further, rfl⟩ := Nat.exists_eq_add_of_le' enough
  rw [Function.iterate_add_apply, ← reaches.columns bit, Function.iterate_fixed (reaches.quiet bit)]

theorem factColumn_injective {count width : Nat} {left right : Table}
    (sizedLeft : left.Sized count width) (sizedRight : right.Sized count width)
    (same : ∀ bit, factColumn left bit = factColumn right bit)
    : left = right :=
  sizedLeft.ext_testBit sizedRight fun node bit => congrFun (same bit) node

-----------------------------------------------------------------------------------------
-- The sweeping loop
-----------------------------------------------------------------------------------------

/-- One turn of the loop: a sweep, after which it goes on if something has changed, else ends. -/
theorem sweepAll_eq (analysis : Analysis E) (mask : Mask) (stops : List Stop) (done : Tally)
    (onEntry : Table) (sink : σ)
    : sweepAll analysis mask stops done onEntry sink
      = (sweepOnce analysis mask (done.sweeps + 1) stops onEntry
            (emit mask (.sweepStart (done.sweeps + 1)) sink)
          >>= fun progress =>
        if progress.changed then
          sweepAll analysis mask stops
            { sweeps := done.sweeps + 1, updates := done.updates + progress.updates }
            progress.onEntry
            (emit mask (.sweepEnd (done.sweeps + 1) progress.changed) progress.sink)
        else
          .ok {
            onEntry := progress.onEntry,
            tally := { sweeps := done.sweeps + 1, updates := done.updates + progress.updates },
            sink := emit mask (.sweepEnd (done.sweeps + 1) progress.changed) progress.sink
          }) := by
  rw [sweepAll]
  simp only
  split
  case h_1 fault failed => rw [failed]; rfl
  case h_2 progress swept =>
    rw [swept]
    split
    case isTrue changed => exact (if_pos changed).symm
    case isFalse unchanged => exact (if_neg unchanged).symm

/-- The loop succeeds on full tables. By induction on the facts that can still move: a sweep with an
update settles one of them at least, and a sweep without one is the last.
-/
theorem sweepAll_reaches {analysis : Analysis E} (full : analysis.Sized) (mask : Mask)
    {stops : List Stop} (inRange : RouteInRange analysis.graph.nodeCount stops) (done : Tally)
    {onEntry : Table} (sized : onEntry.Sized analysis.graph.nodeCount analysis.width) (sink : σ)
    : ∃ outcome rounds, sweepAll analysis mask stops done onEntry sink = .ok outcome
      ∧ Reaches analysis stops onEntry rounds outcome.onEntry
      ∧ outcome.tally.sweeps = done.sweeps + (rounds + 1)
      ∧ done.updates + rounds ≤ outcome.tally.updates
      ∧ analysis.openCount outcome.onEntry + outcome.tally.updates
        ≤ analysis.openCount onEntry + done.updates := by
  induction measure : analysis.openCount onEntry
      using Nat.strongRecOn generalizing done onEntry sink with
  | ind room ih =>
      obtain ⟨progress, swept, follows, columns⟩ := sweepOnce_simulates mask (done.sweeps + 1) full
        inRange sized (emit mask (.sweepStart (done.sweeps + 1)) sink)
      have spent := follows.spent
      simp only [Progress.start, measure, Nat.add_zero] at spent
      have flag := changed_sweepOnce analysis mask _ swept
      rw [sweepAll_eq, swept, ok_bind]
      by_cases none : progress.updates = 0
      · have same : progress.onEntry = onEntry := follows.still none
        rw [if_neg (by simp [flag, none])]
        refine ⟨_, 0, rfl, ⟨follows.sized, ?_, ?_, ?_⟩, rfl, Nat.le_add_right _ _, ?_⟩
        · intro bit
          rw [same]
          rfl
        · intro index impossible
          exact absurd impossible (Nat.not_lt_zero index)
        · intro bit
          rw [same, ← columns bit, same]
        · simp only
          omega
      · rw [if_pos (flag.trans (bne_iff_ne.mpr none))]
        obtain ⟨outcome, rounds, ended, reaches, sweeps, updates, budget⟩ :=
          ih _ (by omega)
            { sweeps := done.sweeps + 1, updates := done.updates + progress.updates }
            follows.sized
            (emit mask (.sweepEnd (done.sweeps + 1) progress.changed) progress.sink) rfl
        simp only at sweeps updates budget
        refine ⟨outcome, rounds + 1, ended, ⟨reaches.sized, ?_, ?_, reaches.quiet⟩, by omega,
          by omega, by omega⟩
        · intro bit
          rw [reaches.columns bit, columns bit, Function.iterate_succ_apply]
        · intro index below
          cases index with
          | zero =>
              -- The sweep made an update, so some fact of the two tables differs.
              by_contra still
              refine none (follows.updates_eq_iff.mpr ?_)
              refine factColumn_injective follows.sized sized fun bit => ?_
              rw [columns bit]
              by_contra moved
              exact still ⟨bit, moved⟩
          | succ index =>
              obtain ⟨bit, moved⟩ := reaches.moving index (by omega)
              refine ⟨bit, ?_⟩
              simpa only [Function.iterate_succ_apply, columns bit] using moved

-----------------------------------------------------------------------------------------
-- Solving
-----------------------------------------------------------------------------------------

/-- Solving an analysis of some facts over full tables and a graph in range always gives a result,
and changes the facts on entry alone.
-/
theorem solve_reaches {analysis : Analysis E} (full : analysis.Sized)
    (inRange : analysis.graph.InRange) (positive : 0 < analysis.bits) (mask : Mask) (sink : σ)
    : ∃ final tally heard rounds,
        analysis.solve mask sink = .ok ({ analysis with onEntry := final }, tally, heard)
        ∧ Reaches analysis (stopsOf analysis.graph analysis.direction) analysis.onEntry rounds final
        ∧ tally.sweeps = rounds + 1
        ∧ rounds ≤ tally.updates
        ∧ analysis.openCount final + tally.updates ≤ analysis.openCount analysis.onEntry := by
  obtain ⟨outcome, rounds, ended, reaches, sweeps, updates, budget⟩ :=
    sweepAll_reaches full mask (route_inRange inRange analysis.direction)
      { sweeps := 0, updates := 0 } full.onEntry
      (emit mask (.solveStart analysis.direction analysis.graph.nodeCount analysis.bits) sink)
  simp only [Nat.zero_add, Nat.add_zero] at sweeps updates budget
  refine ⟨outcome.onEntry, outcome.tally, emit mask (.solveEnd outcome.tally) outcome.sink, rounds,
    ?_, reaches, sweeps, updates, budget⟩
  rw [solve, if_neg (Nat.ne_of_gt positive)]
  exact bind_eq_ok.mpr ⟨_, route_eq_ok inRange analysis.direction,
    bind_eq_ok.mpr ⟨outcome, ended, rfl⟩⟩

theorem solve_of_no_facts {analysis : Analysis E} (none : analysis.bits = 0) (mask : Mask)
    (sink : σ)
    : analysis.solve mask sink = .ok (analysis, { sweeps := 0, updates := 0 }, sink) := by
  rw [solve, if_pos none]
  rfl

end Dataflow.Analysis
