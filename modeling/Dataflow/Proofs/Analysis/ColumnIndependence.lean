import Dataflow.Proofs.Analysis.Convergence

/-! Facts are solved independently of one another. One fact can be solved on its own, with one truth
value per node; solving an analysis gives every fact the value that it gets on its own and takes as
many sweeps as the slowest of them, the positions past the declared width included.
-/

namespace Dataflow.Analysis

variable {E σ : Type} [Ord E] [Sink σ]

/-- One fact when its run has ended, and the sweeps that the run took. -/
structure FactOutcome where
  column : Column
  sweeps : Nat

/-- Sweep one fact until a sweep changes it at none of the first `count` nodes. The run ends because
every other sweep settles the fact at one more node.
-/
def FactRule.solve (rule : FactRule) (stops : List Stop) (count : Nat) (column : Column)
    : FactOutcome :=
  let next := rule.sweep stops column
  if _ : ∀ node < count, next node = column node then
    { column := next, sweeps := 1 }
  else
    let later := rule.solve stops count next
    { later with sweeps := later.sweeps + 1 }
termination_by count - settledCount rule.join count column
decreasing_by
  rename_i moving
  simp only [not_forall, exists_prop] at moving
  obtain ⟨node, inside, moved⟩ := moving
  have grown := settledCount_lt_of_moved (rule.advances_sweep stops column) inside moved
  have most := settledCount_le rule.join count (rule.sweep stops column)
  omega

/-- Solve one fact of an analysis on its own, from its value on entry to each node. -/
def solveFact (analysis : Analysis E) (bit : Nat) : FactOutcome :=
  (analysis.factRule bit).solve (stopsOf analysis.graph analysis.direction)
    analysis.graph.nodeCount (factColumn analysis.onEntry bit)

namespace FactRule

variable {rule : FactRule} {stops : List Stop} {count : Nat} {column : Column}

theorem solve_of_still (still : rule.sweep stops column = column)
    : rule.solve stops count column = { column, sweeps := 1 } := by
  rw [solve]
  simp [still]

theorem solve_of_moving (inRange : RouteInRange count stops)
    (moving : rule.sweep stops column ≠ column)
    : rule.solve stops count column
      = {
        column := (rule.solve stops count (rule.sweep stops column)).column,
        sweeps := (rule.solve stops count (rule.sweep stops column)).sweeps + 1
      } := by
  obtain ⟨node, inside, moved⟩ := rule.exists_moved inRange moving
  rw [solve]
  exact dif_neg fun quiet => moved (quiet node inside)

/-- Sweeps after the first quiet one change nothing, so any later state is the result. By induction
on the sweeps before that state: either the first of them is quiet already, or the run goes on from
its result.
-/
theorem solve_of_quiet_after (inRange : RouteInRange count stops) (rounds : Nat)
    (quiet : rule.sweep stops ((rule.sweep stops)^[rounds] column)
      = (rule.sweep stops)^[rounds] column)
    : (rule.solve stops count column).column = (rule.sweep stops)^[rounds] column
      ∧ (rule.solve stops count column).sweeps ≤ rounds + 1 := by
  induction rounds generalizing column with
  | zero =>
      rw [Function.iterate_zero_apply] at quiet ⊢
      rw [solve_of_still quiet]
      exact ⟨rfl, Nat.le_refl 1⟩
  | succ rounds ih =>
      by_cases still : rule.sweep stops column = column
      · rw [solve_of_still still, Function.iterate_fixed still]
        exact ⟨rfl, Nat.le_add_left 1 _⟩
      · rw [Function.iterate_succ_apply] at quiet ⊢
        obtain ⟨result, bound⟩ := ih quiet
        rw [solve_of_moving inRange still]
        exact ⟨result, Nat.succ_le_succ bound⟩

theorem sweeps_pos (inRange : RouteInRange count stops)
    : 0 < (rule.solve stops count column).sweeps := by
  by_cases still : rule.sweep stops column = column
  · rw [solve_of_still still]
    exact Nat.one_pos
  · rw [solve_of_moving inRange still]
    exact Nat.succ_pos _

/-- A sweep that moves the fact is followed by another. By induction on the sweeps before it, none
of which is quiet.
-/
theorem lt_sweeps_of_moving (inRange : RouteInRange count stops) (index : Nat)
    (moving : rule.sweep stops ((rule.sweep stops)^[index] column)
      ≠ (rule.sweep stops)^[index] column)
    : index + 1 < (rule.solve stops count column).sweeps := by
  induction index generalizing column with
  | zero =>
      rw [Function.iterate_zero_apply] at moving
      rw [solve_of_moving inRange moving]
      exact Nat.succ_lt_succ (sweeps_pos inRange)
  | succ index ih =>
      have first : rule.sweep stops column ≠ column := by
        intro still
        rw [Function.iterate_fixed still] at moving
        exact moving still
      rw [Function.iterate_succ_apply] at moving
      rw [solve_of_moving inRange first]
      exact Nat.succ_lt_succ (ih moving)

end FactRule

-----------------------------------------------------------------------------------------
-- Runs over tables, column by column
-----------------------------------------------------------------------------------------

section Columns

variable {analysis : Analysis E} {rounds : Nat} {final : Table}

/-- Each column of a run's result is what the fact becomes on its own, in no more sweeps. -/
theorem Reaches.solveFact (inRange : analysis.graph.InRange)
    (reaches : Reaches analysis (stopsOf analysis.graph analysis.direction) analysis.onEntry rounds
      final)
    (bit : Nat)
    : (analysis.solveFact bit).column = factColumn final bit
      ∧ (analysis.solveFact bit).sweeps ≤ rounds + 1 := by
  have quiet := reaches.quiet bit
  rw [reaches.columns bit] at quiet ⊢
  exact FactRule.solve_of_quiet_after (route_inRange inRange analysis.direction) rounds quiet

/-- Some stored fact needs all the sweeps of a run. Witness: a fact that the last sweep but one
moved, and any fact if the first sweep is the last.
-/
theorem Reaches.exists_sweeps_eq (full : analysis.Sized) (inRange : analysis.graph.InRange)
    (positive : 0 < analysis.bits)
    (reaches : Reaches analysis (stopsOf analysis.graph analysis.direction) analysis.onEntry rounds
      final)
    : ∃ bit < wordBits * analysis.width, (analysis.solveFact bit).sweeps = rounds + 1 := by
  have route := route_inRange inRange analysis.direction
  cases rounds with
  | zero =>
      have stored : 0 < wordBits * analysis.width := by
        simp only [width, wordsFor, wordBits]
        omega
      have most := (reaches.solveFact inRange 0).2
      have least : 0 < (analysis.solveFact 0).sweeps := FactRule.sweeps_pos route
      exact ⟨0, stored, by omega⟩
  | succ last =>
      obtain ⟨bit, moving⟩ := reaches.moving last (Nat.lt_succ_self last)
      have most := (reaches.solveFact inRange bit).2
      have least : last + 1 < (analysis.solveFact bit).sweeps :=
        FactRule.lt_sweeps_of_moving route last moving
      refine ⟨bit, ?_, by omega⟩
      by_contra outside
      have still := sweep_factColumn_of_le full (Nat.not_lt.mp outside) full.onEntry
        (stopsOf analysis.graph analysis.direction)
      rw [Function.iterate_fixed still] at moving
      exact moving still

/-- Solving one fact reads nothing but that fact. -/
theorem solveFact_congr {other : Analysis E} {bit : Nat} (graph : other.graph = analysis.graph)
    (direction : other.direction = analysis.direction)
    (join : other.merge.join = analysis.merge.join)
    (gens : factColumn other.gens bit = factColumn analysis.gens bit)
    (scopeEnd : factColumn other.scopeEndKills bit = factColumn analysis.scopeEndKills bit)
    (execution : factColumn other.executionKills bit = factColumn analysis.executionKills bit)
    (onEntry : factColumn other.onEntry bit = factColumn analysis.onEntry bit)
    : other.solveFact bit = analysis.solveFact bit := by
  have kills : other.killed bit = analysis.killed bit := by
    funext node
    exact congr_arg₂ (· || ·) (congrFun execution node) (congrFun scopeEnd node)
  simp only [Analysis.solveFact, factRule, graph, direction, join, gens, kills, onEntry]

end Columns

/-- Solving gives every stored fact the value that it gets on its own, and takes as many sweeps as
the fact that needs most. So the result for a fact is the same in any other analysis over the graph,
of whatever width, that agrees on this one fact.
-/
theorem solve_columnwise {analysis : Analysis E} (full : analysis.Sized)
    (inRange : analysis.graph.InRange) (positive : 0 < analysis.bits) (mask : Mask) (sink : σ)
    : ∃ final tally heard,
        analysis.solve mask sink = .ok ({ analysis with onEntry := final }, tally, heard)
        ∧ (∀ node < analysis.graph.nodeCount,
            ∃ row, final.row node = .ok row
              ∧ ∀ bit < wordBits * analysis.width,
                  row.testBit bit = (analysis.solveFact bit).column node)
        ∧ (∀ bit < wordBits * analysis.width, (analysis.solveFact bit).sweeps ≤ tally.sweeps)
        ∧ (∃ bit < wordBits * analysis.width, (analysis.solveFact bit).sweeps = tally.sweeps)
        ∧ ∀ (τ : Type) [Sink τ] (other : Analysis E) (again : Mask) (listener : τ) (bit : Nat),
            other.Sized
            → 0 < other.bits
            → other.graph = analysis.graph
            → other.direction = analysis.direction
            → other.merge.join = analysis.merge.join
            → factColumn other.gens bit = factColumn analysis.gens bit
            → factColumn other.scopeEndKills bit = factColumn analysis.scopeEndKills bit
            → factColumn other.executionKills bit = factColumn analysis.executionKills bit
            → factColumn other.onEntry bit = factColumn analysis.onEntry bit
            → ∃ otherFinal otherTally reheard,
                other.solve again listener
                  = .ok ({ other with onEntry := otherFinal }, otherTally, reheard)
                ∧ factColumn otherFinal bit = factColumn final bit := by
  obtain ⟨final, tally, heard, rounds, solved, reaches, sweeps, _⟩ :=
    solve_reaches full inRange positive mask sink
  refine ⟨final, tally, heard, solved, ?_, ?_, ?_, ?_⟩
  · intro node inside
    obtain ⟨row, found, _⟩ := reaches.sized.row inside
    refine ⟨row, found, fun bit _ => ?_⟩
    rw [(reaches.solveFact inRange bit).1, factColumn, Table.testBit_of_row found]
  · intro bit _
    rw [sweeps]
    exact (reaches.solveFact inRange bit).2
  · rw [sweeps]
    exact reaches.exists_sweeps_eq full inRange positive
  · intro τ _ other again listener bit otherFull otherPositive graph direction join gens scopeEnd
      execution onEntry
    have otherInRange : other.graph.InRange := graph ▸ inRange
    obtain ⟨otherFinal, otherTally, reheard, _, otherSolved, otherReaches, _⟩ :=
      solve_reaches otherFull otherInRange otherPositive again listener
    refine ⟨otherFinal, otherTally, reheard, otherSolved, ?_⟩
    rw [← (otherReaches.solveFact otherInRange bit).1, ← (reaches.solveFact inRange bit).1,
      solveFact_congr graph direction join gens scopeEnd execution onEntry]

/-- Every node starts from every fact and loses those that arrive. -/
def fullSubtraction : Merge :=
  { join := .subtract, startsFull := true }

/-- The analysis of `selfFeeding` cut down to two facts; the third, which it shares with the wider
one, is past its declared width.
-/
def selfFeedingNarrow (merge : Merge) : Analysis Nat :=
  {
    initial (selfFeeding merge).graph merge 2 .forward with
    gens := .filled 3 (wordsFor 2) 5
  }

theorem solve_columnwise_selfFeeding
    : ∃ final tally heard narrowFinal narrowTally reheard row,
        (selfFeeding fullSubtraction).solve .none Silent.silent
          = .ok ({ selfFeeding fullSubtraction with onEntry := final }, tally, heard)
        ∧ (selfFeedingNarrow fullSubtraction).solve .none Silent.silent
          = .ok
            ({ selfFeedingNarrow fullSubtraction with onEntry := narrowFinal }, narrowTally,
              reheard)
        ∧ final.row 1 = .ok row
        ∧ row.testBit 63 = ((selfFeeding fullSubtraction).solveFact 63).column 1
        ∧ ((selfFeeding fullSubtraction).solveFact 63).sweeps ≤ tally.sweeps
        ∧ factColumn narrowFinal 2 = factColumn final 2 := by
  obtain ⟨final, tally, heard, solved, rows, most, _, others⟩ :=
    solve_columnwise (selfFeeding_sized fullSubtraction) (selfFeeding_inRange _) (by decide) .none
      Silent.silent
  obtain ⟨row, found, facts⟩ := rows 1 (by decide)
  have same : ∀ word : Word,
      factColumn (.filled 3 (wordsFor 2) word) 2 = factColumn (.filled 3 (wordsFor 40) word) 2 := by
    intro word
    funext node
    simp [factColumn, Table.testBit_filled, wordsFor, wordBits]
  obtain ⟨narrowFinal, narrowTally, reheard, narrowSolved, agree⟩ :=
    others Silent (selfFeedingNarrow fullSubtraction) .none Silent.silent 2
      { sized_initial _ _ 2 .forward with gens := Table.sized_filled _ _ _ } (by decide) rfl rfl rfl
      (same _) (same _) (same _) (same _)
  exact ⟨final, tally, heard, narrowFinal, narrowTally, reheard, row, solved, narrowSolved, found,
    facts 63 (by decide), most 63 (by decide), agree⟩

end Dataflow.Analysis
