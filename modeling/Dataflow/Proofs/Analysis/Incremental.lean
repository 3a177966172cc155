import Dataflow.Proofs.Analysis.LeastSolution
import Dataflow.Proofs.Analysis.Operations

/-! Facts may be recorded in between runs. Under a union a run goes on from the facts on entry that
the runs before it have left. These never exceed the least solution of what is recorded in the end,
so that the last run ends as a single run would have that had found everything recorded before it.
-/

namespace Dataflow.Analysis

variable {E : Type} [Ord E]

/-- Operations that establish facts or solve. -/
inductive Operation.Incremental : Operation E → Prop
  | gen (element : E) (bit : Nat) : Incremental (.record (.gen element bit))
  | solve : Incremental .solve

/-- Whether an operation records something. -/
def Operation.records : Operation E → Bool
  | record _ => true
  | _ => false

/-- A table that has the facts on entry to each node, and none that a solution could be without. -/
structure HeadStart (analysis : Analysis E) (table : Table) : Prop where
  sized : table.Sized analysis.graph.nodeCount analysis.width
  above : analysis.onEntry.Included table
  below : ∀ solution, analysis.Solution solution → table.Included solution

-----------------------------------------------------------------------------------------
-- Establishing a fact
-----------------------------------------------------------------------------------------

theorem included_of_mark {table result : Table} {nodes : List Node} {bit : Nat}
    (marked : mark table nodes bit = .ok result)
    : table.Included result := by
  intro node tested present
  rw [testBit_of_mark marked, present, Bool.true_or]

/-- A fact is established in the table for it, which only grows. -/
theorem addGen_eq_ok {analysis next : Analysis E} {element : E} {bit : Nat}
    (added : analysis.addGen element bit = .ok next)
    : ∃ gens, next = { analysis with gens } ∧ analysis.gens.Included gens := by
  have made : analysis.record (.gen element bit) = .ok next := added
  cases recorded_of_record made with
  | ignored => exact ⟨analysis.gens, rfl, .refl _⟩
  | gen marked => exact ⟨_, rfl, included_of_mark marked⟩

/-- Establishing a fact neither reads nor changes what is on entry. -/
theorem addGen_withOnEntry (analysis : Analysis E) (table : Table) (element : E) (bit : Nat)
    : ({ analysis with onEntry := table } : Analysis E).addGen element bit
      = (analysis.addGen element bit).map fun next => { next with onEntry := table } := by
  rw [addGen, addGen]
  split
  case isTrue => rfl
  case isFalse =>
    cases mark analysis.gens (analysis.graph.index.nodes element) bit with
    | error fault => rfl
    | ok gens => rfl

-----------------------------------------------------------------------------------------
-- Runs from a head start
-----------------------------------------------------------------------------------------

section HeadStarts

variable {analysis : Analysis E} {table : Table}

/-- What a run reaches is a head start for the next. -/
theorem Reaches.headStart (union : analysis.merge.join = .union) {rounds : Nat} {final : Table}
    (reaches : Reaches analysis (stopsOf analysis.graph analysis.direction) analysis.onEntry rounds
      final)
    : analysis.HeadStart final := by
  obtain ⟨solution, least⟩ := reaches.least union
  exact ⟨solution.sized, solution.above, least⟩

/-- A head start remains one when more facts are established, since a solution then has more facts
to include.
-/
theorem HeadStart.withGens (headStart : analysis.HeadStart table) {gens : Table}
    (grown : analysis.gens.Included gens)
    : ({ analysis with gens } : Analysis E).HeadStart table := by
  have within : analysis.Within { analysis with gens } :=
    ⟨rfl, rfl, .refl _, grown, .refl _, .refl _, fun _ _ feeds => feeds⟩
  exact ⟨headStart.sized, headStart.above, fun solution solves =>
    headStart.below solution (solves.of_within within)⟩

/-- A run from a head start ends where the run without it ends. Witness: each result is a solution
for both, and each is the least of its own.
-/
theorem HeadStart.perform_solve (full : analysis.Sized) (inRange : analysis.graph.InRange)
    (union : analysis.merge.join = .union) (headStart : analysis.HeadStart table)
    : ({ analysis with onEntry := table } : Analysis E).perform .solve
      = analysis.perform .solve := by
  obtain ⟨final, tally, heard, rounds, solved, reaches⟩ :=
    solve_ends full inRange .none Silent.silent
  obtain ⟨aheadFinal, aheadTally, reheard, aheadRounds, aheadSolved, aheadReaches⟩ :=
    solve_ends (full.withOnEntry headStart.sized) inRange .none Silent.silent
  obtain ⟨solution, _⟩ := reaches.least union
  have aheadUnion : ({ analysis with onEntry := table } : Analysis E).merge.join = .union := union
  have aheadSolution : ({ analysis with onEntry := table } : Analysis E).Solution final :=
    ⟨solution.sized, headStart.below final solution, solution.closed⟩
  have within : analysis.Within { analysis with onEntry := table } :=
    ⟨rfl, rfl, headStart.above, .refl _, .refl _, .refl _, fun _ _ feeds => feeds⟩
  have forth : final.Included aheadFinal :=
    reaches.included_of_within within union aheadUnion aheadReaches
  have back : aheadFinal.Included final := (aheadReaches.least aheadUnion).2 final aheadSolution
  have same : aheadFinal = final :=
    Table.Included.antisymm aheadReaches.sized reaches.sized back forth
  subst same
  rw [perform, perform, solved, aheadSolved]
  rfl

/-- A head start makes no difference to facts that are established and then solved, by induction on
the operations that establish them.
-/
theorem HeadStart.performAll (full : analysis.Sized) (inRange : analysis.graph.InRange)
    (union : analysis.merge.join = .union) (headStart : analysis.HeadStart table)
    {operations : List (Operation E)}
    (gens : ∀ operation ∈ operations, ∃ element bit, operation = .record (.gen element bit))
    : ({ analysis with onEntry := table } : Analysis E).performAll (operations ++ [.solve])
      = analysis.performAll (operations ++ [.solve]) := by
  induction operations generalizing analysis with
  | nil =>
      rw [List.nil_append, performAll, performAll, List.foldlM_cons, List.foldlM_cons,
        headStart.perform_solve full inRange union]
  | cons operation rest ih =>
      obtain ⟨element, bit, rfl⟩ := gens operation List.mem_cons_self
      rw [List.cons_append, performAll, performAll, List.foldlM_cons, List.foldlM_cons, perform,
        perform, record, record, addGen_withOnEntry]
      cases added : analysis.addGen element bit with
      | error fault => rfl
      | ok next =>
          obtain ⟨grown, rfl, included⟩ := addGen_eq_ok added
          have added : analysis.record (.gen element bit) = .ok _ := added
          have prepares := (Prepares.refl full).of_record added
          exact ih prepares.sized inRange union (headStart.withGens included)
            fun later listed => gens later (List.mem_cons_of_mem _ listed)

end HeadStarts

/-- Solving whenever some facts have been established, and at last once more, is the same as
establishing all the facts first and solving once. By induction on the operations: a run in between
gives a head start to what follows it.
-/
theorem performAll_eq_batch {analysis : Analysis E} (full : analysis.Sized)
    (inRange : analysis.graph.InRange) (union : analysis.merge.join = .union)
    {operations : List (Operation E)}
    (incremental : ∀ operation ∈ operations, operation.Incremental)
    : analysis.performAll (operations ++ [.solve])
      = analysis.performAll (operations.filter Operation.records ++ [.solve]) := by
  induction operations generalizing analysis with
  | nil => rfl
  | cons operation rest ih =>
      have later : ∀ operation ∈ rest, operation.Incremental :=
        fun operation listed => incremental operation (List.mem_cons_of_mem _ listed)
      cases incremental operation List.mem_cons_self with
      | gen element bit =>
          rw [List.filter_cons_of_pos rfl, List.cons_append, List.cons_append, performAll,
            performAll, List.foldlM_cons, List.foldlM_cons, perform]
          cases added : analysis.record (.gen element bit) with
          | error fault => rfl
          | ok next =>
              have prepares := (Prepares.refl full).of_record added
              rw [← prepares.graph] at inRange
              rw [← prepares.merge] at union
              exact ih prepares.sized inRange union later
      | solve =>
          obtain ⟨final, tally, heard, rounds, solved, reaches⟩ :=
            solve_ends full inRange .none Silent.silent
          have performed : analysis.perform .solve = .ok { analysis with onEntry := final } :=
            bind_eq_ok.mpr ⟨_, solved, rfl⟩
          have gens : ∀ operation ∈ rest.filter Operation.records,
              ∃ element bit, operation = .record (.gen element bit) := by
            intro operation listed
            obtain ⟨member, records⟩ := List.mem_filter.mp listed
            cases later operation member with
            | gen element bit => exact ⟨element, bit, rfl⟩
            | solve => cases records
          rw [List.filter_cons_of_neg Bool.false_ne_true, List.cons_append, performAll,
            List.foldlM_cons, performed]
          refine (ih (full.withOnEntry reaches.sized) inRange union later).trans ?_
          exact (reaches.headStart union).performAll full inRange union gens

/-- Over any graph in range, from any tables and under a union: operations that establish facts and
solve in any order, and then solve, have the same outcome as the ones among them that establish
facts, and then one run. If the facts fit the rows, both succeed; otherwise both fail with the same
fault.
-/
theorem performAll_incremental {analysis : Analysis E} (full : analysis.Sized)
    (inRange : analysis.graph.InRange) (union : analysis.merge.join = .union)
    (operations : List (Operation E))
    (incremental : ∀ operation ∈ operations, operation.Incremental)
    : analysis.performAll (operations ++ [.solve])
        = analysis.performAll (operations.filter Operation.records ++ [.solve])
      ∧ ((∀ operation ∈ operations,
            operation.Admissible analysis.graph.nodeCount analysis.bits)
        → ∃ incrementally atOnce,
            analysis.performAll (operations ++ [.solve]) = .ok incrementally
            ∧ analysis.performAll (operations.filter Operation.records ++ [.solve]) = .ok atOnce
            ∧ incrementally.onEntry = atOnce.onEntry) := by
  have same := performAll_eq_batch full inRange union incremental
  refine ⟨same, fun admissible => ?_⟩
  obtain ⟨solved, performed, _⟩ := performAll_keeps full inRange (operations ++ [.solve]) (by
    intro operation listed
    rcases List.mem_append.mp listed with before | last
    · exact admissible operation before
    · cases List.mem_singleton.mp last
      trivial)
  exact ⟨solved, solved, performed, same ▸ performed, rfl⟩

/-- Facts established before, between and after two runs, the last past the declared width. -/
def scatteredOperations : List (Operation Nat) :=
  [.record (.gen 7 35), .solve, .record (.gen 7 3), .solve, .record (.gen 7 63)]

theorem performAll_incremental_selfFeeding
    : ∃ incrementally atOnce,
        (selfFeeding .union).performAll (scatteredOperations ++ [.solve]) = .ok incrementally
        ∧ (selfFeeding .union).performAll
            [.record (.gen 7 35), .record (.gen 7 3), .record (.gen 7 63), .solve]
          = .ok atOnce
        ∧ incrementally.onEntry = atOnce.onEntry := by
  have incremental : ∀ operation ∈ scatteredOperations, operation.Incremental := by
    simp [scatteredOperations, Operation.Incremental.gen, Operation.Incremental.solve]
  have admissible : ∀ operation ∈ scatteredOperations, operation.Admissible 3 40 := by
    simp [scatteredOperations, Operation.Admissible, Recording.Fits, wordsFor, wordBits]
  obtain ⟨_, succeeds⟩ :=
    performAll_incremental (selfFeeding_sized .union) (selfFeeding_inRange .union) rfl
      scatteredOperations incremental
  exact succeeds admissible

end Dataflow.Analysis
