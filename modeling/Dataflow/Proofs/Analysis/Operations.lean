import Dataflow.Proofs.Analysis.Convergence
import Dataflow.Proofs.Analysis.Queries
import Dataflow.Proofs.Analysis.Recording
import Dataflow.Proofs.Graph.Accepted
import Dataflow.Proofs.Graph.Reachable

/-! No operation on an analysis fails over a graph that was grown step by step, as long as the words
of a table can be counted and the caller names facts that fit the rows, nodes of the graph, and rows
of full width. The operations may come in any order and any number: each finds the four tables full
and leaves them so. Tables of more words are not full from the start, and then operations do fail.
-/

namespace Dataflow.Analysis

variable {E : Type} [Ord E]

/-- Something a caller does with an analysis. A query brings its own predicate and the state that
the predicate carries from one fact to the next.
-/
inductive Operation (E : Type) : Type 1 where
  | record (recording : Recording E)
  | solve
  | query {σ : Type} (view : View) (element : E) (accept : Nat → σ → Bool × σ) (state : σ)
  | transfer (node : Node) (row : Row)
  | entryRow (node : Node)
  | gensRow (node : Node)
  | killsRow (kind : KillKind) (node : Node)

/-- What a caller owes an analysis of `bits` facts over a graph of `count` nodes: facts that have a
place in the rows, unless nothing is kept at all, nodes of the graph, and full rows.
-/
def Operation.Admissible (count bits : Nat) : Operation E → Prop
  | record recording => bits = 0 ∨ recording.Fits (wordsFor bits)
  | solve => True
  | query _ _ _ _ => True
  | transfer node row => node < count ∧ row.length = wordsFor bits
  | entryRow node => node < count
  | gensRow node => node < count
  | killsRow _ node => node < count

/-- Perform one operation. Those that only read leave the analysis as it is, if they succeed. -/
def perform (analysis : Analysis E) : Operation E → Except Fault (Analysis E)
  | .record recording => analysis.record recording
  | .solve => do
      let solved ← analysis.solve .none Silent.silent
      return solved.1
  | .query view element accept state => do
      let _ ← analysis.walk view element accept state
      return analysis
  | .transfer node row => do
      let _ ← analysis.transfer node row
      return analysis
  | .entryRow node => do
      let _ ← analysis.onEntry.row node
      return analysis
  | .gensRow node => do
      let _ ← analysis.gens.row node
      return analysis
  | .killsRow kind node => do
      let _ ← (analysis.kills kind).row node
      return analysis

/-- Perform operations in order. -/
def performAll (analysis : Analysis E) (operations : List (Operation E))
    : Except Fault (Analysis E) :=
  operations.foldlM perform analysis

-----------------------------------------------------------------------------------------
-- What every operation keeps
-----------------------------------------------------------------------------------------

theorem Sized.kills {analysis : Analysis E} (full : analysis.Sized) (kind : KillKind)
    : (analysis.kills kind).Sized analysis.graph.nodeCount analysis.width := by
  cases kind with
  | scopeEnd => exact full.scopeEndKills
  | execution => exact full.executionKills

/-- The tables of `later` are full, and it is an analysis of as many facts over the same graph. -/
structure Keeps (start later : Analysis E) : Prop where
  sized : later.Sized
  graph : later.graph = start.graph
  bits : later.bits = start.bits

theorem Keeps.refl {analysis : Analysis E} (full : analysis.Sized) : Keeps analysis analysis :=
  ⟨full, rfl, rfl⟩

theorem record_of_no_facts {analysis : Analysis E} (none : analysis.bits = 0)
    (recording : Recording E)
    : analysis.record recording = .ok analysis := by
  cases recording with
  | gen element bit => exact if_pos none
  | kill kind element bit => exact if_pos none
  | flowExits =>
      have passed : analysis.addFlowExitKills .none Silent.silent = .ok (analysis, Silent.silent) :=
        if_pos none
      exact bind_eq_ok.mpr ⟨_, passed, rfl⟩

/-- An admissible operation succeeds and leaves the tables full, by cases on the operation. -/
theorem Keeps.perform {start analysis : Analysis E} (keeps : Keeps start analysis)
    (inRange : start.graph.InRange) {operation : Operation E}
    (admissible : operation.Admissible start.graph.nodeCount start.bits)
    : ∃ next, analysis.perform operation = .ok next ∧ Keeps start next := by
  have full := keeps.sized
  rw [← keeps.graph] at inRange
  rw [← keeps.graph, ← keeps.bits] at admissible
  -- An operation that only reads goes on with the analysis that it has read.
  have reads : ∀ {α : Type} {read : Except Fault α} {answer : α}, read = .ok answer
      → ∃ next, (do let _ ← read; return analysis) = .ok next ∧ Keeps start next :=
    fun found => ⟨analysis, bind_eq_ok.mpr ⟨_, found, rfl⟩, keeps⟩
  cases operation with
  | record recording =>
      rcases admissible with none | fits
      · exact ⟨analysis, record_of_no_facts none recording, keeps⟩
      · obtain ⟨next, made⟩ := (Prepares.refl full).record inRange fits
        have prepares := (Prepares.refl full).of_record made
        exact ⟨next, made, prepares.sized, prepares.graph.trans keeps.graph,
          prepares.bits.trans keeps.bits⟩
  | solve =>
      obtain ⟨final, tally, heard, _, solved, reaches⟩ :=
        solve_ends full inRange .none Silent.silent
      exact ⟨_, bind_eq_ok.mpr ⟨_, solved, rfl⟩, full.withOnEntry reaches.sized, keeps.graph,
        keeps.bits⟩
  | query view element accept state =>
      obtain ⟨answer, walked⟩ := full.walk inRange view element accept state
      exact reads walked
  | transfer node row =>
      obtain ⟨leaving, transferred, _⟩ := full.transfer admissible.1 admissible.2
      exact reads transferred
  | entryRow node =>
      obtain ⟨row, found, _⟩ := full.onEntry.row admissible
      exact reads found
  | gensRow node =>
      obtain ⟨row, found, _⟩ := full.gens.row admissible
      exact reads found
  | killsRow kind node =>
      obtain ⟨row, found, _⟩ := (full.kills kind).row admissible
      exact reads found

/-- Any number of admissible operations succeed and leave the tables full. -/
theorem performAll_keeps {start : Analysis E} (full : start.Sized)
    (inRange : start.graph.InRange) (operations : List (Operation E))
    (admissible : ∀ operation ∈ operations,
      operation.Admissible start.graph.nodeCount start.bits)
    : ∃ final, start.performAll operations = .ok final ∧ Keeps start final :=
  foldlM_succeeds (Keeps start) operations start (.refl full)
    fun _ keeps operation listed => keeps.perform inRange (admissible operation listed)

end Dataflow.Analysis
