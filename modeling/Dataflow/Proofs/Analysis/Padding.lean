import Dataflow.Proofs.Analysis.Operations

/-! Rows end in words that may have room for more facts than were declared. Joins, transfers and the
pass over the edges take whole words and mask nothing. Still, where nodes start without facts and only
declared facts are recorded, none of them ever puts a fact past the declared width, in whatever order
they come; so that no query ends early at one.
-/

namespace Dataflow

/-- No row of the table has a fact from `bits` on. -/
def Table.Unpadded (table : Table) (bits : Nat) : Prop :=
  ∀ bit, bits ≤ bit → ∀ node, table.testBit node bit = false

namespace Analysis

variable {E : Type}

/-- The fact that is recorded is one of the first `bits`. -/
def Recording.Declared (bits : Nat) : Recording E → Prop
  | gen _ bit => bit < bits
  | kill _ _ bit => bit < bits
  | flowExits => True

instance (bits : Nat) : DecidablePred (Recording.Declared bits : Recording E → Prop)
  | .gen _ bit => inferInstanceAs (Decidable (bit < bits))
  | .kill _ _ bit => inferInstanceAs (Decidable (bit < bits))
  | .flowExits => inferInstanceAs (Decidable True)

/-- Operations that record a declared fact, make the pass over the edges, or solve. -/
inductive Operation.Declared (bits : Nat) : Operation E → Prop
  | record {recording : Recording E} (declared : recording.Declared bits)
    : Declared bits (.record recording)
  | solve : Declared bits .solve

/-- Declared facts have a place in the rows. -/
theorem Recording.Declared.fits {bits : Nat} {recording : Recording E}
    (declared : recording.Declared bits)
    : recording.Fits (wordsFor bits) := by
  have room : bits ≤ wordBits * wordsFor bits := by
    simp only [wordsFor, wordBits]
    omega
  cases recording with
  | gen element bit => exact Nat.lt_of_lt_of_le declared room
  | kill kind element bit => exact Nat.lt_of_lt_of_le declared room
  | flowExits => trivial

theorem Operation.Declared.admissible {bits : Nat} {operation : Operation E}
    (declared : operation.Declared bits) (count : Nat)
    : operation.Admissible count bits := by
  cases declared with
  | record declared => exact Or.inr declared.fits
  | solve => trivial

variable [Ord E]

/-- None of the four tables has a fact past the declared width. -/
structure Unpadded (analysis : Analysis E) : Prop where
  gens : analysis.gens.Unpadded analysis.bits
  scopeEndKills : analysis.scopeEndKills.Unpadded analysis.bits
  executionKills : analysis.executionKills.Unpadded analysis.bits
  onEntry : analysis.onEntry.Unpadded analysis.bits

theorem unpadded_initial {merge : Merge} (empty : merge.startsFull = false) (graph : GraphView E)
    (bits : Nat) (direction : Direction)
    : (initial graph merge bits direction).Unpadded := by
  have blank : (Table.filled graph.nodeCount (wordsFor bits) 0).Unpadded bits :=
    fun bit _ node => Table.testBit_filled_zero _ _ node bit
  have startWord : merge.startWord = 0 := by simp [Merge.startWord, empty]
  refine ⟨blank, blank, blank, ?_⟩
  simp only [initial, startWord]
  exact blank

-----------------------------------------------------------------------------------------
-- Operations on unpadded tables
-----------------------------------------------------------------------------------------

theorem unpadded_of_mark {table result : Table} {nodes : List Node} {bits bit : Nat}
    (unpadded : table.Unpadded bits) (below : bit < bits)
    (marked : mark table nodes bit = .ok result)
    : result.Unpadded bits := by
  intro tested outside node
  have other : tested ≠ bit := by omega
  rw [testBit_of_mark marked, unpadded tested outside node]
  simp [other]

section Steps

variable {analysis next : Analysis E} (unpadded : analysis.Unpadded) (full : analysis.Sized)
  (inRange : analysis.graph.InRange)

include unpadded full inRange

/-- Where a fact ends with no scope, the pass over the edges copies it nowhere. -/
theorem Unpadded.addFlowExitKills {heard : Silent}
    (passed : analysis.addFlowExitKills .none Silent.silent = .ok (next, heard))
    : next.Unpadded := by
  obtain ⟨kills, _, ran, _, columns⟩ :=
    addFlowExitKills_simulates full inRange .none Silent.silent
  rw [passed] at ran
  cases ran
  refine { unpadded with scopeEndKills := fun bit outside node => ?_ }
  have same : factColumn kills bit = factColumn analysis.scopeEndKills bit :=
    (columns bit).trans
      (foldl_widenColumn_of_unkilled _ _ (unpadded.scopeEndKills bit outside))
  exact (congrFun same node).trans (unpadded.scopeEndKills bit outside node)

/-- A fact that is at no node and established at none comes to no node in a run. -/
theorem Unpadded.solve {tally : Tally} {heard : Silent}
    (solved : analysis.solve .none Silent.silent = .ok (next, tally, heard))
    : next.Unpadded := by
  obtain ⟨final, _, _, rounds, ran, reaches⟩ := solve_ends full inRange .none Silent.silent
  rw [solved] at ran
  cases ran
  refine { unpadded with onEntry := fun bit outside node => ?_ }
  have still : (analysis.factRule bit).sweep (stopsOf analysis.graph analysis.direction)
      (factColumn analysis.onEntry bit) = factColumn analysis.onEntry bit :=
    FactRule.sweep_of_absent _ (unpadded.onEntry bit outside) (unpadded.gens bit outside) _
  have same : factColumn final bit = factColumn analysis.onEntry bit :=
    (reaches.columns bit).trans (Function.iterate_fixed still rounds)
  exact (congrFun same node).trans (unpadded.onEntry bit outside node)

/-- Recording a declared fact leaves the tables unpadded, by cases on what a recording can do. -/
theorem Unpadded.record {recording : Recording E} (declared : recording.Declared analysis.bits)
    (made : analysis.record recording = .ok next)
    : next.Unpadded := by
  cases recorded_of_record made with
  | ignored => exact unpadded
  | gen marked => exact { unpadded with gens := unpadded_of_mark unpadded.gens declared marked }
  | scopeEndKill marked =>
      have kills := unpadded_of_mark unpadded.scopeEndKills declared marked
      exact { unpadded with scopeEndKills := kills }
  | executionKill marked =>
      have kills := unpadded_of_mark unpadded.executionKills declared marked
      exact { unpadded with executionKills := kills }
  | flowExits passed => exact unpadded.addFlowExitKills full inRange passed

theorem Unpadded.perform {operation : Operation E} (declared : operation.Declared analysis.bits)
    (performed : analysis.perform operation = .ok next)
    : next.Unpadded := by
  cases declared with
  | record declared => exact unpadded.record full inRange declared performed
  | solve =>
      obtain ⟨⟨solved, tally, heard⟩, ran, last⟩ := bind_eq_ok.mp performed
      cases last
      exact unpadded.solve full inRange ran

end Steps

/-- Any number of operations on declared facts succeed and leave the tables full and unpadded. -/
theorem performAll_unpadded {start : Analysis E} (full : start.Sized) (unpadded : start.Unpadded)
    (inRange : start.graph.InRange) (operations : List (Operation E))
    (declared : ∀ operation ∈ operations, operation.Declared start.bits)
    : ∃ reached, start.performAll operations = .ok reached
      ∧ Keeps start reached ∧ reached.Unpadded := by
  refine foldlM_succeeds (fun state : Analysis E => Keeps start state ∧ state.Unpadded) operations
    start ⟨.refl full, unpadded⟩ ?_
  rintro state ⟨keeps, unpadded⟩ operation listed
  have declared := declared operation listed
  obtain ⟨next, performed, kept⟩ := keeps.perform inRange (declared.admissible _)
  rw [← keeps.bits] at declared
  rw [← keeps.graph] at inRange
  exact ⟨next, performed, kept, unpadded.perform keeps.sized inRange declared performed⟩

-----------------------------------------------------------------------------------------
-- Queries on unpadded tables
-----------------------------------------------------------------------------------------

section Queries

variable {analysis : Analysis E} (unpadded : analysis.Unpadded)

include unpadded

theorem Unpadded.viewRow {view : View} {node : Node} {row : Row}
    (found : analysis.viewRow view node = .ok row) {bit : Nat} (present : row.testBit bit = true)
    : bit < analysis.bits := by
  by_contra past
  have outside : analysis.bits ≤ bit := Nat.not_lt.mp past
  suffices absent : row.testBit bit = false by
    rw [absent] at present
    cases present
  cases view with
  | entry =>
      rw [← Table.testBit_of_row found]
      exact unpadded.onEntry bit outside node
  | exit =>
      obtain ⟨held, foundHeld, transferred⟩ := bind_eq_ok.mp found
      obtain ⟨gens, _, _, foundGens, _, _, law⟩ := testBit_of_transfer transferred
      rw [law, ← Table.testBit_of_row foundHeld, ← Table.testBit_of_row foundGens,
        unpadded.onEntry bit outside node, unpadded.gens bit outside node]
      rfl
  | gens =>
      rw [← Table.testBit_of_row found]
      exact unpadded.gens bit outside node

/-- A query shows an accepting predicate all the facts of the rows that it reads. Witness: each of
them is below the width at which the walk of a row would end.
-/
theorem Unpadded.walk {view : View} {element : E} {rows : List Row}
    (found : (analysis.graph.index.nodes element).mapM (analysis.viewRow view) = .ok rows)
    {σ : Type} {accept : Nat → σ → Bool × σ}
    (accepting : ∀ fact state, (accept fact state).1 = true) (state : σ)
    : analysis.walk view element accept state
      = .ok
        (true, (rows.flatMap Row.bits).foldl (fun state fact => (accept fact state).2) state) := by
  have below : ∀ row ∈ rows, ∀ bit ∈ row.bits, bit < analysis.bits := by
    intro row listed bit present
    obtain ⟨node, _, read⟩ := exists_of_mem_mapM found listed
    exact unpadded.viewRow read (Row.mem_bits.mp present)
  rw [Analysis.walk]
  split
  case isTrue none =>
    have nothing : rows.flatMap Row.bits = [] := by
      apply List.flatMap_eq_nil_iff.mpr
      intro row listed
      apply List.eq_nil_iff_forall_not_mem.mpr
      intro bit present
      exact Nat.not_lt_zero bit (none ▸ below row listed bit present)
    rw [nothing]
    rfl
  case isFalse =>
    have whole : rows.flatMap (fun row => row.bits.takeWhile (· < analysis.bits))
        = rows.flatMap Row.bits := by
      apply List.flatMap_congr
      intro row listed
      apply List.takeWhile_eq_self_iff.mpr
      intro bit present
      exact decide_eq_true (below row listed bit present)
    rw [walkNodes_eq_walkFacts found, walkFacts_of_accepting accepting, whole]

end Queries

/-- Over any graph in range, under either join and in either direction, let nodes start without facts.
Whatever operations on declared facts follow, in whatever order, they succeed, and no row of the four
tables then has a fact past the declared width. A query of any kind about any element therefore shows
an accepting predicate every fact of the rows that it reads, row by row and in increasing order.
-/
theorem performAll_never_pads {graph : GraphView E} (inRange : graph.InRange) {merge : Merge}
    (empty : merge.startsFull = false) (bits : Nat) (direction : Direction)
    (operations : List (Operation E))
    (declared : ∀ operation ∈ operations, operation.Declared bits)
    : ∃ reached, (initial graph merge bits direction).performAll operations = .ok reached
      ∧ (∀ table ∈
          [reached.gens, reached.scopeEndKills, reached.executionKills, reached.onEntry],
          ∀ node < graph.nodeCount,
            ∃ row, table.row node = .ok row ∧ ∀ bit, bits ≤ bit → row.testBit bit = false)
      ∧ ∀ view element,
          ∃ rows, (graph.index.nodes element).mapM (reached.viewRow view) = .ok rows
            ∧ ∀ (σ : Type) (accept : Nat → σ → Bool × σ) (state : σ),
                (∀ fact state, (accept fact state).1 = true)
                → reached.walk view element accept state
                  = .ok
                    (true,
                      (rows.flatMap Row.bits).foldl (fun state fact => (accept fact state).2)
                        state) := by
  obtain ⟨reached, performed, keeps, unpadded⟩ :=
    performAll_unpadded (sized_initial graph merge bits direction)
      (unpadded_initial empty graph bits direction) inRange operations declared
  have full := keeps.sized
  have sameGraph : reached.graph = graph := keeps.graph
  have sameBits : reached.bits = bits := keeps.bits
  refine ⟨reached, performed, ?_, ?_⟩
  · have tables : ∀ table ∈
        [reached.gens, reached.scopeEndKills, reached.executionKills, reached.onEntry],
        table.Sized reached.graph.nodeCount reached.width ∧ table.Unpadded reached.bits := by
      simp [full.gens, full.scopeEndKills, full.executionKills, full.onEntry, unpadded.gens,
        unpadded.scopeEndKills, unpadded.executionKills, unpadded.onEntry]
    intro table listed node inside
    obtain ⟨sized, clear⟩ := tables table listed
    rw [← sameGraph] at inside
    obtain ⟨row, found, _⟩ := sized.row inside
    refine ⟨row, found, fun bit outside => ?_⟩
    rw [← Table.testBit_of_row found]
    exact clear bit (sameBits.le.trans outside) node
  · intro view element
    rw [← sameGraph] at inRange
    obtain ⟨rows, found⟩ := full.viewRows view (inRange.index element)
    rw [← sameGraph]
    exact ⟨rows, found, fun σ accept state accepting => unpadded.walk found accepting state⟩

/-- Facts below 40 established and killed between two runs and two passes over the edges. -/
def mixedOperations : List (Operation Nat) :=
  [
    .record (.gen 7 39),
    .solve,
    .record (.kill .scopeEnd 8 33),
    .record .flowExits,
    .record (.kill .execution 7 2),
    .record .flowExits,
    .solve
  ]

theorem performAll_never_pads_nestedExits
    : (nestedExits [innerExit, outerExit]).graph.InRange
      ∧ (∀ operation ∈ mixedOperations, operation.Declared 40)
      ∧ ∃ reached row,
          (initial (nestedExits [innerExit, outerExit]).graph
                { join := .subtract, startsFull := false } 40 .backward).performAll mixedOperations
            = .ok reached
          ∧ reached.scopeEndKills.row 0 = .ok row
          ∧ row.testBit 63 = false := by
  have inRange : (nestedExits [innerExit, outerExit]).graph.InRange :=
    GraphView.listed_inRange (by decide) (by decide) (by decide)
  have declared : ∀ operation ∈ mixedOperations, operation.Declared 40 := by
    simp only [mixedOperations, List.forall_mem_cons]
    exact ⟨.record (by decide), .solve, .record (by decide), .record (by decide),
      .record (by decide), .record (by decide), .solve, List.forall_mem_nil _⟩
  obtain ⟨reached, performed, rows, _⟩ := performAll_never_pads inRange
    (show ({ join := .subtract, startsFull := false } : Merge).startsFull = false from rfl) 40
    .backward mixedOperations declared
  obtain ⟨row, found, clear⟩ := rows reached.scopeEndKills (by simp) 0 (by decide)
  exact ⟨inRange, declared, reached, row, performed, found, clear 63 (by decide)⟩

end Analysis

end Dataflow
