import Dataflow.Proofs.Analysis.Column
import Dataflow.Proofs.Bits.Facts
import Mathlib.Data.Finset.Prod

/-! Sweeps over tables, fact by fact. On tables with one full row per node and a route through those
nodes no step of a sweep fails, every fact moves exactly as it does on its own, and the updates
that a sweep counts are the changes it makes.
-/

namespace Dataflow.Analysis

variable {E σ : Type} [Ord E]

-----------------------------------------------------------------------------------------
-- Analyses with full tables, and their facts
-----------------------------------------------------------------------------------------

/-- The four tables store one full row for each node of the graph. -/
structure Sized (analysis : Analysis E) : Prop where
  gens : analysis.gens.Sized analysis.graph.nodeCount analysis.width
  scopeEndKills : analysis.scopeEndKills.Sized analysis.graph.nodeCount analysis.width
  executionKills : analysis.executionKills.Sized analysis.graph.nodeCount analysis.width
  onEntry : analysis.onEntry.Sized analysis.graph.nodeCount analysis.width

theorem sized_initial (graph : GraphView E) (merge : Merge) (bits : Nat) (direction : Direction)
    : (initial graph merge bits direction).Sized where
  gens := Table.sized_filled _ _ _
  scopeEndKills := Table.sized_filled _ _ _
  executionKills := Table.sized_filled _ _ _
  onEntry := Table.sized_filled _ _ _

theorem Sized.withOnEntry {analysis : Analysis E} (full : analysis.Sized) {table : Table}
    (sized : table.Sized analysis.graph.nodeCount analysis.width)
    : ({ analysis with onEntry := table } : Analysis E).Sized :=
  { full with onEntry := sized }

theorem Sized.withGraph {analysis : Analysis E} (full : analysis.Sized) {graph : GraphView E}
    (count : graph.nodeCount = analysis.graph.nodeCount)
    : { analysis with graph }.Sized := by
  constructor
  · exact count ▸ full.gens
  · exact count ▸ full.scopeEndKills
  · exact count ▸ full.executionKills
  · exact count ▸ full.onEntry

/-- One fact of a table at every node. -/
def factColumn (table : Table) (bit : Nat) : Column :=
  fun node => table.testBit node bit

/-- Whether either kind of kill ends a fact at a node. -/
def killed (analysis : Analysis E) (bit : Nat) : Column :=
  fun node => analysis.executionKills.testBit node bit || analysis.scopeEndKills.testBit node bit

/-- How an analysis treats one fact. -/
def factRule (analysis : Analysis E) (bit : Nat) : FactRule :=
  {
    join := analysis.merge.join,
    gens := factColumn analysis.gens bit,
    kills := analysis.killed bit
  }

/-- A fact past the last word of the rows is nowhere, so no sweep moves it. -/
theorem sweep_factColumn_of_le {analysis : Analysis E} (full : analysis.Sized) {bit : Nat}
    (outside : wordBits * analysis.width ≤ bit) {table : Table}
    (sized : table.Sized analysis.graph.nodeCount analysis.width) (stops : List Stop)
    : (analysis.factRule bit).sweep stops (factColumn table bit) = factColumn table bit :=
  FactRule.sweep_of_absent _ (sized.testBit_of_le outside) (full.gens.testBit_of_le outside) stops

/-- The facts of a table that its join can still move. -/
def openFacts (join : Join) (count width : Nat) (table : Table) : Finset (Nat × Nat) :=
  (Finset.range count ×ˢ Finset.range (wordBits * width)).filter fun place =>
    table.testBit place.1 place.2 ≠ join.settled

theorem mem_openFacts {join : Join} {count width : Nat} {table : Table} {node bit : Nat}
    : (node, bit) ∈ openFacts join count width table
      ↔ (node < count ∧ bit < wordBits * width) ∧ table.testBit node bit ≠ join.settled := by
  simp [openFacts]

/-- The number of facts on entry that an analysis can still move. -/
def openCount (analysis : Analysis E) (onEntry : Table) : Nat :=
  (openFacts analysis.merge.join analysis.graph.nodeCount analysis.width onEntry).card

theorem openCount_le (analysis : Analysis E) (onEntry : Table)
    : analysis.openCount onEntry ≤ wordBits * analysis.width * analysis.graph.nodeCount := by
  refine (Finset.card_filter_le _ _).trans ?_
  rw [Finset.card_product, Finset.card_range, Finset.card_range, Nat.mul_comm]

theorem rows_of_length_eq (join : Join) {held arriving : Row}
    (lengths : held.length = arriving.length)
    : ∃ result, join.rows held arriving = .ok result ∧ result.length = held.length := by
  have joined : join.rows held arriving = .ok (List.zipWith join.word held arriving) :=
    Join.rows_eq_ok.mpr ⟨lengths, rfl⟩
  exact ⟨_, joined, Join.length_of_rows joined⟩

/-- The transfer of a node succeeds on full rows and lets each fact through by its own rule. -/
theorem Sized.transfer {analysis : Analysis E} (sized : analysis.Sized) {node : Node}
    (inside : node < analysis.graph.nodeCount) {row : Row} (length : row.length = analysis.width)
    : ∃ leaving, analysis.transfer node row = .ok leaving ∧ leaving.length = analysis.width
      ∧ ∀ bit, leaving.testBit bit
        = ((row.testBit bit || factColumn analysis.gens bit node)
          && !analysis.killed bit node) := by
  obtain ⟨gens, foundGens, gensLength⟩ := sized.gens.row inside
  obtain ⟨executed, foundExecuted, executedLength⟩ := sized.executionKills.row inside
  obtain ⟨ended, foundEnded, endedLength⟩ := sized.scopeEndKills.row inside
  obtain ⟨gained, joined, gainedLength⟩ :=
    rows_of_length_eq .union (length.trans gensLength.symm)
  obtain ⟨kept, subtracted, keptLength⟩ :=
    rows_of_length_eq .subtract (gainedLength.trans (length.trans executedLength.symm))
  obtain ⟨leaving, last, leavingLength⟩ :=
    rows_of_length_eq .subtract
      (keptLength.trans (gainedLength.trans (length.trans endedLength.symm)))
  have transferred : analysis.transfer node row = .ok leaving :=
    bind_eq_ok.mpr ⟨gens, foundGens, bind_eq_ok.mpr ⟨gained, joined,
      bind_eq_ok.mpr ⟨executed, foundExecuted, bind_eq_ok.mpr ⟨kept, subtracted,
        bind_eq_ok.mpr ⟨ended, foundEnded, last⟩⟩⟩⟩⟩
  refine ⟨leaving, transferred,
    leavingLength.trans (keptLength.trans (gainedLength.trans length)), fun bit => ?_⟩
  obtain ⟨_, _, _, readGens, readExecuted, readEnded, law⟩ := testBit_of_transfer transferred
  rw [law, ← Table.testBit_of_row readGens, ← Table.testBit_of_row readExecuted,
    ← Table.testBit_of_row readEnded, Bool.and_assoc, ← Bool.not_or]
  rfl

-----------------------------------------------------------------------------------------
-- Deliveries count exactly the changes they make
-----------------------------------------------------------------------------------------

/-- How the progress of a sweep may go on from `start`: tables stay full, every counted update
moves a fact that could still move, and without a counted update nothing has changed.
-/
structure Follows (analysis : Analysis E) (start later : Progress σ) : Prop where
  sized : later.onEntry.Sized analysis.graph.nodeCount analysis.width
  counted : start.updates ≤ later.updates
  still : later.updates = start.updates → later.onEntry = start.onEntry
  spent
    : analysis.openCount later.onEntry + later.updates
        ≤ analysis.openCount start.onEntry + start.updates

theorem Follows.refl {analysis : Analysis E} {progress : Progress σ}
    (sized : progress.onEntry.Sized analysis.graph.nodeCount analysis.width)
    : Follows analysis progress progress :=
  ⟨sized, Nat.le_refl _, fun _ => rfl, Nat.le_refl _⟩

theorem Follows.trans {analysis : Analysis E} {first middle last : Progress σ}
    (early : Follows analysis first middle) (late : Follows analysis middle last)
    : Follows analysis first last := by
  refine ⟨late.sized, early.counted.trans late.counted, ?_, late.spent.trans early.spent⟩
  intro same
  have lower := early.counted
  have upper := late.counted
  have middleSame : middle.updates = first.updates := by omega
  rw [late.still (same.trans middleSame.symm), early.still middleSame]

/-- A sweep makes no update exactly when it leaves the table as it was. -/
theorem Follows.updates_eq_iff {analysis : Analysis E} {start later : Progress σ}
    (follows : Follows analysis start later)
    : later.updates = start.updates ↔ later.onEntry = start.onEntry := by
  refine ⟨follows.still, fun same => ?_⟩
  have spent := follows.spent
  have counted := follows.counted
  rw [same] at spent
  omega

variable [Sink σ]

/-- A merged row that differs from the held one settles a fact that was open. -/
theorem openFacts_setRow_ssubset {join : Join} {count width : Nat} {table : Table} {target : Node}
    {held leaving merged : Row} (sized : table.Sized count width) (inside : target < count)
    (found : table.row target = .ok held) (joined : join.rows held leaving = .ok merged)
    (changed : merged ≠ held)
    : openFacts join count width (table.setRow target merged)
      ⊂ openFacts join count width table := by
  have length := Join.length_of_rows joined
  have width_eq : held.length = width := (Table.length_of_row found).trans sized.width_eq
  have moves : ∀ bit, merged.testBit bit = held.testBit bit
      ∨ merged.testBit bit = join.settled := by
    intro bit
    rw [Join.testBit_of_rows joined, Join.bit_eq_ite]
    split
    · exact Or.inr rfl
    · exact Or.inl rfl
  obtain ⟨bit, moved⟩ := Row.exists_testBit_ne length changed
  have settled := (moves bit).resolve_left moved
  have stored : bit < wordBits * width := by
    by_contra outside
    have past : wordBits * width ≤ bit := Nat.not_lt.mp outside
    rw [Row.testBit_of_length_le (by rwa [length, width_eq]),
      Row.testBit_of_length_le (by rwa [width_eq])] at moved
    exact moved rfl
  refine (Finset.ssubset_iff_of_subset ?_).mpr ⟨(target, bit), ?_, ?_⟩
  · rintro ⟨node, other⟩ member
    rw [mem_openFacts, Table.testBit_setRow found length] at member
    refine mem_openFacts.mpr ⟨member.1, ?_⟩
    split at member
    case isTrue here =>
      rw [here, Table.testBit_of_row found, ← (moves other).resolve_right member.2]
      exact member.2
    case isFalse => exact member.2
  · refine mem_openFacts.mpr ⟨⟨inside, stored⟩, ?_⟩
    rw [Table.testBit_of_row found, ← settled]
    exact moved.symm
  · intro member
    have unsettled := (mem_openFacts.mp member).2
    rw [Table.testBit_setRow found length, if_pos rfl] at unsettled
    exact unsettled settled

section Steps

variable {analysis : Analysis E} (mask : Mask) (sweep : Nat)

/-- A delivery within the graph succeeds and merges each fact on its own. -/
theorem deliver_simulates {progress : Progress σ}
    (sized : progress.onEntry.Sized analysis.graph.nodeCount analysis.width) (source : Node)
    {leaving : Row} (length : leaving.length = analysis.width) {target : Node}
    (inside : target < analysis.graph.nodeCount)
    : ∃ next, deliver analysis mask sweep source leaving progress target = .ok next
      ∧ Follows analysis progress next
      ∧ ∀ bit, factColumn next.onEntry bit
        = (analysis.factRule bit).deliver (leaving.testBit bit)
            (factColumn progress.onEntry bit) target := by
  obtain ⟨held, found, heldLength⟩ := sized.row inside
  obtain ⟨merged, joined, mergedLength⟩ :=
    rows_of_length_eq analysis.merge.join (heldLength.trans length.symm)
  have law : ∀ bit, merged.testBit bit
      = analysis.merge.join.bit (progress.onEntry.testBit target bit) (leaving.testBit bit) := by
    intro bit
    rw [Join.testBit_of_rows joined, Table.testBit_of_row found]
  refine ⟨_, deliver_eq_ok.mpr ⟨held, merged, found, joined, rfl⟩, ?_⟩
  split
  case isTrue same =>
    refine ⟨.refl sized, fun bit => ?_⟩
    funext node
    simp only [FactRule.deliver, factColumn]
    split
    case isTrue here =>
      rw [here]
      exact (Table.testBit_of_row found bit).trans (same ▸ law bit)
    case isFalse => rfl
  case isFalse changed =>
    have strict : analysis.openCount (progress.onEntry.setRow target merged)
        < analysis.openCount progress.onEntry :=
      Finset.card_lt_card (openFacts_setRow_ssubset sized inside found joined changed)
    refine ⟨⟨sized.setRow target merged, Nat.le_succ _, fun impossible => ?_, ?_⟩, fun bit => ?_⟩
    · exact absurd impossible (Nat.succ_ne_self _)
    · simp only
      omega
    · funext node
      simp only [FactRule.deliver, factColumn, Table.testBit_setRow found mergedLength, law]
      rfl

/-- A visit within the graph succeeds and carries each fact on its own. Witness: its deliveries do,
and all of them take the row that leaves the node before the first.
-/
theorem visit_simulates (full : analysis.Sized) {progress : Progress σ}
    (sized : progress.onEntry.Sized analysis.graph.nodeCount analysis.width) {stop : Stop}
    (inside : stop.node < analysis.graph.nodeCount)
    (targets : ∀ target ∈ stop.targets, target < analysis.graph.nodeCount)
    : ∃ next, visit analysis mask sweep progress stop = .ok next
      ∧ Follows analysis progress next
      ∧ ∀ bit, factColumn next.onEntry bit
        = (analysis.factRule bit).visit (factColumn progress.onEntry bit) stop := by
  obtain ⟨held, found, heldLength⟩ := sized.row inside
  obtain ⟨leaving, transferred, length, law⟩ := full.transfer inside heldLength
  obtain ⟨next, delivered, follows, columns⟩ := foldlM_simulates (Follows analysis progress)
    (fun bit (state : Progress σ) => factColumn state.onEntry bit)
    (fun bit column target => (analysis.factRule bit).deliver (leaving.testBit bit) column target)
    stop.targets progress (.refl sized)
    (by
      intro state reached target listed
      obtain ⟨after, step, further, column⟩ :=
        deliver_simulates mask sweep reached.sized stop.node length (targets target listed)
      exact ⟨after, step, reached.trans further, column⟩)
  refine ⟨next, bind_eq_ok.mpr ⟨held, found, bind_eq_ok.mpr ⟨leaving, transferred, delivered⟩⟩,
    follows, fun bit => ?_⟩
  have leaves : leaving.testBit bit
      = (analysis.factRule bit).leaving (factColumn progress.onEntry bit) stop.node := by
    rw [law bit, ← Table.testBit_of_row found]
    rfl
  rw [columns bit, FactRule.visit, leaves]

/-- A sweep within the graph succeeds and sweeps each fact on its own. -/
theorem sweepOnce_simulates (full : analysis.Sized) {stops : List Stop}
    (inRange : RouteInRange analysis.graph.nodeCount stops) {onEntry : Table}
    (sized : onEntry.Sized analysis.graph.nodeCount analysis.width) (sink : σ)
    : ∃ final, sweepOnce analysis mask sweep stops onEntry sink = .ok final
      ∧ Follows analysis (.start onEntry sink) final
      ∧ ∀ bit, factColumn final.onEntry bit
        = (analysis.factRule bit).sweep stops (factColumn onEntry bit) := by
  refine foldlM_simulates (Follows analysis (.start onEntry sink))
    (fun bit (state : Progress σ) => factColumn state.onEntry bit)
    (fun bit => (analysis.factRule bit).visit) stops (.start onEntry sink)
    (.refl sized) ?_
  intro state reached stop listed
  obtain ⟨inside, targets⟩ := inRange stop listed
  obtain ⟨next, step, further, column⟩ :=
    visit_simulates mask sweep full reached.sized inside targets
  exact ⟨next, step, reached.trans further, column⟩

end Steps

end Dataflow.Analysis
