import Dataflow.Proofs.Analysis.Operations

/-! The facts that recordings leave in the tables. Each recording adds its fact to one table, at the
nodes of one element, and disturbs no other fact, node or table. After any number of them a fact is
where one of them has put it and nowhere else, so that neither their order nor their repetition
matters, and what a node lets through is settled by which facts were recorded there: a kill wins
over a fact established at the same node, whichever came first.
-/

namespace Dataflow.Analysis

variable {E : Type}

/-- Recordings that mark a fact which has a place in rows of `width` words. -/
inductive Recording.Marks (width : Nat) : Recording E → Prop
  | gen {element : E} {bit : Nat} (fits : bit < wordBits * width) : Marks width (.gen element bit)
  | kill {kind : KillKind} {element : E} {bit : Nat} (fits : bit < wordBits * width)
    : Marks width (.kill kind element bit)

theorem Recording.Marks.fits {width : Nat} {recording : Recording E}
    (marks : recording.Marks width)
    : recording.Fits width := by
  cases marks with
  | gen fits => exact fits
  | kill fits => exact fits

variable [Ord E]

/-- One of the recordings has the given form for an element that occurs at the node. -/
def RecordedAt (index : ElementIndex E) (recordings : List (Recording E))
    (form : E → Recording E) (node : Node)
    : Prop :=
  ∃ element, form element ∈ recordings ∧ node ∈ index.nodes element

/-- One of the recordings establishes the fact for an element that occurs at the node. -/
def EstablishedBy (index : ElementIndex E) (recordings : List (Recording E)) (node : Node)
    (bit : Nat)
    : Prop :=
  RecordedAt index recordings (.gen · bit) node

/-- One of the recordings kills the fact in the given way for an element that occurs at the node. -/
def KilledBy (index : ElementIndex E) (recordings : List (Recording E)) (kind : KillKind)
    (node : Node) (bit : Nat)
    : Prop :=
  RecordedAt index recordings (.kill kind · bit) node

section Membership

variable {index : ElementIndex E} {recordings others : List (Recording E)} {node : Node}

theorem recordedAt_append {form : E → Recording E}
    : RecordedAt index (recordings ++ others) form node
      ↔ RecordedAt index recordings form node ∨ RecordedAt index others form node := by
  simp only [RecordedAt, List.mem_append, or_and_right, exists_or]

theorem recordedAt_congr (same : ∀ recording, recording ∈ others ↔ recording ∈ recordings)
    {form : E → Recording E}
    : RecordedAt index others form node ↔ RecordedAt index recordings form node := by
  simp only [RecordedAt, same]

variable {bit : Nat}

theorem establishedBy_gen {element : E} {marked : Nat}
    : EstablishedBy index [.gen element marked] node bit
      ↔ node ∈ index.nodes element ∧ bit = marked := by
  simp only [EstablishedBy, RecordedAt, List.mem_singleton, Recording.gen.injEq]
  constructor
  · rintro ⟨_, ⟨rfl, rfl⟩, occurs⟩
    exact ⟨occurs, rfl⟩
  · rintro ⟨occurs, rfl⟩
    exact ⟨element, ⟨rfl, rfl⟩, occurs⟩

theorem killedBy_kill {kind other : KillKind} {element : E} {marked : Nat}
    : KilledBy index [.kill kind element marked] other node bit
      ↔ other = kind ∧ node ∈ index.nodes element ∧ bit = marked := by
  simp only [KilledBy, RecordedAt, List.mem_singleton, Recording.kill.injEq]
  constructor
  · rintro ⟨_, ⟨rfl, rfl, rfl⟩, occurs⟩
    exact ⟨rfl, occurs, rfl⟩
  · rintro ⟨rfl, occurs, rfl⟩
    exact ⟨element, ⟨rfl, rfl, rfl⟩, occurs⟩

end Membership

-----------------------------------------------------------------------------------------
-- What recordings add
-----------------------------------------------------------------------------------------

/-- From `start` to `later` the tables have gained the facts of the recordings and no others. -/
structure Gains (start : Analysis E) (recordings : List (Recording E)) (later : Analysis E)
    : Prop where
  gens
    : ∀ node bit, later.gens.testBit node bit = true
        ↔ start.gens.testBit node bit = true
          ∨ EstablishedBy start.graph.index recordings node bit
  kills
    : ∀ kind node bit, (later.kills kind).testBit node bit = true
        ↔ (start.kills kind).testBit node bit = true
          ∨ KilledBy start.graph.index recordings kind node bit

theorem Gains.refl (analysis : Analysis E) : analysis.Gains [] analysis := by
  constructor
  · simp [EstablishedBy, RecordedAt]
  · simp [KilledBy, RecordedAt]

theorem Gains.trans {start middle later : Analysis E} {early late : List (Recording E)}
    (before : start.Gains early middle) (after : middle.Gains late later)
    (same : middle.graph = start.graph)
    : start.Gains (early ++ late) later := by
  constructor
  · intro node bit
    rw [after.gens, before.gens, same, or_assoc]
    exact or_congr_right recordedAt_append.symm
  · intro kind node bit
    rw [after.kills, before.kills, same, or_assoc]
    exact or_congr_right recordedAt_append.symm

/-- Marking a fact as killed in one way changes the kills of that way alone. -/
theorem Gains.of_kill {analysis next : Analysis E} (kind : KillKind) {element : E} {bit : Nat}
    (marked : mark (analysis.kills kind) (analysis.graph.index.nodes element) bit
      = .ok (next.kills kind))
    (others : ∀ other, other ≠ kind → next.kills other = analysis.kills other)
    (gens : next.gens = analysis.gens)
    : analysis.Gains [.kill kind element bit] next := by
  constructor
  · simp [gens, EstablishedBy, RecordedAt]
  · intro other node tested
    rw [killedBy_kill]
    by_cases same : other = kind
    · rw [same, testBit_of_mark marked, Bool.or_eq_true, decide_eq_true_eq]
      simp
    · simp [others other same, same]

/-- A recording that marks a fact adds it to the one table that it is for, by cases on what a
recording can do.
-/
theorem gains_of_record {analysis next : Analysis E} (positive : 0 < analysis.bits)
    {recording : Recording E} {width : Nat} (marks : recording.Marks width)
    (made : analysis.record recording = .ok next)
    : analysis.Gains [recording] next := by
  cases recorded_of_record made with
  | ignored none => exact absurd none positive.ne'
  | gen marked =>
      constructor
      · intro node tested
        rw [establishedBy_gen, testBit_of_mark marked, Bool.or_eq_true, decide_eq_true_eq]
      · simp [KilledBy, RecordedAt, kills]
  | scopeEndKill marked =>
      refine .of_kill .scopeEnd marked (fun other different => ?_) rfl
      cases other with
      | scopeEnd => exact absurd rfl different
      | execution => rfl
  | executionKill marked =>
      refine .of_kill .execution marked (fun other different => ?_) rfl
      cases other with
      | scopeEnd => rfl
      | execution => exact absurd rfl different
  -- A pass over the edges marks no fact of its own.
  | flowExits => cases marks

/-- Recordings add their facts and no others, by induction on their list. -/
theorem gains_of_recordAll {analysis recorded : Analysis E} (full : analysis.Sized)
    (positive : 0 < analysis.bits) {recordings : List (Recording E)} {width : Nat}
    (marks : ∀ recording ∈ recordings, recording.Marks width)
    (made : analysis.recordAll recordings = .ok recorded)
    : analysis.Gains recordings recorded := by
  induction recordings generalizing analysis with
  | nil =>
      cases made
      exact .refl _
  | cons recording rest ih =>
      rw [recordAll, List.foldlM_cons] at made
      obtain ⟨next, first, remaining⟩ := bind_eq_ok.mp made
      have prepares := (Prepares.refl full).of_record first
      have gains := gains_of_record positive (marks recording List.mem_cons_self) first
      have later := ih prepares.sized (prepares.bits ▸ positive)
        (fun other listed => marks other (List.mem_cons_of_mem recording listed)) remaining
      exact gains.trans later prepares.graph

-----------------------------------------------------------------------------------------
-- The tables are determined by the recorded facts
-----------------------------------------------------------------------------------------

/-- Analyses that both differ from a third in their recorded facts alone are equal if their recorded
facts are.
-/
theorem Prepares.eq_of_testBit {start left right : Analysis E} (one : Prepares start left)
    (other : Prepares start right)
    (gens : ∀ node bit, left.gens.testBit node bit = right.gens.testBit node bit)
    (kills : ∀ kind node bit,
      (left.kills kind).testBit node bit = (right.kills kind).testBit node bit)
    : left = right := by
  have graph : left.graph = right.graph := one.graph.trans other.graph.symm
  have bits : left.bits = right.bits := one.bits.trans other.bits.symm
  have width : left.width = right.width := congrArg wordsFor bits
  have sized := other.sized
  have sameGens := one.sized.gens.ext_testBit (graph ▸ width ▸ sized.gens) gens
  have sameKills : ∀ kind, left.kills kind = right.kills kind := fun kind =>
    (one.sized.kills kind).ext_testBit (graph ▸ width ▸ sized.kills kind) (kills kind)
  cases left
  cases right
  simp only [mk.injEq]
  exact ⟨graph, one.merge.trans other.merge.symm, bits, one.direction.trans other.direction.symm,
    sameGens, sameKills .scopeEnd, sameKills .execution, one.onEntry.trans other.onEntry.symm⟩

theorem killed_iff {analysis : Analysis E} {node : Node} {bit : Nat}
    : analysis.killed bit node = true ↔ ∃ kind, (analysis.kills kind).testBit node bit = true := by
  rw [killed, Bool.or_eq_true]
  constructor
  · rintro (executed | ended)
    · exact ⟨.execution, executed⟩
    · exact ⟨.scopeEnd, ended⟩
  · rintro ⟨kind, present⟩
    cases kind with
    | scopeEnd => exact Or.inr present
    | execution => exact Or.inl present

section Fresh

variable {graph : GraphView E} (inRange : graph.InRange) (merge : Merge) {bits : Nat}
  (positive : 0 < bits) (direction : Direction)

include inRange positive

/-- On a fresh analysis the tables come to hold what is recorded and nothing else. -/
theorem recordAll_initial {recordings : List (Recording E)}
    (marks : ∀ recording ∈ recordings, recording.Marks (wordsFor bits))
    : ∃ recorded, (initial graph merge bits direction).recordAll recordings = .ok recorded
      ∧ Prepares (initial graph merge bits direction) recorded
      ∧ (∀ node bit, recorded.gens.testBit node bit = true
          ↔ EstablishedBy graph.index recordings node bit)
      ∧ ∀ kind node bit, (recorded.kills kind).testBit node bit = true
          ↔ KilledBy graph.index recordings kind node bit := by
  have full := sized_initial graph merge bits direction
  obtain ⟨recorded, made⟩ := recordAll_succeeds full inRange recordings
    fun recording listed => (marks recording listed).fits
  have gains := gains_of_recordAll full positive marks made
  have noGens : ∀ node bit, (initial graph merge bits direction).gens.testBit node bit = false :=
    Table.testBit_filled_zero _ _
  have noKills : ∀ kind node bit,
      ((initial graph merge bits direction).kills kind).testBit node bit = false := by
    intro kind
    cases kind with
    | scopeEnd => exact Table.testBit_filled_zero _ _
    | execution => exact Table.testBit_filled_zero _ _
  refine ⟨recorded, made, prepares_of_recordAll full made, fun node bit => ?_,
    fun kind node bit => ?_⟩
  · exact (gains.gens node bit).trans (or_iff_right (by simp [noGens]))
  · exact (gains.kills kind node bit).trans (or_iff_right (by simp [noKills]))

/-- Let recordings mark facts that fit the rows, in whatever order, on a fresh analysis of at least
one fact over a graph in range. All of them succeed, and the facts on entry stay as they were. A
fact is then established at a node exactly if a recording establishes it for an element that occurs
there, and killed in either way exactly if a recording does so. Of a full row the node lets through
the facts that are in it or established, less those that are killed. Recordings in another order, or
with repetitions, lead to the same analysis.
-/
theorem recordAll_exact {recordings : List (Recording E)}
    (marks : ∀ recording ∈ recordings, recording.Marks (wordsFor bits))
    : ∃ recorded, (initial graph merge bits direction).recordAll recordings = .ok recorded
      ∧ recorded.onEntry = (initial graph merge bits direction).onEntry
      ∧ (∀ node < graph.nodeCount,
          (∃ row, recorded.gens.row node = .ok row
            ∧ ∀ bit, row.testBit bit = true ↔ EstablishedBy graph.index recordings node bit)
          ∧ (∀ kind, ∃ row, (recorded.kills kind).row node = .ok row
            ∧ ∀ bit, row.testBit bit = true ↔ KilledBy graph.index recordings kind node bit)
          ∧ ∀ row : Row, row.length = wordsFor bits
            → ∃ leaving, recorded.transfer node row = .ok leaving
              ∧ ∀ bit, leaving.testBit bit = true
                  ↔ (row.testBit bit = true ∨ EstablishedBy graph.index recordings node bit)
                    ∧ ∀ kind, ¬KilledBy graph.index recordings kind node bit)
      ∧ ∀ others : List (Recording E),
          (∀ recording, recording ∈ others ↔ recording ∈ recordings)
          → (initial graph merge bits direction).recordAll others = .ok recorded := by
  obtain ⟨recorded, made, prepares, gens, kills⟩ :=
    recordAll_initial inRange merge positive direction marks
  have sized := prepares.sized
  have count : recorded.graph.nodeCount = graph.nodeCount := by
    rw [prepares.graph]
    rfl
  have width : recorded.width = wordsFor bits := by
    rw [Analysis.width, prepares.bits]
    rfl
  refine ⟨recorded, made, prepares.onEntry, fun node inside => ?_, fun others same => ?_⟩
  · rw [← count] at inside
    refine ⟨?_, fun kind => ?_, fun row length => ?_⟩
    · obtain ⟨row, found, _⟩ := sized.gens.row inside
      exact ⟨row, found, fun bit => Table.testBit_of_row found bit ▸ gens node bit⟩
    · obtain ⟨row, found, _⟩ := (sized.kills kind).row inside
      exact ⟨row, found, fun bit => Table.testBit_of_row found bit ▸ kills kind node bit⟩
    · obtain ⟨leaving, transferred, _, law⟩ := sized.transfer inside (length.trans width.symm)
      refine ⟨leaving, transferred, fun bit => ?_⟩
      rw [law, Bool.and_eq_true, Bool.or_eq_true, factColumn, gens, Bool.not_eq_true',
        ← Bool.not_eq_true, killed_iff, not_exists]
      simp only [kills]
  · obtain ⟨again, remade, preparesAgain, gensAgain, killsAgain⟩ :=
      recordAll_initial inRange merge positive direction
        fun recording listed => marks recording ((same recording).mp listed)
    rw [remade, preparesAgain.eq_of_testBit prepares]
    · intro node bit
      rw [Bool.eq_iff_iff, gensAgain, gens]
      exact recordedAt_congr same
    · intro kind node bit
      rw [Bool.eq_iff_iff, killsAgain, kills]
      exact recordedAt_congr same

end Fresh

/-- A graph of two nodes. One element occurs at node 1, at node 0 and again at node 1, another at
node 0 only.
-/
def sharedElements : GraphView Nat :=
  .listed 2 [1, 0] [] [(7, 1), (8, 0), (7, 0), (7, 1)]

/-- Facts established and killed at the nodes of both elements: fact 39 is killed at node 0 before
it is established there, and fact 50 lies past the 40 that are declared.
-/
def mixedRecordings : List (Recording Nat) :=
  [.kill .execution 8 39, .gen 7 39, .gen 8 50, .kill .scopeEnd 7 3, .gen 7 39]

theorem recordAll_exact_sharedElements
    : sharedElements.InRange
      ∧ (∀ recording ∈ mixedRecordings, recording.Marks (wordsFor 40))
      ∧ ∃ recorded leaving,
          (initial sharedElements .union 40 .forward).recordAll mixedRecordings = .ok recorded
          ∧ (initial sharedElements .union 40 .forward).recordAll mixedRecordings.reverse
            = .ok recorded
          ∧ recorded.transfer 0 [9, 0] = .ok leaving
          ∧ leaving.testBit 0 = true ∧ leaving.testBit 3 = false
          ∧ leaving.testBit 39 = false ∧ leaving.testBit 50 = true := by
  have inRange : sharedElements.InRange :=
    GraphView.listed_inRange (by decide) (by decide) (by decide)
  have marks : ∀ recording ∈ mixedRecordings, recording.Marks (wordsFor 40) := by
    simp only [mixedRecordings, List.forall_mem_cons]
    exact ⟨.kill (by decide), .gen (by decide), .gen (by decide), .kill (by decide),
      .gen (by decide), List.forall_mem_nil _⟩
  obtain ⟨recorded, made, _, rows, reordered⟩ :=
    recordAll_exact inRange .union (show 0 < 40 by decide) .forward marks
  obtain ⟨_, _, transfers⟩ := rows 0 (by decide)
  obtain ⟨leaving, transferred, law⟩ := transfers [9, 0] rfl
  refine ⟨inRange, marks, recorded, leaving, made,
    reordered mixedRecordings.reverse fun _ => List.mem_reverse, transferred, ?_, ?_, ?_, ?_⟩
  · refine (law 0).mpr ⟨Or.inl (by decide), fun kind => ?_⟩
    rintro ⟨element, listed, _⟩
    simp [mixedRecordings] at listed
  · apply Bool.eq_false_iff.mpr
    intro present
    exact ((law 3).mp present).2 .scopeEnd ⟨7, by decide, by decide +kernel⟩
  · apply Bool.eq_false_iff.mpr
    intro present
    exact ((law 39).mp present).2 .execution ⟨8, by decide, by decide +kernel⟩
  · refine (law 50).mpr ⟨Or.inr ⟨8, by decide, by decide +kernel⟩, fun kind => ?_⟩
    rintro ⟨element, listed, _⟩
    simp [mixedRecordings] at listed

end Dataflow.Analysis
