import Dataflow.Proofs.Analysis.FlowExits

/-! What is recorded before an analysis is solved. No recording touches anything but the tables of
what is established and killed, and over a graph in range none fails whose fact fits the rows.
-/

namespace Dataflow.Analysis

variable {E : Type} [Ord E]

/-- A step that prepares an analysis: a fact established or killed wherever an element occurs, or
the pass over the edges that leave scopes.
-/
inductive Recording (E : Type) where
  | gen (element : E) (bit : Nat)
  | kill (kind : KillKind) (element : E) (bit : Nat)
  | flowExits
deriving DecidableEq, Repr

/-- The fact that is recorded has a place in rows of `width` words. -/
def Recording.Fits (width : Nat) : Recording E → Prop
  | gen _ bit => bit < wordBits * width
  | kill _ _ bit => bit < wordBits * width
  | flowExits => True

instance (width : Nat) : DecidablePred (Recording.Fits width : Recording E → Prop)
  | .gen _ bit => inferInstanceAs (Decidable (bit < wordBits * width))
  | .kill _ _ bit => inferInstanceAs (Decidable (bit < wordBits * width))
  | .flowExits => inferInstanceAs (Decidable True)

/-- Make one recording. -/
def record (analysis : Analysis E) : Recording E → Except Fault (Analysis E)
  | .gen element bit => analysis.addGen element bit
  | .kill kind element bit => analysis.addKill kind element bit
  | .flowExits => do
      let passed ← analysis.addFlowExitKills .none Silent.silent
      return passed.1

/-- Make several recordings in order. -/
def recordAll (analysis : Analysis E) (recordings : List (Recording E))
    : Except Fault (Analysis E) :=
  recordings.foldlM record analysis

/-- The tables of `later` are full, and it differs from `start` at most in what is established and
killed.
-/
structure Prepares (start later : Analysis E) : Prop where
  sized : later.Sized
  graph : later.graph = start.graph
  merge : later.merge = start.merge
  bits : later.bits = start.bits
  direction : later.direction = start.direction
  onEntry : later.onEntry = start.onEntry

theorem Prepares.refl {analysis : Analysis E} (full : analysis.Sized)
    : Prepares analysis analysis :=
  ⟨full, rfl, rfl, rfl, rfl, rfl⟩

-----------------------------------------------------------------------------------------
-- What a recording does
-----------------------------------------------------------------------------------------

/-- All that a recording can do: nothing if there are no facts, else mark its fact in the one table
that it is for, or make the pass over the edges.
-/
inductive Recorded (analysis : Analysis E) : Recording E → Analysis E → Prop
  | ignored {recording : Recording E} (none : analysis.bits = 0)
    : analysis.Recorded recording analysis
  | gen {element : E} {bit : Nat} {gens : Table}
    (marked : mark analysis.gens (analysis.graph.index.nodes element) bit = .ok gens)
    : analysis.Recorded (.gen element bit) { analysis with gens }
  | scopeEndKill {element : E} {bit : Nat} {kills : Table}
    (marked : mark analysis.scopeEndKills (analysis.graph.index.nodes element) bit = .ok kills)
    : analysis.Recorded (.kill .scopeEnd element bit) { analysis with scopeEndKills := kills }
  | executionKill {element : E} {bit : Nat} {kills : Table}
    (marked : mark analysis.executionKills (analysis.graph.index.nodes element) bit = .ok kills)
    : analysis.Recorded (.kill .execution element bit) { analysis with executionKills := kills }
  | flowExits {next : Analysis E} {heard : Silent}
    (passed : analysis.addFlowExitKills .none Silent.silent = .ok (next, heard))
    : analysis.Recorded .flowExits next

theorem recorded_of_record {analysis next : Analysis E} {recording : Recording E}
    (made : analysis.record recording = .ok next)
    : analysis.Recorded recording next := by
  cases recording with
  | gen element bit =>
      rw [record, addGen] at made
      split at made
      case isTrue none =>
        cases made
        exact .ignored none
      case isFalse =>
        obtain ⟨gens, marked, last⟩ := bind_eq_ok.mp made
        cases last
        exact .gen marked
  | kill kind element bit =>
      rw [record, addKill] at made
      split at made
      case isTrue none =>
        cases made
        exact .ignored none
      case isFalse =>
        cases kind with
        | scopeEnd =>
            obtain ⟨kills, marked, last⟩ := bind_eq_ok.mp made
            cases last
            exact .scopeEndKill marked
        | execution =>
            obtain ⟨kills, marked, last⟩ := bind_eq_ok.mp made
            cases last
            exact .executionKill marked
  | flowExits =>
      obtain ⟨passed, widened, last⟩ := bind_eq_ok.mp made
      cases last
      exact .flowExits widened

/-- Marking adds the fact at the given nodes and changes nothing else, by induction on the nodes. -/
theorem testBit_of_mark {table result : Table} {nodes : List Node} {bit : Nat}
    (marked : mark table nodes bit = .ok result) (node tested : Nat)
    : result.testBit node tested
      = (table.testBit node tested || decide (node ∈ nodes ∧ tested = bit)) := by
  induction nodes generalizing table with
  | nil =>
      cases marked
      simp
  | cons first rest ih =>
      rw [mark, List.foldlM_cons] at marked
      obtain ⟨next, stored, remaining⟩ := bind_eq_ok.mp marked
      rw [ih remaining, Table.testBit_of_setBit stored, Bool.or_assoc, ← Bool.decide_or]
      simp only [List.mem_cons, or_and_right]

-----------------------------------------------------------------------------------------
-- What a recording keeps
-----------------------------------------------------------------------------------------

theorem sized_of_mark {table result : Table} {count width bit : Nat} {nodes : List Node}
    (sized : table.Sized count width) (marked : mark table nodes bit = .ok result)
    : result.Sized count width := by
  refine foldlM_keeps (fun state : Table => state.Sized count width) marked sized ?_
  intro state kept node _ next stored
  obtain ⟨_, row, _, _, rfl⟩ := Table.setBit_eq_ok stored
  exact kept.setRow node row

theorem sized_of_widenAt {σ : Type} [Sink σ] {index : ElementIndex E} {mask : Mask}
    {state next : Widening σ} {edge : Edge E} {count width : Nat}
    (sized : state.kills.Sized count width) (widens : widenAt index mask state edge = .ok next)
    : next.kills.Sized count width := by
  obtain ⟨held, gathered, _, _, rfl⟩ := widenAt_eq_ok.mp widens
  split
  case isTrue => exact sized
  case isFalse => exact sized.setRow edge.source gathered.1

/-- A recording that succeeds keeps what came before, whatever it records. -/
theorem Prepares.of_record {start analysis next : Analysis E} (prepares : Prepares start analysis)
    {recording : Recording E} (made : analysis.record recording = .ok next)
    : Prepares start next := by
  have full := prepares.sized
  cases recorded_of_record made with
  | ignored => exact prepares
  | gen marked =>
      exact { prepares with sized := { full with gens := sized_of_mark full.gens marked } }
  | scopeEndKill marked =>
      have sized := sized_of_mark full.scopeEndKills marked
      exact { prepares with sized := { full with scopeEndKills := sized } }
  | executionKill marked =>
      have sized := sized_of_mark full.executionKills marked
      exact { prepares with sized := { full with executionKills := sized } }
  | flowExits passed =>
      rw [addFlowExitKills] at passed
      split at passed
      case isTrue =>
        cases passed
        exact prepares
      case isFalse =>
        obtain ⟨final, folded, last⟩ := bind_eq_ok.mp passed
        have sized := foldlM_keeps
          (fun state : Widening Silent =>
            state.kills.Sized analysis.graph.nodeCount analysis.width)
          folded full.scopeEndKills (fun _ kept _ _ _ widens => sized_of_widenAt kept widens)
        cases last
        exact { prepares with sized := { full with scopeEndKills := sized } }

/-- Recordings that succeed keep what came before, by induction on their list. -/
theorem prepares_of_recordAll {analysis recorded : Analysis E} (full : analysis.Sized)
    {recordings : List (Recording E)} (made : analysis.recordAll recordings = .ok recorded)
    : Prepares analysis recorded :=
  foldlM_keeps (Prepares analysis) made (.refl full)
    fun _ prepares _ _ _ step => prepares.of_record step

-----------------------------------------------------------------------------------------
-- Which recordings succeed
-----------------------------------------------------------------------------------------

theorem mark_succeeds {table : Table} {count width bit : Nat} (sized : table.Sized count width)
    {nodes : List Node} (inside : ∀ node ∈ nodes, node < count) (fits : bit < wordBits * width)
    : ∃ result, mark table nodes bit = .ok result ∧ result.Sized count width :=
  foldlM_succeeds (fun state : Table => state.Sized count width) nodes table sized
    fun _ kept node listed => kept.setBit (inside node listed) fits

/-- A recording whose fact fits succeeds. -/
theorem Prepares.record {start analysis : Analysis E} (prepares : Prepares start analysis)
    (inRange : start.graph.InRange) {recording : Recording E}
    (fits : recording.Fits start.width)
    : ∃ next, analysis.record recording = .ok next := by
  have full := prepares.sized
  rw [← prepares.graph] at inRange
  rw [show start.width = analysis.width by rw [width, width, prepares.bits]] at fits
  cases recording with
  | gen element bit =>
      obtain ⟨gens, marked, _⟩ := mark_succeeds full.gens (inRange.index element) fits
      rw [Analysis.record, addGen]
      split
      · exact ⟨_, rfl⟩
      · exact ⟨_, bind_eq_ok.mpr ⟨gens, marked, rfl⟩⟩
  | kill kind element bit =>
      rw [Analysis.record, addKill]
      split
      · exact ⟨_, rfl⟩
      · cases kind with
        | scopeEnd =>
            obtain ⟨kills, marked, _⟩ :=
              mark_succeeds full.scopeEndKills (inRange.index element) fits
            exact ⟨_, bind_eq_ok.mpr ⟨kills, marked, rfl⟩⟩
        | execution =>
            obtain ⟨kills, marked, _⟩ :=
              mark_succeeds full.executionKills (inRange.index element) fits
            exact ⟨_, bind_eq_ok.mpr ⟨kills, marked, rfl⟩⟩
  | flowExits =>
      obtain ⟨_, _, passed, _⟩ := addFlowExitKills_simulates full inRange .none Silent.silent
      exact ⟨_, bind_eq_ok.mpr ⟨_, passed, rfl⟩⟩

/-- Any number of recordings whose facts fit succeed, by induction on their list. -/
theorem recordAll_succeeds {analysis : Analysis E} (full : analysis.Sized)
    (inRange : analysis.graph.InRange) (recordings : List (Recording E))
    (fit : ∀ recording ∈ recordings, recording.Fits analysis.width)
    : ∃ recorded, analysis.recordAll recordings = .ok recorded := by
  obtain ⟨recorded, made, _⟩ :=
    foldlM_succeeds (Prepares analysis) recordings analysis (.refl full) (by
      intro state prepares recording listed
      obtain ⟨next, made⟩ := prepares.record inRange (fit recording listed)
      exact ⟨next, made, prepares.of_record made⟩)
  exact ⟨recorded, made⟩

end Dataflow.Analysis
