import Dataflow.Proofs.Analysis.Convergence
import Dataflow.Proofs.Trace.Listening

/-! The events of a run and their order. A run reports its start, then sweep after sweep the start
of the sweep, the changes it makes and its end, and at last its own end. The sweeps are numbered
from one on, each says at its end whether it has reported a change, and the last is the only one
that has not.
-/

namespace Dataflow

/-- A change to the facts on entry to `target` by those that leave `source`. -/
structure Change where
  source : Node
  target : Node
  row : Row
deriving DecidableEq, Repr

/-- The report of a change in a sweep. -/
def Change.event (sweep : Nat) (change : Change) : Event :=
  .entryChanged sweep change.source change.target change.row

/-- What one sweep reports: the changes it makes, and at its end whether it has made any. -/
structure SweepReport where
  changes : List Change
  changed : Bool
deriving DecidableEq, Repr

/-- The events of one sweep. -/
def SweepReport.events (sweep : Nat) (report : SweepReport) : List Event :=
  .sweepStart sweep :: report.changes.map (Change.event sweep)
    ++ [.sweepEnd sweep report.changed]

/-- The events of sweeps numbered from `sweep` on. -/
def sweepEvents : Nat → List SweepReport → List Event
  | _, [] => []
  | sweep, report :: later => report.events sweep ++ sweepEvents (sweep + 1) later

/-- Every sweep but the last reports a change, and each says rightly whether it does. -/
inductive Concludes : List SweepReport → Prop
  | quiet : Concludes [{ changes := [], changed := false }]
  | moving {changes : List Change} {later : List SweepReport} (some : changes ≠ [])
    (rest : Concludes later)
    : Concludes ({ changes, changed := true } :: later)

theorem Concludes.length_pos {reports : List SweepReport} (concludes : Concludes reports)
    : 0 < reports.length := by
  cases concludes with
  | quiet => exact Nat.one_pos
  | moving _ _ => exact Nat.succ_pos _

/-- A sweep says that it has changed something exactly if it reports a change, and only the last
says that it has not. By induction on the sweeps.
-/
theorem Concludes.changed_iff {reports : List SweepReport} (concludes : Concludes reports)
    {index : Nat} {report : SweepReport} (found : reports[index]? = some report)
    : (report.changed = true ↔ report.changes ≠ [])
      ∧ (report.changed = false ↔ index + 1 = reports.length) := by
  induction concludes generalizing index with
  | quiet =>
      cases index with
      | zero =>
          cases found
          simp
      | succ index => simp at found
  | moving some rest ih =>
      cases index with
      | zero =>
          cases found
          have positive := rest.length_pos
          refine ⟨iff_of_true rfl some, iff_of_false Bool.noConfusion ?_⟩
          rw [List.length_cons]
          omega
      | succ index =>
          rw [List.length_cons, Nat.succ_inj]
          exact ih found

theorem SweepReport.countP_events (sweep : Nat) (report : SweepReport)
    : (report.events sweep).countP (fun event => event.eventClass = .entry)
      = report.changes.length := by
  simp [events, Change.event, Event.eventClass, Function.comp_def]

/-- No sweep reports anything of the scopes that edges leave. -/
theorem eventClass_of_mem_sweepEvents {event : Event} {sweep : Nat} {reports : List SweepReport}
    (member : event ∈ sweepEvents sweep reports)
    : event.eventClass ≠ .flowExit := by
  induction reports generalizing sweep with
  | nil => cases member
  | cons report later ih =>
      rcases List.mem_append.mp member with here | after
      · simp only [SweepReport.events, List.cons_append, List.mem_cons, List.mem_append,
          List.mem_map, List.not_mem_nil, or_false] at here
        rcases here with rfl | ⟨change, _, rfl⟩ | rfl
        · exact EventClass.noConfusion
        · exact EventClass.noConfusion
        · exact EventClass.noConfusion
      · exact ih after

end Dataflow

namespace Dataflow.Analysis

variable {E : Type} [Ord E]

-----------------------------------------------------------------------------------------
-- A sweep logs exactly the changes it counts
-----------------------------------------------------------------------------------------

/-- From `start` to `later` the changes have been logged and counted. -/
structure Logs (sweep : Nat) (changes : List Change) (start later : Progress EventLog) : Prop where
  events
    : later.sink.events.toList = start.sink.events.toList ++ changes.map (Change.event sweep)
  counted : later.updates = start.updates + changes.length

theorem Logs.refl (sweep : Nat) (progress : Progress EventLog)
    : Logs sweep [] progress progress :=
  ⟨(List.append_nil _).symm, rfl⟩

theorem Logs.trans {sweep : Nat} {early late : List Change} {first middle last : Progress EventLog}
    (before : Logs sweep early first middle) (after : Logs sweep late middle last)
    : Logs sweep (early ++ late) first last := by
  refine ⟨?_, ?_⟩
  · rw [after.events, before.events, List.map_append, List.append_assoc]
  · rw [after.counted, before.counted, List.length_append, Nat.add_assoc]

/-- A fold whose steps log what they change does so as a whole. -/
theorem foldlM_logs {β : Type} {step : Progress EventLog → β → Except Fault (Progress EventLog)}
    {sweep : Nat} {inputs : List β} {start final : Progress EventLog}
    (steps : ∀ state input next, step state input = .ok next
      → ∃ changes, Logs sweep changes state next)
    (folded : inputs.foldlM step start = .ok final)
    : ∃ changes, Logs sweep changes start final :=
  foldlM_related (fun first last => ∃ changes, Logs sweep changes first last)
    (fun state => ⟨[], .refl sweep state⟩)
    (fun _ _ _ ⟨_, before⟩ ⟨_, after⟩ => ⟨_, before.trans after⟩) inputs start final
    (fun state input _ next stepped => steps state input next stepped) folded

section Steps

variable {analysis : Analysis E} {mask : Mask} {sweep : Nat} {progress next : Progress EventLog}
  (selected : mask.selects .entry = true)

include selected

/-- A delivery logs one change, or none if it makes none. -/
theorem deliver_logs {source target : Node} {leaving : Row}
    (delivered : deliver analysis mask sweep source leaving progress target = .ok next)
    : ∃ changes, Logs sweep changes progress next := by
  obtain ⟨held, merged, _, _, rfl⟩ := deliver_eq_ok.mp delivered
  split
  case isTrue => exact ⟨[], .refl sweep progress⟩
  case isFalse => exact ⟨[{ source, target, row := merged }], EventLog.toList_emit selected _, rfl⟩

theorem visit_logs {stop : Stop} (visited : visit analysis mask sweep progress stop = .ok next)
    : ∃ changes, Logs sweep changes progress next := by
  obtain ⟨held, _, afterRead⟩ := bind_eq_ok.mp visited
  obtain ⟨leaving, _, delivered⟩ := bind_eq_ok.mp afterRead
  exact foldlM_logs (fun _ _ _ => deliver_logs selected) delivered

theorem sweepOnce_logs {stops : List Stop} {onEntry : Table} {log : EventLog}
    (swept : sweepOnce analysis mask sweep stops onEntry log = .ok next)
    : ∃ changes, Logs sweep changes (.start onEntry log) next :=
  foldlM_logs (fun _ _ _ => visit_logs selected) swept

end Steps

section Loop

variable {analysis : Analysis E} {mask : Mask} {stops : List Stop} {onEntry : Table}
  {log : EventLog} (sweeps : mask.selects .sweep = true) (entries : mask.selects .entry = true)

include sweeps entries

/-- One turn of the loop logs the events of one sweep. -/
theorem sweep_logs {sweep : Nat} {progress : Progress EventLog}
    (swept : sweepOnce analysis mask sweep stops onEntry (emit mask (.sweepStart sweep) log)
      = .ok progress)
    : ∃ changes : List Change, progress.updates = changes.length
      ∧ (progress.changed = true ↔ changes ≠ [])
      ∧ (emit mask (.sweepEnd sweep progress.changed) progress.sink).events.toList
        = log.events.toList
          ++ SweepReport.events sweep { changes, changed := progress.changed } := by
  obtain ⟨changes, logs⟩ := sweepOnce_logs entries swept
  have counted : progress.updates = changes.length := logs.counted.trans (Nat.zero_add _)
  refine ⟨changes, counted, ?_, ?_⟩
  · rw [changed_sweepOnce analysis mask _ swept, counted, bne_iff_ne, ne_eq,
      List.length_eq_zero_iff]
  · rw [EventLog.toList_emit sweeps, logs.events, Progress.start, EventLog.toList_emit sweeps]
    simp [SweepReport.events]

/-- The loop logs the events of its sweeps and counts them. By induction on its turns: a turn with a
change is followed by the rest of the loop, and one without is the last.
-/
theorem sweepAll_logs {done : Tally} {outcome : Outcome EventLog}
    (ended : sweepAll analysis mask stops done onEntry log = .ok outcome)
    : ∃ reports, Concludes reports
      ∧ outcome.sink.events.toList
        = log.events.toList ++ sweepEvents (done.sweeps + 1) reports
      ∧ outcome.tally.sweeps = done.sweeps + reports.length
      ∧ outcome.tally.updates
        = done.updates
          + (sweepEvents (done.sweeps + 1) reports).countP
              (fun event => event.eventClass = .entry) := by
  fun_induction sweepAll analysis mask stops done onEntry log with
  | case1 done onEntry log sweep started fault failed => cases ended
  | case2 done onEntry log sweep started progress swept tally finished changed ih =>
      obtain ⟨changes, counted, flag, events⟩ := sweep_logs sweeps entries swept
      obtain ⟨later, concludes, laterEvents, laterSweeps, laterUpdates⟩ := ih ended
      simp only [tally, sweep] at laterSweeps laterUpdates
      refine ⟨{ changes, changed := true } :: later, .moving (flag.mp changed) concludes, ?_, ?_,
        ?_⟩
      · rw [laterEvents, events, sweepEvents, changed, List.append_assoc]
      · rw [laterSweeps, List.length_cons]
        omega
      · rw [laterUpdates, sweepEvents, List.countP_append, SweepReport.countP_events]
        dsimp only
        omega
  | case3 done onEntry log sweep started progress swept tally finished unchanged =>
      cases ended
      obtain ⟨changes, counted, flag, events⟩ := sweep_logs sweeps entries swept
      obtain rfl : changes = [] := Decidable.not_not.mp fun some => unchanged (flag.mpr some)
      refine ⟨[{ changes := [], changed := false }], .quiet, ?_, rfl, ?_⟩
      · simpa [finished, sweep, unchanged, sweepEvents] using events
      · simp [sweepEvents, SweepReport.countP_events, tally, counted]

end Loop

/-- Solving logs the start of the run, the events of its sweeps and the end of the run. -/
theorem solve_logs {analysis : Analysis E} (positive : 0 < analysis.bits) {mask : Mask}
    (selected : ∀ eventClass, eventClass ≠ .flowExit → mask.selects eventClass = true)
    {solved : Analysis E} {tally : Tally} {log : EventLog}
    (ran : analysis.solve mask (EventLog.empty mask) = .ok (solved, tally, log))
    : ∃ reports, Concludes reports
      ∧ log.events.toList
        = .solveStart analysis.direction analysis.graph.nodeCount analysis.bits
          :: sweepEvents 1 reports ++ [.solveEnd tally]
      ∧ tally.sweeps = reports.length
      ∧ tally.updates
        = (sweepEvents 1 reports).countP (fun event => event.eventClass = .entry) := by
  rw [solve, if_neg (Nat.ne_of_gt positive)] at ran
  obtain ⟨stops, _, afterRoute⟩ := bind_eq_ok.mp ran
  obtain ⟨outcome, ended, last⟩ := bind_eq_ok.mp afterRoute
  cases last
  obtain ⟨reports, concludes, events, sweeps, updates⟩ :=
    sweepAll_logs (selected .sweep EventClass.noConfusion) (selected .entry EventClass.noConfusion)
      ended
  refine ⟨reports, concludes, ?_, sweeps.trans (Nat.zero_add _), updates.trans (Nat.zero_add _)⟩
  rw [EventLog.toList_emit (selected .solve EventClass.noConfusion), events,
    EventLog.toList_emit (selected .solve EventClass.noConfusion)]
  rfl

/-- The events of a run that any sink receives under the mask of runs, sweeps and entries. They are
the start of the run, for each sweep in turn its start, the changes it makes and its end, and the
end of the run with the tally that the run returns. The tally counts the sweeps and the changes; the
end of a sweep says whether the sweep has made a change, and the last sweep alone has made none.
-/
theorem solve_events {analysis : Analysis E} (full : analysis.Sized)
    (inRange : analysis.graph.InRange) (positive : 0 < analysis.bits)
    : ∃ final tally events reports,
        (∀ (σ : Type) [Sink σ] (sink : σ),
          analysis.solve (.ofClasses [.solve, .sweep, .entry]) sink
            = .ok
              ({ analysis with onEntry := final }, tally,
                events.foldl (fun heard event => Sink.receive event heard) sink))
        ∧ events
          = .solveStart analysis.direction analysis.graph.nodeCount analysis.bits
            :: sweepEvents 1 reports ++ [.solveEnd tally]
        ∧ 0 < tally.sweeps
        ∧ reports.length = tally.sweeps
        ∧ tally.updates = events.countP (fun event => event.eventClass = .entry)
        ∧ ∀ index report, reports[index]? = some report
          → (report.changed = true ↔ report.changes ≠ [])
            ∧ (report.changed = false ↔ index + 1 = tally.sweeps) := by
  have selected : ∀ eventClass, eventClass ≠ .flowExit
      → (Mask.ofClasses [.solve, .sweep, .entry]).selects eventClass = true := by
    intro eventClass other
    cases eventClass with
    | solve => rfl
    | sweep => rfl
    | entry => rfl
    | flowExit => exact absurd rfl other
  obtain ⟨final, tally, log, _, ran, _⟩ := solve_reaches full inRange positive
    (.ofClasses [.solve, .sweep, .entry]) (EventLog.empty (.ofClasses [.solve, .sweep, .entry]))
  obtain ⟨reports, concludes, events, sweeps, updates⟩ := solve_logs positive selected ran
  refine ⟨final, tally, log.events.toList, reports, ?_, events, ?_, sweeps.symm, ?_, ?_⟩
  · intro σ _ sink
    have heard : ∀ event ∈ log.events.toList,
        (Mask.ofClasses [.solve, .sweep, .entry]).selects event.eventClass = true := by
      intro event member
      rw [events] at member
      simp only [List.cons_append, List.mem_cons, List.mem_append, List.not_mem_nil, or_false]
        at member
      rcases member with rfl | inSweep | rfl
      · exact selected .solve EventClass.noConfusion
      · exact selected _ (eventClass_of_mem_sweepEvents inSweep)
      · exact selected .solve EventClass.noConfusion
    have logged : (Mask.ofClasses [.solve, .sweep, .entry]).contains
        (.ofClasses [.solve, .sweep, .entry]) = true := rfl
    rw [solve_heard logged analysis sink, ran, ← hear_of_selects heard]
    rfl
  · rw [sweeps]
    exact concludes.length_pos
  · rw [updates, events]
    simp [Event.eventClass]
  · intro index report found
    rw [sweeps]
    exact concludes.changed_iff found

theorem solve_events_selfFeeding
    : ∃ final tally log reports,
        (selfFeeding .union).solve (.ofClasses [.solve, .sweep, .entry]) (EventLog.empty .none)
          = .ok ({ selfFeeding .union with onEntry := final }, tally, log)
        ∧ log.events.toList
          = .solveStart .forward 3 40 :: sweepEvents 1 reports ++ [.solveEnd tally]
        ∧ reports.length = tally.sweeps
        ∧ tally.updates
          = log.events.toList.countP (fun event => event.eventClass = .entry) := by
  obtain ⟨final, tally, events, reports, solves, grammar, _, sweeps, updates, _⟩ :=
    solve_events (selfFeeding_sized .union) (selfFeeding_inRange .union) (by decide)
  have kept := EventLog.toList_foldl_receive events (EventLog.empty .none)
  refine ⟨final, tally, _, reports, solves EventLog (EventLog.empty .none), ?_, sweeps, ?_⟩
  · exact kept.trans grammar
  · rw [kept]
    exact updates

end Dataflow.Analysis
