import Dataflow.Proofs.Profile.Nesting
import Dataflow.Proofs.Trace.Grammar
import Dataflow.Proofs.Trace.Masking

/-! What a run shows to a profiler. The run tells of its start and end and of those of its sweeps in
pairs, so that every zone it opens is closed again as the innermost one, and the zones that were open
before are left alone.
-/

namespace Dataflow.Profile

-----------------------------------------------------------------------------------------
-- The calls of a run
-----------------------------------------------------------------------------------------

/-- The calls of a zone around others. -/
def Activity.around (analysis : String) (activity : Activity) (inside : List Call) : List Call :=
  activity.beginCall analysis :: (inside ++ [activity.endCall analysis])

/-- The calls of a sweep under a mask. -/
def sweepCalls (analysis : String) (mask : Mask) (sweep : Nat) : List Call :=
  if mask.selects .sweep then (Activity.sweep sweep).around analysis [] else []

/-- The calls of a run under a mask. -/
def runCalls (analysis : String) (mask : Mask) (tally : Tally) : List Call :=
  let sweeps := (List.range' 1 tally.sweeps).flatMap (sweepCalls analysis mask)
  if mask.selects .solve then
    Activity.solve.around analysis (sweeps ++ [convergedCall analysis tally])
  else
    sweeps

/-- If the mask selects runs and sweeps, the zone of the run stands around those of its sweeps. -/
theorem runCalls_of_selects {mask : Mask} (solves : mask.selects .solve = true)
    (sweeps : mask.selects .sweep = true) (analysis : String) (tally : Tally)
    : runCalls analysis mask tally
      = Activity.solve.beginCall analysis
        :: ((List.range' 1 tally.sweeps).flatMap fun sweep =>
            [(Activity.sweep sweep).beginCall analysis, (Activity.sweep sweep).endCall analysis])
        ++ [convergedCall analysis tally, Activity.solve.endCall analysis] := by
  have each : sweepCalls analysis mask
      = fun sweep =>
          [(Activity.sweep sweep).beginCall analysis, (Activity.sweep sweep).endCall analysis] :=
    funext fun _ => if_pos sweeps
  simp [runCalls, if_pos solves, each, Activity.around]

theorem Balanced.around {inside : List Call} (within : Balanced inside) (analysis : String)
    (activity : Activity)
    : Balanced (activity.around analysis inside) :=
  .zone within .nil

theorem balanced_sweepCalls (analysis : String) (mask : Mask) (sweep : Nat)
    : Balanced (sweepCalls analysis mask sweep) := by
  unfold sweepCalls
  split
  · exact Balanced.nil.around analysis (.sweep sweep)
  · exact .nil

/-- The zones of the sweeps are nested, by induction on their numbers. -/
theorem balanced_flatMap_sweepCalls (analysis : String) (mask : Mask) (sweeps : List Nat)
    : Balanced (sweeps.flatMap (sweepCalls analysis mask)) := by
  induction sweeps with
  | nil => exact .nil
  | cons sweep later ih => exact (balanced_sweepCalls analysis mask sweep).append ih

theorem balanced_runCalls (analysis : String) (mask : Mask) (tally : Tally)
    : Balanced (runCalls analysis mask tally) := by
  have sweeps := balanced_flatMap_sweepCalls analysis mask (List.range' 1 tally.sweeps)
  unfold runCalls
  split
  · exact (sweeps.append (.message .nil)).around analysis .solve
  · exact sweeps

theorem Balanced.taken {calls : List Call} (balanced : Balanced calls) (backend : Backend)
    : Balanced (backend.taken calls) := by
  unfold Backend.taken
  split
  · exact balanced
  · exact .nil

theorem Backend.taken_append (backend : Backend) (first second : List Call)
    : backend.taken (first ++ second) = backend.taken first ++ backend.taken second := by
  unfold taken
  split <;> rfl

-----------------------------------------------------------------------------------------
-- What a profiler makes of the events of a run
-----------------------------------------------------------------------------------------

namespace Profiler

theorem told_nil (profiler : Profiler) : profiler.told [] = profiler := by
  simp [told, Backend.taken, logged]

theorem told_told (profiler : Profiler) (first second : List Call)
    : (profiler.told first).told second = profiler.told (first ++ second) := by
  have same : (profiler.told first).backend.taken second = profiler.backend.taken second := rfl
  rw [told, same, told, told, Backend.taken_append]
  simp [logged]

/-- A zone that is opened, and closed after some calls, leaves the zones as they were. -/
theorem closeZone_openZone (profiler : Profiler) (activity : Activity) (inside : List Call)
    : ((profiler.openZone activity).told inside).closeZone activity
      = profiler.told (activity.around profiler.analysis inside) := by
  have top : ((profiler.openZone activity).told inside).zones
      = {
          activity,
          label := activity.label profiler.analysis,
          begun := profiler.backend.running
        } :: profiler.zones := by
    rw [openZone_eq]
    rfl
  -- On top is the zone just opened, so that closing it does not touch what was open before.
  refine (closeZone_top top).trans ?_
  rw [openZone_eq, told_told]
  cases running : profiler.backend.running with
  | true =>
      simp [told, Backend.taken, logged, running, begunLabels, Activity.around, Activity.endCall]
  | false => simp [told, Backend.taken, logged, running, begunLabels]

/-- The changes to facts on entry are nothing to a profiler. -/
theorem hear_changes (mask : Mask) (sweep : Nat) (changes : List Change) (profiler : Profiler)
    : hear mask (changes.map (Change.event sweep)) profiler = profiler := by
  induction changes with
  | nil => rfl
  | cons change rest ih =>
      have ignored : emit mask (change.event sweep) profiler = profiler := ite_self profiler
      rw [List.map_cons, hear_cons, ignored]
      exact ih

/-- A sweep opens and closes its zone, if the mask selects sweeps. -/
theorem hear_sweep (mask : Mask) (sweep : Nat) (report : SweepReport) (profiler : Profiler)
    : hear mask (report.events sweep) profiler
      = profiler.told (sweepCalls profiler.analysis mask sweep) := by
  rw [SweepReport.events, hear_concat, hear_cons, hear_changes]
  unfold sweepCalls
  split
  case isTrue selected =>
    rw [emit_of_selects selected, emit_of_selects selected, ← closeZone_openZone, told_nil]
    rfl
  case isFalse missed =>
    rw [emit_of_missed missed, emit_of_missed missed, told_nil]

/-- The sweeps open and close their zones one after the other, by induction on the sweeps. -/
theorem hear_sweepEvents (mask : Mask) (first : Nat) (reports : List SweepReport)
    (profiler : Profiler)
    : hear mask (sweepEvents first reports) profiler
      = profiler.told
          ((List.range' first reports.length).flatMap (sweepCalls profiler.analysis mask)) := by
  induction reports generalizing first profiler with
  | nil => exact profiler.told_nil.symm
  | cons report later ih =>
      rw [sweepEvents, hear_append, hear_sweep, ih, told_told]
      rfl

/-- The events of a whole run leave the zones of a profiler as they were. -/
theorem hear_run (mask : Mask) (direction : Direction) (nodeCount bits : Nat)
    {reports : List SweepReport} {tally : Tally} (counted : tally.sweeps = reports.length)
    (profiler : Profiler)
    : hear mask
        (.solveStart direction nodeCount bits :: sweepEvents 1 reports ++ [.solveEnd tally])
        profiler
      = profiler.told (runCalls profiler.analysis mask tally) := by
  rw [hear_concat, hear_cons, hear_sweepEvents, ← counted]
  unfold runCalls
  split
  case isTrue selected =>
    have named : (profiler.openZone .solve).analysis = profiler.analysis := by
      rw [openZone_eq]
      rfl
    rw [emit_of_selects selected, emit_of_selects selected, ← closeZone_openZone, ← told_told,
      ← named]
    exact congrArg (closeZone .solve) (announce_eq _ tally)
  case isFalse missed =>
    rw [emit_of_missed missed, emit_of_missed missed]

end Profiler

end Dataflow.Profile

namespace Dataflow.Analysis

open Dataflow.Profile

variable {E : Type} [Ord E]

/-- A run with facts adds its calls to the log of a profiler and leaves its zones as they were. -/
theorem solve_told {analysis : Analysis E} (full : analysis.Sized)
    (inRange : analysis.graph.InRange) (positive : 0 < analysis.bits)
    : ∃ solved tally, ∀ (mask : Mask) (profiler : Profiler),
        analysis.solve mask profiler
          = .ok (solved, tally, profiler.told (runCalls profiler.analysis mask tally)) := by
  obtain ⟨final, tally, log, _, ran, _⟩ :=
    solve_reaches full inRange positive .full (EventLog.empty .full)
  obtain ⟨reports, _, events, sweeps, _⟩ :=
    solve_logs positive (fun eventClass _ => Mask.full_selects eventClass) ran
  refine ⟨{ analysis with onEntry := final }, tally, fun mask profiler => ?_⟩
  rw [solve_of_fullLog ran mask profiler, events, Profiler.hear_run _ _ _ _ sweeps]

/-- Whatever the mask and whatever zones are open, a run leaves the zones of a profiler as they were,
and the zones in what it adds to the log are nested in themselves, so that none that was open before
is ended. If there are facts, the backend is running and the mask is the one the profiler asks for,
then the run adds the zone of the run and in it the zone of each sweep in turn, and last the message
about the work that it returns.
-/
theorem solve_keeps_zones {analysis : Analysis E} (full : analysis.Sized)
    (inRange : analysis.graph.InRange) (profiler : Profiler)
    : (∀ mask, ∃ solved tally heard calls,
        analysis.solve mask profiler = .ok (solved, tally, heard)
        ∧ heard.zones = profiler.zones
        ∧ heard.backend.calls.toList = profiler.backend.calls.toList ++ calls
        ∧ Balanced calls)
      ∧ (0 < analysis.bits → profiler.backend.running = true
        → ∃ solved tally heard,
            analysis.solve (Sink.mask profiler) profiler = .ok (solved, tally, heard)
            ∧ heard.backend.calls.toList
              = profiler.backend.calls.toList
                ++ (Activity.solve.beginCall profiler.analysis
                  :: ((List.range' 1 tally.sweeps).flatMap fun sweep =>
                      [
                        (Activity.sweep sweep).beginCall profiler.analysis,
                        (Activity.sweep sweep).endCall profiler.analysis
                      ])
                  ++ [
                      convergedCall profiler.analysis tally,
                      Activity.solve.endCall profiler.analysis
                    ])) := by
  refine ⟨fun mask => ?_, fun positive running => ?_⟩
  · rcases Nat.eq_zero_or_pos analysis.bits with none | positive
    · exact ⟨_, _, profiler, [], solve_of_no_facts none mask profiler, rfl,
        (List.append_nil _).symm, .nil⟩
    · obtain ⟨solved, tally, solves⟩ := solve_told full inRange positive
      refine ⟨solved, tally, _, _, solves mask profiler, rfl, Profiler.toList_logged _ _, ?_⟩
      exact (balanced_runCalls _ _ _).taken _
  · obtain ⟨solved, tally, solves⟩ := solve_told full inRange positive
    refine ⟨solved, tally, _, solves (Sink.mask profiler) profiler, ?_⟩
    have taken : profiler.backend.taken (runCalls profiler.analysis (Sink.mask profiler) tally)
        = runCalls profiler.analysis (Sink.mask profiler) tally := if_pos running
    have selected := taken.trans (runCalls_of_selects rfl rfl profiler.analysis tally)
    exact (Profiler.toList_logged _ _).trans (congrArg _ selected)

/-- A profiler with a run still open, inside a sweep that was opened while the backend was stopped. -/
def leftOpen : Profiler :=
  {
    analysis := "live",
    zones :=
      [
        { activity := .solve, label := "live: solve", begun := true },
        { activity := .sweep 1, label := "live: sweep 1", begun := false }
      ],
    backend := .fresh true
  }

theorem solve_keeps_zones_selfFeeding
    : ∃ solved tally heard,
        (selfFeeding .union).solve (Sink.mask leftOpen) leftOpen = .ok (solved, tally, heard)
        ∧ heard.zones = leftOpen.zones
        ∧ heard.backend.calls.toList
          = Activity.solve.beginCall "live"
            :: ((List.range' 1 tally.sweeps).flatMap fun sweep =>
                [(Activity.sweep sweep).beginCall "live", (Activity.sweep sweep).endCall "live"])
            ++ [convergedCall "live" tally, Activity.solve.endCall "live"] := by
  obtain ⟨keeps, exactly⟩ :=
    solve_keeps_zones (selfFeeding_sized .union) (selfFeeding_inRange .union) leftOpen
  obtain ⟨_, _, _, _, ran, zones, _⟩ := keeps (Sink.mask leftOpen)
  obtain ⟨_, _, _, again, calls⟩ := exactly (by decide) rfl
  cases ran.symm.trans again
  exact ⟨_, _, _, again, zones, calls⟩

end Dataflow.Analysis
