import Dataflow.Proofs.Analysis.Run

/-! A run uses its sink for nothing but sending events. A view of sinks that takes events in as the
sinks themselves do can therefore be applied before a run or after it. In particular every sink ends
up as if it had been sent the events that a log of the same run holds.
-/

namespace Dataflow

variable {σ τ : Type} [Sink σ] [Sink τ]

/-- Sending an event to a sink under one mask shows in the view as sending it there under the other.
-/
def Mirrors (mask again : Mask) (view : σ → τ) : Prop :=
  ∀ event sink, emit again event (view sink) = view (emit mask event sink)

/-- A sink after it has received those of the events that a mask selects, in order. -/
def hear (mask : Mask) (events : List Event) (sink : σ) : σ :=
  (events.filter fun event => mask.selects event.eventClass).foldl
    (fun heard event => Sink.receive event heard) sink

/-- An event that the mask does not select makes no difference. -/
theorem emit_of_missed {mask : Mask} {event : Event}
    (missed : ¬mask.selects event.eventClass = true) (sink : σ)
    : emit mask event sink = sink :=
  if_neg missed

theorem hear_append (mask : Mask) (first second : List Event) (sink : σ)
    : hear mask (first ++ second) sink = hear mask second (hear mask first sink) := by
  simp [hear]

theorem hear_singleton (mask : Mask) (event : Event) (sink : σ)
    : hear mask [event] sink = emit mask event sink := by
  by_cases selected : mask.selects event.eventClass = true
  · simp [hear, emit, selected]
  · simp [hear, emit, selected]

theorem hear_concat (mask : Mask) (events : List Event) (event : Event) (sink : σ)
    : hear mask (events ++ [event]) sink = emit mask event (hear mask events sink) := by
  rw [hear_append, hear_singleton]

theorem hear_cons (mask : Mask) (event : Event) (events : List Event) (sink : σ)
    : hear mask (event :: events) sink = hear mask events (emit mask event sink) := by
  rw [← hear_singleton, ← hear_append, List.singleton_append]

theorem hear_of_selects {mask : Mask} {events : List Event}
    (selected : ∀ event ∈ events, mask.selects event.eventClass = true) (sink : σ)
    : hear mask events sink = events.foldl (fun heard event => Sink.receive event heard) sink := by
  rw [hear, List.filter_eq_self.mpr selected]

/-- A log keeps an event that it is sent after those that it has. -/
theorem EventLog.toList_emit {mask : Mask} {event : Event}
    (selected : mask.selects event.eventClass = true) (log : EventLog)
    : (emit mask event log).events.toList = log.events.toList ++ [event] := by
  rw [emit_of_selects selected]
  exact Array.toList_push

theorem EventLog.toList_foldl_receive (events : List Event) (log : EventLog)
    : (events.foldl (fun heard event => Sink.receive event heard) log).events.toList
      = log.events.toList ++ events := by
  induction events generalizing log with
  | nil => simp
  | cons event rest ih =>
      rw [List.foldl_cons, ih]
      simp [Sink.receive]

/-- Hearing what a log holds follows the log, if the log is sent all that can be heard. -/
theorem mirrors_hear {wide mask : Mask} (contains : wide.contains mask = true) (sink : σ)
    : Mirrors wide mask fun log : EventLog => hear mask log.events.toList sink := by
  intro event log
  by_cases sent : wide.selects event.eventClass = true
  · simp only [EventLog.toList_emit sent, hear_concat]
  · have missed : ¬mask.selects event.eventClass = true :=
      fun selected => sent ((Mask.contains_iff wide mask).mp contains _ selected)
    simp only [emit_of_missed sent, emit_of_missed missed]

end Dataflow

namespace Dataflow.Analysis

variable {E σ τ : Type} [Ord E] [Sink σ] [Sink τ]

/-- The progress of a sweep with a view of its sink. -/
def Progress.see (view : σ → τ) (progress : Progress σ) : Progress τ :=
  { progress with sink := view progress.sink }

/-- The outcome of a run with a view of its sink. -/
def Outcome.see (view : σ → τ) (outcome : Outcome σ) : Outcome τ :=
  { onEntry := outcome.onEntry, tally := outcome.tally, sink := view outcome.sink }

section Views

variable {mask again : Mask} {view : σ → τ} (mirrors : Mirrors mask again view)
  (analysis : Analysis E) (sweep : Nat) (stops : List Stop)

include mirrors

theorem deliver_see (source : Node) (leaving : Row) (progress : Progress σ) (target : Node)
    : deliver analysis again sweep source leaving (progress.see view) target
      = (deliver analysis mask sweep source leaving progress target).map (Progress.see view) := by
  simp only [deliver, Progress.see]
  cases progress.onEntry.row target with
  | error fault => rfl
  | ok held =>
      simp only [ok_bind]
      cases analysis.merge.join.update held leaving with
      | error fault => rfl
      | ok merged =>
          simp only [ok_bind, mirrors _ _]
          split
          case isTrue => rfl
          case isFalse => rfl

theorem visit_see (progress : Progress σ) (stop : Stop)
    : visit analysis again sweep (progress.see view) stop
      = (visit analysis mask sweep progress stop).map (Progress.see view) := by
  unfold visit
  rw [show (progress.see view).onEntry = progress.onEntry from rfl]
  cases progress.onEntry.row stop.node with
  | error fault => rfl
  | ok held =>
      simp only [ok_bind]
      cases analysis.transfer stop.node held with
      | error fault => rfl
      | ok leaving =>
          exact foldlM_view (Progress.see view)
            (deliver_see mirrors analysis sweep stop.node leaving) stop.targets progress

theorem sweepOnce_see (onEntry : Table) (sink : σ)
    : sweepOnce analysis again sweep stops onEntry (view sink)
      = (sweepOnce analysis mask sweep stops onEntry sink).map (Progress.see view) :=
  foldlM_view (Progress.see view) (visit_see mirrors analysis sweep) stops
    (.start onEntry sink)

/-- The loop follows a view, by induction on its turns. -/
theorem sweepAll_see (done : Tally) (onEntry : Table) (sink : σ)
    : sweepAll analysis again stops done onEntry (view sink)
      = (sweepAll analysis mask stops done onEntry sink).map (Outcome.see view) := by
  fun_induction sweepAll analysis mask stops done onEntry sink with
  | case1 done onEntry sink sweep started fault failed =>
      rw [sweepAll_eq, mirrors, sweepOnce_see mirrors, failed]
      rfl
  | case2 done onEntry sink sweep started progress swept tally ended changed ih =>
      rw [sweepAll_eq, mirrors, sweepOnce_see mirrors, swept]
      simp only [Except.map, ok_bind, Progress.see, if_pos changed, mirrors _ _]
      exact ih
  | case3 done onEntry sink sweep started progress swept tally ended unchanged =>
      rw [sweepAll_eq, mirrors, sweepOnce_see mirrors, swept]
      simp only [Except.map, ok_bind, Progress.see, if_neg unchanged, mirrors _ _]
      rfl

/-- Solving follows a view of its sink. -/
theorem solve_see (sink : σ)
    : analysis.solve again (view sink)
      = (analysis.solve mask sink).map fun (solved, tally, heard) =>
          (solved, tally, view heard) := by
  unfold solve
  split
  case isTrue => rfl
  case isFalse =>
    simp only [mirrors _ _]
    cases route analysis.graph analysis.direction with
    | error fault => rfl
    | ok stops =>
        simp only [ok_bind, sweepAll_see mirrors]
        generalize sweepAll analysis mask stops _ _ (emit mask _ sink) = run
        cases run with
        | error fault => rfl
        | ok outcome =>
            simp only [Except.map, ok_bind, Outcome.see, mirrors _ _]
            rfl

end Views

/-- Every sink hears of a run what the mask lets through of the events in a log of the run. -/
theorem solve_heard {wide mask : Mask} (contains : wide.contains mask = true)
    (analysis : Analysis E) (sink : σ)
    : analysis.solve mask sink
      = (analysis.solve wide (EventLog.empty wide)).map fun (solved, tally, log) =>
          (solved, tally, hear mask log.events.toList sink) :=
  solve_see (mirrors_hear contains sink) analysis (EventLog.empty wide)

end Dataflow.Analysis
