import Dataflow.Profile.Profiler
import Mathlib.Data.List.Basic

/-! The zones of a profiler are nested, whatever it is told. Its log is read with a stack of the zones
that have begun and not ended, and that stack is always the begun part of the profiler's own. A zone
that was opened while the backend was stopped stands on the profiler's stack alone, and an end that
matches nothing ends all that is open, so neither brings the two out of step.
-/

namespace Dataflow.Profile

-----------------------------------------------------------------------------------------
-- Logs in which zones are nested
-----------------------------------------------------------------------------------------

/-- Calls in which every zone that is begun is ended, and the zones inside it before it. -/
inductive Balanced : List Call → Prop
  | nil : Balanced []
  | message {text : String} {depth : Nat} {rest : List Call} (after : Balanced rest)
    : Balanced (.message text depth :: rest)
  | zone {label function file : String} {line depth : Nat} {inside rest : List Call}
    (within : Balanced inside) (after : Balanced rest)
    : Balanced (.zoneBegin label function file line depth :: (inside ++ .zoneEnd label :: rest))

/-- The labels of the zones that are begun and not ended after a call, the innermost first. A call
that ends any zone but the innermost has no reading.
-/
def Call.nest (pending : List String) : Call → Option (List String)
  | zoneBegin label .. => some (label :: pending)
  | zoneEnd label => if pending.head? = some label then some pending.tail else none
  | message .. => some pending

/-- The labels of the zones that are begun and not ended after several calls. -/
def unended (pending : List String) (calls : List Call) : Option (List String) :=
  calls.foldlM Call.nest pending

/-- Whether a call begins a zone. -/
def Call.isBegin : Call → Bool
  | zoneBegin .. => true
  | _ => false

theorem unended_append (pending : List String) (first second : List Call)
    : unended pending (first ++ second)
      = (unended pending first).bind fun between => unended between second :=
  List.foldlM_append

theorem Balanced.append {first second : List Call} (before : Balanced first)
    (after : Balanced second)
    : Balanced (first ++ second) := by
  induction before with
  | nil => exact after
  | message _ ih => exact .message ih
  | zone within _ _ ih =>
      rw [List.cons_append, List.append_assoc]
      exact .zone within ih

/-- The calls end the pending zones, each after whatever it has begun itself. -/
inductive Ends : List String → List Call → Prop
  | none {calls : List Call} (balanced : Balanced calls) : Ends [] calls
  | innermost {label : String} {outer : List String} {inside rest : List Call}
    (within : Balanced inside) (after : Ends outer rest)
    : Ends (label :: outer) (inside ++ .zoneEnd label :: rest)

theorem Ends.prepend {pending : List String} {before calls : List Call} (balanced : Balanced before)
    (ends : Ends pending calls)
    : Ends pending (before ++ calls) := by
  cases ends with
  | none after => exact .none (balanced.append after)
  | innermost within after =>
      rw [← List.append_assoc]
      exact .innermost (balanced.append within) after

/-- Calls that leave nothing begun have ended what was pending, by induction on the calls. -/
theorem ends_of_unended {pending : List String} {calls : List Call}
    (nothing : unended pending calls = some [])
    : Ends pending calls := by
  induction calls generalizing pending with
  | nil =>
      cases nothing
      exact .none .nil
  | cons call rest ih =>
      rw [unended, List.foldlM_cons] at nothing
      obtain ⟨between, nested, remaining⟩ := Option.bind_eq_some_iff.mp nothing
      have later := ih remaining
      cases call with
      | message text depth =>
          cases nested
          have single : Balanced [.message text depth] := .message .nil
          exact later.prepend single
      | zoneBegin label function file line depth =>
          cases nested
          -- The zone begun here is what the rest ends first, and the two enclose a balanced part.
          cases later with
          | @innermost _ _ inside rest within after =>
              have whole : Balanced
                  (.zoneBegin label function file line depth :: (inside ++ [.zoneEnd label])) :=
                .zone within .nil
              simpa using after.prepend whole
      | zoneEnd label =>
          rw [Call.nest] at nested
          split at nested
          case isTrue top =>
            cases nested
            rw [← List.cons_head?_tail (Option.mem_def.mpr top)]
            exact .innermost .nil later
          case isFalse => cases nested

theorem balanced_of_unended {calls : List Call} (nothing : unended [] calls = some [])
    : Balanced calls := by
  cases ends_of_unended nothing with
  | none balanced => exact balanced

/-- Each call that ends a zone ends the innermost of those begun before it. -/
theorem innermost_of_unended {before after : List Call} {label : String} {pending left : List String}
    (read : unended pending (before ++ .zoneEnd label :: after) = some left)
    : ∃ outer, unended pending before = some (label :: outer) := by
  rw [unended_append] at read
  obtain ⟨between, found, rest⟩ := Option.bind_eq_some_iff.mp read
  rw [unended, List.foldlM_cons] at rest
  obtain ⟨next, nested, _⟩ := Option.bind_eq_some_iff.mp rest
  rw [Call.nest] at nested
  split at nested
  case isTrue top => exact ⟨between.tail, found.trans (by rw [List.cons_head?_tail top])⟩
  case isFalse => cases nested

-----------------------------------------------------------------------------------------
-- What each operation of a profiler logs
-----------------------------------------------------------------------------------------

/-- The call that begins the zone of an activity. -/
def Activity.beginCall (analysis : String) (activity : Activity) : Call :=
  .zoneBegin (activity.label analysis) activity.function "gen_kill" activity.line 0

/-- The call that ends the zone of an activity. -/
def Activity.endCall (analysis : String) (activity : Activity) : Call :=
  .zoneEnd (activity.label analysis)

/-- The message about the work of a run. -/
def convergedCall (analysis : String) (tally : Tally) : Call :=
  .message
    (s!"{analysis}: converged after {tally.sweeps} sweeps, "
      ++ s!"{tally.updates} entry updates")
    0

/-- Of some calls those that a backend takes: all while it is running, and none while it is stopped.
-/
def Backend.taken (backend : Backend) (calls : List Call) : List Call :=
  if backend.running then calls else []

/-- The labels of the zones that have begun, the innermost first. -/
def begunLabels (zones : List Zone) : List String :=
  (zones.filter Zone.begun).map Zone.label

namespace Profiler

/-- A profiler after further calls to its backend. -/
def logged (profiler : Profiler) (calls : List Call) : Profiler :=
  {
    profiler with
    backend := { profiler.backend with calls := profiler.backend.calls ++ calls.toArray }
  }

/-- A profiler after those of some calls that its backend takes. -/
def told (profiler : Profiler) (calls : List Call) : Profiler :=
  profiler.logged (profiler.backend.taken calls)

theorem toList_logged (profiler : Profiler) (calls : List Call)
    : (profiler.logged calls).backend.calls.toList = profiler.backend.calls.toList ++ calls := by
  simp [logged]

theorem openZone_eq (profiler : Profiler) (activity : Activity)
    : profiler.openZone activity
      = ({
          profiler with
          zones :=
            {
              activity,
              label := activity.label profiler.analysis,
              begun := profiler.backend.running
            } :: profiler.zones
        } : Profiler).told [activity.beginCall profiler.analysis] := by
  obtain ⟨analysis, zones, running, calls⟩ := profiler
  cases running with
  | true =>
      simp [openZone, Backend.beginZone, Backend.log, told, Backend.taken, logged,
        Activity.beginCall]
  | false => simp [openZone, Backend.beginZone, told, Backend.taken, logged]

theorem announce_eq (profiler : Profiler) (tally : Tally)
    : profiler.announce tally = profiler.told [convergedCall profiler.analysis tally] := by
  obtain ⟨analysis, zones, running, calls⟩ := profiler
  cases running with
  | true => simp [announce, Backend.message, Backend.log, told, Backend.taken, logged, convergedCall]
  | false => simp [announce, Backend.message, told, Backend.taken, logged]

/-- Ending zones logs the ends of those among them that have begun, by induction on the zones. -/
theorem foldl_finish (zones : List Zone) (backend : Backend)
    : zones.foldl (fun backend zone => zone.finish backend) backend
      = {
          backend with
          calls := backend.calls ++ ((begunLabels zones).map Call.zoneEnd).toArray
        } := by
  induction zones generalizing backend with
  | nil => simp [begunLabels]
  | cons zone outer ih =>
      rw [List.foldl_cons, ih]
      cases begun : zone.begun with
      | true => simp [Zone.finish, Backend.log, begunLabels, begun]
      | false => simp [Zone.finish, begunLabels, begun]

/-- Closing all zones ends those that have begun. -/
theorem closeAll_eq (profiler : Profiler)
    : profiler.closeAll
      = ({ profiler with zones := [] } : Profiler).logged
          ((begunLabels profiler.zones).map Call.zoneEnd) := by
  rw [closeAll, foldl_finish]
  rfl

/-- Closing the zone that is innermost ends it alone. -/
theorem closeZone_top {profiler : Profiler} {zone : Zone} {outer : List Zone}
    (top : profiler.zones = zone :: outer)
    : profiler.closeZone zone.activity
      = ({ profiler with zones := outer } : Profiler).logged
          ((begunLabels [zone]).map Call.zoneEnd) := by
  have ended := foldl_finish [zone] profiler.backend
  rw [List.foldl_cons, List.foldl_nil] at ended
  simp only [closeZone, top, if_true, ended]
  rfl

/-- Closing a zone closes the innermost if it spans the activity, and otherwise all. -/
theorem closeZone_cases (profiler : Profiler) (activity : Activity)
    : (∃ zone outer, profiler.zones = zone :: outer ∧ zone.activity = activity)
      ∨ profiler.closeZone activity = profiler.closeAll := by
  unfold closeZone
  split
  case h_1 zone outer top =>
    split
    case isTrue same => exact Or.inl ⟨zone, outer, top, same⟩
    case isFalse => exact Or.inr rfl
  case h_2 => exact Or.inr rfl

-----------------------------------------------------------------------------------------
-- The log keeps up with the stack
-----------------------------------------------------------------------------------------

/-- From one profiler to the other the calls have been logged, `started` are those among them that
begin a zone, and reading them leads from the begun zones of the one to those of the other.
-/
structure Tracks (before : Profiler) (calls started : List Call) (after : Profiler) : Prop where
  analysis : after.analysis = before.analysis
  running : after.backend.running = before.backend.running
  log : after.backend.calls.toList = before.backend.calls.toList ++ calls
  started : calls.filter Call.isBegin = started
  zones : unended (begunLabels before.zones) calls = some (begunLabels after.zones)

theorem Tracks.refl (profiler : Profiler) : Tracks profiler [] [] profiler :=
  ⟨rfl, rfl, (List.append_nil _).symm, rfl, rfl⟩

theorem Tracks.trans {first middle last : Profiler} {early late begun begunLater : List Call}
    (before : Tracks first early begun middle) (after : Tracks middle late begunLater last)
    : Tracks first (early ++ late) (begun ++ begunLater) last := by
  constructor
  · exact after.analysis.trans before.analysis
  · exact after.running.trans before.running
  · rw [after.log, before.log, List.append_assoc]
  · rw [List.filter_append, before.started, after.started]
  · rw [unended_append, before.zones]
    exact after.zones

theorem openZone_tracks (profiler : Profiler) (activity : Activity)
    : Tracks profiler (profiler.backend.taken [activity.beginCall profiler.analysis])
        (profiler.backend.taken [activity.beginCall profiler.analysis])
        (profiler.openZone activity) := by
  rw [openZone_eq]
  refine ⟨rfl, rfl, toList_logged _ _, ?_, ?_⟩
  · unfold Backend.taken
    split <;> rfl
  · -- While the backend is stopped the zone goes on the stack, but not among those that have begun.
    cases running : profiler.backend.running with
    | true =>
        simp [Backend.taken, running, unended, Call.nest, Activity.beginCall, begunLabels, told,
          logged]
    | false => simp [Backend.taken, running, unended, begunLabels, told, logged]

theorem announce_tracks (profiler : Profiler) (tally : Tally)
    : Tracks profiler (profiler.backend.taken [convergedCall profiler.analysis tally]) []
        (profiler.announce tally) := by
  rw [announce_eq]
  refine ⟨rfl, rfl, toList_logged _ _, ?_, ?_⟩
  · unfold Backend.taken
    split <;> rfl
  · unfold Backend.taken
    split <;> rfl

/-- Ending zones, the innermost first, is read as taking them off what is pending. By induction on
their labels.
-/
theorem unended_map_zoneEnd (labels pending : List String)
    : unended (labels ++ pending) (labels.map Call.zoneEnd) = some pending := by
  induction labels with
  | nil => rfl
  | cons label rest ih =>
      rw [unended, List.map_cons, List.foldlM_cons, List.cons_append, Call.nest, List.head?_cons,
        if_pos rfl]
      exact ih

/-- Ending some of the zones from the innermost on is read as leaving the others. -/
theorem tracks_ended {profiler : Profiler} {closed outer : List Zone}
    (zones : profiler.zones = closed ++ outer)
    : Tracks profiler ((begunLabels closed).map Call.zoneEnd) []
        (({ profiler with zones := outer } : Profiler).logged
          ((begunLabels closed).map Call.zoneEnd)) := by
  refine ⟨rfl, rfl, toList_logged _ _, ?_, ?_⟩
  · apply List.filter_eq_nil_iff.mpr
    intro call listed
    obtain ⟨label, _, rfl⟩ := List.mem_map.mp listed
    exact Bool.false_ne_true
  · have split : begunLabels profiler.zones = begunLabels closed ++ begunLabels outer := by
      simp [zones, begunLabels]
    rw [split]
    exact unended_map_zoneEnd _ _

theorem closeAll_tracks (profiler : Profiler)
    : Tracks profiler ((begunLabels profiler.zones).map Call.zoneEnd) [] profiler.closeAll := by
  rw [closeAll_eq]
  exact tracks_ended (List.append_nil _).symm

/-- Closing a zone ends one zone or all, in either case from the innermost on. -/
theorem closeZone_tracks (profiler : Profiler) (activity : Activity)
    : ∃ calls, Tracks profiler calls [] (profiler.closeZone activity) := by
  rcases profiler.closeZone_cases activity with ⟨zone, outer, top, rfl⟩ | all
  · have split : profiler.zones = [zone] ++ outer := top
    rw [closeZone_top top]
    exact ⟨_, tracks_ended split⟩
  · rw [all]
    exact ⟨_, profiler.closeAll_tracks⟩

-----------------------------------------------------------------------------------------
-- Whole runs of a profiler
-----------------------------------------------------------------------------------------

/-- Something that happens to a profiler: it receives an event, or its backend starts or stops. -/
inductive Step where
  | receive (event : Event)
  | setRunning (running : Bool)
deriving DecidableEq, Repr

/-- The profiler after a step. -/
def after (profiler : Profiler) : Step → Profiler
  | .receive event => Sink.receive event profiler
  | .setRunning running => profiler.setRunning running

/-- The profiler after several steps in order. -/
def run (profiler : Profiler) (steps : List Step) : Profiler :=
  steps.foldl after profiler

/-- The calls that begin a zone on receipt of an event. -/
def startCalls (analysis : String) : Event → List Call
  | .solveStart .. => [Activity.solve.beginCall analysis]
  | .sweepStart sweep => [(Activity.sweep sweep).beginCall analysis]
  | .sweepEnd .. | .entryChanged .. | .flowExitWidened .. | .solveEnd .. => []

/-- The calls that begin a zone in several steps: one for each start that is received while the
backend is running.
-/
def begunBy (analysis : String) : Bool → List Step → List Call
  | _, [] => []
  | running, .receive event :: rest =>
      (if running then startCalls analysis event else []) ++ begunBy analysis running rest
  | _, .setRunning running :: rest => begunBy analysis running rest

/-- On receipt of any event the log keeps up with the stack, by cases on the event. -/
theorem receive_tracks (profiler : Profiler) (event : Event)
    : ∃ calls, Tracks profiler calls
        (profiler.backend.taken (startCalls profiler.analysis event))
        (Sink.receive event profiler) := by
  have nothing : profiler.backend.taken [] = [] := ite_self _
  cases event with
  | solveStart direction nodeCount bits => exact ⟨_, profiler.openZone_tracks .solve⟩
  | sweepStart sweep => exact ⟨_, profiler.openZone_tracks (.sweep sweep)⟩
  | sweepEnd sweep changed =>
      rw [startCalls, nothing]
      exact profiler.closeZone_tracks (.sweep sweep)
  | solveEnd tally =>
      obtain ⟨calls, closed⟩ := (profiler.announce tally).closeZone_tracks .solve
      rw [startCalls, nothing]
      exact ⟨_, (profiler.announce_tracks tally).trans closed⟩
  | entryChanged sweep source target row =>
      rw [startCalls, nothing]
      exact ⟨[], .refl profiler⟩
  | flowExitWidened node row =>
      rw [startCalls, nothing]
      exact ⟨[], .refl profiler⟩

/-- In any run the log keeps up with the stack, by induction on the steps. -/
theorem run_tracks (profiler : Profiler) (steps : List Step)
    : ∃ calls,
        (profiler.run steps).backend.calls.toList = profiler.backend.calls.toList ++ calls
        ∧ calls.filter Call.isBegin = begunBy profiler.analysis profiler.backend.running steps
        ∧ unended (begunLabels profiler.zones) calls
          = some (begunLabels (profiler.run steps).zones) := by
  induction steps generalizing profiler with
  | nil => exact ⟨[], (List.append_nil _).symm, rfl, rfl⟩
  | cons step rest ih =>
      cases step with
      | setRunning running => exact ih (profiler.setRunning running)
      | receive event =>
          obtain ⟨calls, tracks⟩ := profiler.receive_tracks event
          obtain ⟨later, log, started, zones⟩ := ih (Sink.receive event profiler)
          refine ⟨calls ++ later, ?_, ?_, ?_⟩
          · rw [← List.append_assoc, ← tracks.log]
            exact log
          · rw [List.filter_append, tracks.started, started, tracks.analysis, tracks.running]
            rfl
          · rw [unended_append, tracks.zones]
            exact zones

/-- Whatever events a fresh profiler receives, with its backend started and stopped in between, its
zones are nested when it has closed what is still open. Each call that ends a zone carries the label
of the innermost zone that has begun and not ended, none is left that has begun, and the zones that
have begun are those whose start was received while the backend was running.
-/
theorem zones_nest (analysis : String) (backend : Backend) (steps : List Step)
    : ∃ calls,
        ((start analysis backend).run steps).closeAll.backend.calls.toList
          = backend.calls.toList ++ calls
        ∧ Balanced calls
        ∧ (∀ before label after, calls = before ++ .zoneEnd label :: after
          → ∃ outer, unended [] before = some (label :: outer))
        ∧ unended [] calls = some []
        ∧ calls.filter Call.isBegin = begunBy analysis backend.running steps := by
  obtain ⟨calls, log, started, zones⟩ := (start analysis backend).run_tracks steps
  have closed := ((start analysis backend).run steps).closeAll_tracks
  have nothing : unended [] (calls ++ (begunLabels ((start analysis backend).run steps).zones).map
      Call.zoneEnd) = some [] := by
    have first : unended [] calls = some _ := zones
    rw [unended_append, first]
    exact closed.zones
  refine ⟨_, ?_, balanced_of_unended nothing, ?_, nothing, ?_⟩
  · rw [closed.log, log]
    exact List.append_assoc _ _ _
  · rintro before label after parts
    exact innermost_of_unended (parts ▸ nothing)
  · rw [List.filter_append, closed.started, started, List.append_nil]
    rfl

/-- A sweep starts while the backend is stopped, the next ends under another number, and a third is
still open at the end.
-/
def tangledSteps : List Step :=
  [
    .receive (.solveStart .forward 3 40),
    .setRunning false,
    .receive (.sweepStart 1),
    .setRunning true,
    .receive (.sweepStart 2),
    .receive (.sweepEnd 7 true),
    .receive (.solveEnd ⟨2, 5⟩),
    .receive (.sweepStart 9)
  ]

theorem zones_nest_tangled
    : Balanced
        [
          Activity.solve.beginCall "live",
          (Activity.sweep 2).beginCall "live",
          (Activity.sweep 2).endCall "live",
          Activity.solve.endCall "live",
          convergedCall "live" ⟨2, 5⟩,
          (Activity.sweep 9).beginCall "live",
          (Activity.sweep 9).endCall "live"
        ] := by
  obtain ⟨calls, log, balanced, _⟩ := zones_nest "live" (.fresh true) tangledSteps
  have same : calls = _ := log.symm
  rw [same] at balanced
  exact balanced

end Profiler

end Dataflow.Profile
