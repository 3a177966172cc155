import Dataflow.Profile.Backend
import Dataflow.Text.Quoted
import Dataflow.Text.Record
import Dataflow.Trace.Sink

/-! A sink that shows a run as nested zones of a profiling backend: one zone for the run and one
for each sweep inside it. Open zones stand on a stack. An end that does not match the innermost
open zone shows that the two are out of step, and then every open zone is ended, the innermost
first.
-/

namespace Dataflow.Profile

open Dataflow.Text

/-- What a zone spans. -/
inductive Activity where
  | solve
  | sweep (number : Nat)
deriving DecidableEq, Repr

/-- The name of the activity that a zone spans. -/
def Activity.function : Activity → String
  | solve => "gen_kill.solve"
  | sweep _ => "gen_kill.sweep"

/-- The line a zone is shown at: zero for a run and the number of a sweep, as far as a 32-bit
word can tell it.
-/
def Activity.line : Activity → Nat
  | solve => 0
  | sweep number => min number 0xffffffff

/-- The label of a zone within an analysis. -/
def Activity.label (analysis : String) : Activity → String
  | solve => s!"{analysis}: solve"
  | sweep number => s!"{analysis}: sweep {number}"

/-- An open zone. It is begun unless the backend was stopped when it was opened. -/
structure Zone where
  activity : Activity
  label : String
  begun : Bool
deriving DecidableEq, Repr

/-- The sink: the name of the analysis, its open zones with the innermost first, and the backend.
-/
structure Profiler where
  analysis : String
  zones : List Zone
  backend : Backend
deriving DecidableEq, Repr

/-- The call that ends a zone, if the zone was begun. -/
def Zone.finish (zone : Zone) (backend : Backend) : Backend :=
  if zone.begun then backend.log (.zoneEnd zone.label) else backend

namespace Profiler

/-- A profiler without open zones. -/
def start (analysis : String) (backend : Backend) : Profiler :=
  { analysis, zones := [], backend }

/-- The number of open zones. -/
def zoneCount (profiler : Profiler) : Nat :=
  profiler.zones.length

/-- Open a zone inside those that are open. -/
def openZone (activity : Activity) (profiler : Profiler) : Profiler :=
  let label := activity.label profiler.analysis
  let (begun, backend) := profiler.backend.beginZone label activity.function activity.line
  { profiler with zones := { activity, label, begun } :: profiler.zones, backend }

/-- End every open zone, the innermost first. -/
def closeAll (profiler : Profiler) : Profiler :=
  {
    profiler with
    zones := [],
    backend := profiler.zones.foldl (fun backend zone => zone.finish backend) profiler.backend
  }

/-- End the innermost zone if it spans the given activity, and every open zone otherwise. -/
def closeZone (activity : Activity) (profiler : Profiler) : Profiler :=
  match profiler.zones with
  | zone :: outer =>
      if zone.activity = activity then
        { profiler with zones := outer, backend := zone.finish profiler.backend }
      else
        profiler.closeAll
  | [] => profiler.closeAll

/-- Report the work of a run. -/
def announce (tally : Tally) (profiler : Profiler) : Profiler :=
  let text := s!"{profiler.analysis}: converged after {tally.sweeps} sweeps, "
    ++ s!"{tally.updates} entry updates"
  { profiler with backend := profiler.backend.message text }

instance : Sink Profiler where
  mask _ := .ofClasses [.solve, .sweep]
  receive event profiler :=
    match event with
    | .solveStart .. => profiler.openZone .solve
    | .sweepStart sweep => profiler.openZone (.sweep sweep)
    | .sweepEnd sweep _ => profiler.closeZone (.sweep sweep)
    | .solveEnd tally => (profiler.announce tally).closeZone .solve
    | .entryChanged .. => profiler
    | .flowExitWidened .. => profiler

/-- Start or stop the backend. -/
def setRunning (running : Bool) (profiler : Profiler) : Profiler :=
  { profiler with backend := { profiler.backend with running } }

/-- The calls made since they were last taken, and the profiler without them. -/
def takeCalls (profiler : Profiler) : List Call × Profiler :=
  (
    profiler.backend.calls.toList,
    { profiler with backend := { profiler.backend with calls := #[] } }
  )

/-- The description of a profiler; its zones are left out. -/
def shown (profiler : Profiler) : Shown :=
  .record "ProfilingSolveSink"
    [
      ("analysis", .atom (quote profiler.analysis)),
      ("stack_depth", .atom (toString profiler.zoneCount))
    ]
    true

end Profiler

end Dataflow.Profile
