/-! A profiling backend, known by the calls made to it. A zone is begun and ended; a message is
logged at once. While the backend is stopped it takes no new zones and no messages, but a zone
that was begun before can still be ended.
-/

namespace Dataflow.Profile

/-- A call to the backend. -/
inductive Call where
  | zoneBegin (label function file : String) (line depth : Nat)
  | zoneEnd (label : String)
  | message (text : String) (depth : Nat)
deriving DecidableEq, Repr

/-- The backend: whether it is running, and the calls made so far. -/
structure Backend where
  running : Bool
  calls : Array Call
deriving DecidableEq, Repr

namespace Backend

/-- A backend without calls. -/
def fresh (running : Bool) : Backend :=
  { running, calls := #[] }

/-- Log a call, whatever the state of the backend. -/
def log (backend : Backend) (call : Call) : Backend :=
  { backend with calls := backend.calls.push call }

/-- Begin a zone if the backend is running, and tell whether it was begun. -/
def beginZone (backend : Backend) (label function : String) (line : Nat) : Bool × Backend :=
  if backend.running then
    (true, backend.log (.zoneBegin label function "gen_kill" line 0))
  else
    (false, backend)

/-- Log a message if the backend is running. -/
def message (backend : Backend) (text : String) : Backend :=
  if backend.running then backend.log (.message text 0) else backend

end Backend

end Dataflow.Profile
