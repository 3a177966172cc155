import Dataflow.Demo.Liveness
import Dataflow.Demo.Scopes

/-! The demonstrations by name. -/

namespace Dataflow.Demo

/-- Run the demonstration of a name with its arguments, if there is one of that name. -/
def run? (name : String) (arguments : List String) : Option Report :=
  match name with
  | "liveness" => some (.ofRun (Liveness.run (arguments.contains "--trace")))
  | "scopes" => some (.ofRun Scopes.run)
  | _ => none

end Dataflow.Demo
