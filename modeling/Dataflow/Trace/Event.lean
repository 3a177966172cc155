import Dataflow.Bits.Row
import Dataflow.Graph.Basic
import Dataflow.Trace.Mask

/-! The events of a run: its start and end, the start and end of each sweep, and every change to
the facts on entry to a node or to the scope-end kills of a node.
-/

namespace Dataflow

/-- How much work a run took: its sweeps, and its changes to facts on entry to a node. -/
structure Tally where
  sweeps : Nat
  updates : Nat
deriving DecidableEq, Repr

instance : Inhabited Tally :=
  ⟨{ sweeps := 0, updates := 0 }⟩

/-- Something a run reports. -/
inductive Event where
  | solveStart (direction : Direction) (nodeCount bits : Nat)
  | sweepStart (sweep : Nat)
  /-- Facts from `source` changed those on entry to `target`, which are now `row`. -/
  | entryChanged (sweep : Nat) (source target : Node) (row : Row)
  | sweepEnd (sweep : Nat) (changed : Bool)
  | solveEnd (tally : Tally)
  /-- The scope-end kills at `node` grew to `row`. -/
  | flowExitWidened (node : Node) (row : Row)
deriving DecidableEq, Repr

/-- The class that a mask selects an event by. -/
def Event.eventClass : Event → EventClass
  | solveStart .. => .solve
  | sweepStart _ => .sweep
  | entryChanged .. => .entry
  | sweepEnd .. => .sweep
  | solveEnd _ => .solve
  | flowExitWidened .. => .flowExit

end Dataflow
