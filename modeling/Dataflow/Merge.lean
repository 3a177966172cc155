import Dataflow.Bits.Join
import Dataflow.Text.Record

/-! A merge rule fixes how an analysis combines the facts that reach a node over several edges,
and the facts every node holds before any have arrived.
-/

namespace Dataflow

open Dataflow.Text

/-- The join applied where paths meet, and whether nodes start with every fact or with none. -/
structure Merge where
  join : Join
  startsFull : Bool
deriving DecidableEq, Repr

namespace Merge

/-- Facts accumulate from nothing. -/
def union : Merge :=
  { join := .union, startsFull := false }

instance : Inhabited Merge :=
  ⟨union⟩

/-- The word that every node starts from. -/
def startWord (merge : Merge) : Word :=
  if merge.startsFull then BitVec.allOnes 32 else 0

/-- The description of a merge rule. -/
def shown (merge : Merge) : Shown :=
  .record "DataFlowOperator"
    [
      ("join", .atom merge.join.name),
      ("initial_value", .atom (if merge.startsFull then "true" else "false"))
    ]
    false

end Merge

end Dataflow
