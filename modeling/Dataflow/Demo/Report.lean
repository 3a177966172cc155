import Dataflow.Bits.Row
import Dataflow.Graph.Cfg
import Dataflow.Text.Quoted

/-! What a demonstration program answers: an exit status and lines of text. -/

namespace Dataflow.Demo

open Dataflow.Text

/-- Why a demonstration stopped early. -/
inductive Failure where
  | badNode (bad : BadNode)
  | fault (fault : Fault)
deriving DecidableEq, Repr

instance : MonadLift (Except BadNode) (Except Failure) where
  monadLift result := result.mapError .badNode

instance : MonadLift (Except Fault) (Except Failure) where
  monadLift result := result.mapError .fault

/-- The outcome of a demonstration. -/
structure Report where
  status : Nat
  lines : List String
deriving DecidableEq, Repr

/-- A demonstration that ran to its end has status zero, and one that stopped early has one. -/
def Report.ofRun : Except Failure (List String) → Report
  | .ok lines => { status := 0, lines }
  | .error _ => { status := 1, lines := [] }

/-- A row of words in base sixteen. -/
def hexRow (row : Row) : String :=
  bracketed (row.map fun word => hex word.toNat)

end Dataflow.Demo
