import Dataflow.Bits.Table
import Dataflow.Graph.View
import Dataflow.Merge

/-! An analysis over a graph: where each fact is established and where it is killed, and the
facts known to hold on entry to each node. An analysis of no facts at all keeps no words, and
recording into it does nothing.
-/

namespace Dataflow

open Dataflow.Text

/-- What ends a fact at a node. -/
inductive KillKind where
  /-- The scope that the fact belongs to ends. -/
  | scopeEnd
  /-- The execution of the node ends the fact. -/
  | execution
deriving DecidableEq, Repr

/-- The recorded and the computed facts of a graph. -/
structure Analysis (E : Type) [Ord E] where
  graph : GraphView E
  merge : Merge
  bits : Nat
  direction : Direction
  gens : Table
  scopeEndKills : Table
  executionKills : Table
  onEntry : Table

namespace Analysis

variable {E : Type} [Ord E]

/-- The analysis of `bits` facts in which nothing is recorded, and every node has its rows and
starts from the start word of the merge rule.
-/
def initial (graph : GraphView E) (merge : Merge) (bits : Nat) (direction : Direction)
    : Analysis E :=
  {
    graph,
    merge,
    bits,
    direction,
    gens := .filled graph.nodeCount (wordsFor bits) 0,
    scopeEndKills := .filled graph.nodeCount (wordsFor bits) 0,
    executionKills := .filled graph.nodeCount (wordsFor bits) 0,
    onEntry := .filled graph.nodeCount (wordsFor bits) merge.startWord
  }

/-- The analysis for which tables are allocated. It is the initial one, unless the words of a table
are too many to be counted.
-/
def create (graph : GraphView E) (merge : Merge) (bits : Nat) (direction : Direction)
    : Analysis E :=
  {
    graph,
    merge,
    bits,
    direction,
    gens := .allocated graph.nodeCount (wordsFor bits) 0,
    scopeEndKills := .allocated graph.nodeCount (wordsFor bits) 0,
    executionKills := .allocated graph.nodeCount (wordsFor bits) 0,
    onEntry := .allocated graph.nodeCount (wordsFor bits) merge.startWord
  }

/-- The number of words in each row. -/
def width (analysis : Analysis E) : Nat :=
  wordsFor analysis.bits

/-- The kills of one kind. -/
def kills (analysis : Analysis E) : KillKind → Table
  | .scopeEnd => analysis.scopeEndKills
  | .execution => analysis.executionKills

/-- Add one fact to the rows of several nodes, in order. -/
def mark (table : Table) (nodes : List Node) (bit : Nat) : Except Fault Table :=
  nodes.foldlM (fun table node => table.setBit node bit) table

/-- Record that a fact is established wherever an element occurs. -/
def addGen (analysis : Analysis E) (element : E) (bit : Nat)
    : Except Fault (Analysis E) := do
  if analysis.bits = 0 then
    return analysis
  else
    let gens ← mark analysis.gens (analysis.graph.index.nodes element) bit
    return { analysis with gens }

/-- Record that a fact is killed wherever an element occurs. -/
def addKill (analysis : Analysis E) (kind : KillKind) (element : E) (bit : Nat)
    : Except Fault (Analysis E) := do
  if analysis.bits = 0 then
    return analysis
  else
    let nodes := analysis.graph.index.nodes element
    match kind with
    | .scopeEnd =>
        let scopeEndKills ← mark analysis.scopeEndKills nodes bit
        return { analysis with scopeEndKills }
    | .execution =>
        let executionKills ← mark analysis.executionKills nodes bit
        return { analysis with executionKills }

/-- The facts that leave a node when those of `row` arrive: the node's own are added, then those
that its execution or the end of a scope kills are removed.
-/
def transfer (analysis : Analysis E) (node : Node) (row : Row) : Except Fault Row := do
  let gained ← Join.union.rows row (← analysis.gens.row node)
  let executed ← Join.subtract.rows gained (← analysis.executionKills.row node)
  Join.subtract.rows executed (← analysis.scopeEndKills.row node)

/-- The description of an analysis; its tables are left out. -/
def shown (analysis : Analysis E) : Shown :=
  .record "DataFlowContext"
    [
      ("oper", analysis.merge.shown),
      ("bits_per_element", .atom (toString analysis.bits)),
      ("words_per_element", .atom (toString analysis.width)),
      ("direction", .atom analysis.direction.name),
      ("node_count", .atom (toString analysis.graph.nodeCount))
    ]
    true

/-- A fact leaves a node if it arrives or is established there, and neither its execution nor the
end of a scope kills it. By the position law of each of the three joins.
-/
theorem testBit_of_transfer {analysis : Analysis E} {node : Node} {row result : Row}
    (h : analysis.transfer node row = .ok result)
    : ∃ gens executed ended, analysis.gens.row node = .ok gens
      ∧ analysis.executionKills.row node = .ok executed
      ∧ analysis.scopeEndKills.row node = .ok ended
      ∧ ∀ bit, result.testBit bit
          = ((row.testBit bit || gens.testBit bit) && !executed.testBit bit
            && !ended.testBit bit) := by
  obtain ⟨gens, foundGens, afterGens⟩ := bind_eq_ok.mp h
  obtain ⟨gained, joined, afterGained⟩ := bind_eq_ok.mp afterGens
  obtain ⟨executed, foundExecuted, afterExecuted⟩ := bind_eq_ok.mp afterGained
  obtain ⟨kept, subtracted, afterKept⟩ := bind_eq_ok.mp afterExecuted
  obtain ⟨ended, foundEnded, last⟩ := bind_eq_ok.mp afterKept
  refine ⟨gens, executed, ended, foundGens, foundExecuted, foundEnded, fun bit => ?_⟩
  rw [Join.testBit_of_rows last, Join.testBit_of_rows subtracted, Join.testBit_of_rows joined]
  rfl

end Analysis

end Dataflow
