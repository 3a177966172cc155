import Dataflow.Analysis.FlowExit
import Dataflow.Analysis.Query
import Dataflow.Analysis.Solve
import Dataflow.Demo.Report

/-! Locals that may be alive after a block, by a forward analysis with one fact per local. A local
of the block is killed where the block ends; only the scopes that edges leave make that kill count
for a jump out of the block as well.
-/

namespace Dataflow.Demo.Scopes

open Dataflow.Text

/-- The local variables, in the order of their facts. -/
def locals : List String :=
  ["outer", "inner"]

/-- The control flow of the program analysed. -/
def program : Except BadNode (Cfg String) :=
  Cfg.build
    (["let outer = 0", "let inner = 1", "if flag", "touch(inner)", "'block", "after()"].map some)
    [
      .plain 0 1,
      .plain 1 2,
      .plain 2 3,
      ⟨3, 6, ["'block"]⟩,
      .plain 3 4,
      .plain 4 5,
      .plain 5 6
    ]

/-- A sink that lists the nodes whose scope-end kills grow. -/
structure Widenings where
  lines : List String

instance : Sink Widenings where
  mask _ := .only .flowExit
  receive event log :=
    match event with
    | .flowExitWidened node row =>
        let words := hexRow row
        { lines := log.lines ++ [s!"scope kills widened at n{node}: {words}"] }
    | _ => log

/-- The analysis with the two locals and the end of the block recorded. -/
def recorded (cfg : Cfg String) : Except Fault (Analysis String) := do
  let analysis := Analysis.create cfg.toView .union locals.length .forward
  let analysis ← analysis.addGen "let outer = 0" 0
  let analysis ← analysis.addGen "let inner = 1" 1
  analysis.addKill .scopeEnd "'block" 1

/-- Apply the scopes that edges leave, and tell which kills grew. -/
def applyExits (analysis : Analysis String) : Except Fault (Analysis String × List String) := do
  let log : Widenings := { lines := [] }
  let (analysis, log) ← analysis.addFlowExitKills (Sink.mask log) log
  let widened := log.lines.length
  return (analysis, log.lines ++ [s!"{widened} flow exit(s) widened"])

/-- The locals that may be alive on entry to the statement after the block. -/
def aliveLocals (analysis : Analysis String) : Except Fault (List String) := do
  let (solved, _, _) ← analysis.solve .none Silent.silent
  let (_, alive) ← solved.walk .entry "after()"
    (fun fact alive => (true, alive ++ [(locals[fact]?).getD ""])) []
  return alive

/-- Run the demonstration. -/
def run : Except Failure (List String) := do
  let cfg ← program
  let analysis ← recorded cfg
  let ignoring := bracketed ((← aliveLocals analysis).map quote)
  let (applied, exits) ← applyExits analysis
  let applying := bracketed ((← aliveLocals applied).map quote)
  let nodeCount := cfg.nodeCount
  let edgeCount := cfg.edgeCount
  return s!"{nodeCount} nodes, {edgeCount} edges"
    :: s!"alive at after() ignoring the break's scope exit: {ignoring}"
    :: exits
    ++ [s!"alive at after() with scope exits applied:       {applying}"]

end Dataflow.Demo.Scopes
