import Dataflow.Analysis.FlowExit
import Dataflow.Analysis.Query
import Dataflow.Analysis.Solve
import Dataflow.Demo.Report

/-! Dead assignments by a backward analysis with one fact per local variable: a local is live
where its value may still be read. The program analysed assigns `a` and `b`, and then loops until
a flag is set, reading `b` on the way.
-/

namespace Dataflow.Demo.Liveness

open Dataflow.Text

/-- The local variables, in the order of their facts. -/
def locals : List String :=
  ["a", "b"]

/-- The locals that statements read. -/
def uses : List (String × Nat) :=
  [("b = a + 1", 0), ("use(b)", 1)]

/-- The locals that statements assign. -/
def assignments : List (String × Nat) :=
  [("let mut a = 1", 0), ("b = a + 1", 1), ("a = 5", 0)]

/-- The locals that statements declare. -/
def declarations : List (String × Nat) :=
  [("let mut a = 1", 0), ("let b", 1)]

/-- The control flow of the program analysed. -/
def program : Except BadNode (Cfg String) :=
  Cfg.build
    [
      some "let mut a = 1",
      some "let b",
      some "b = a + 1",
      some "a = 5",
      some "loop",
      some "if flag",
      some "use(b)",
      some "loop body",
      none
    ]
    [
      .plain 0 1,
      .plain 1 2,
      .plain 2 3,
      .plain 3 4,
      .plain 4 5,
      .plain 5 6,
      .plain 6 9,
      .plain 6 7,
      .plain 7 8,
      .plain 8 5
    ]

/-- A sink that tells a run in lines of text. -/
structure Narration where
  lines : Array String

/-- The line that tells of an event, if any. -/
def narrate : Event → Option String
  | .solveStart direction nodeCount bits =>
      let flow := direction.name
      some s!"solve: {flow} over {nodeCount} nodes, {bits} bits"
  | .sweepStart sweep => some s!"  sweep {sweep}"
  | .entryChanged _ source target row =>
      let words := hexRow row
      some s!"    n{source} -> n{target}: {words}"
  | .solveEnd tally => some s!"converged: {tally.sweeps} sweeps, {tally.updates} entry updates"
  | .sweepEnd .. => none
  | .flowExitWidened .. => none

instance : Sink Narration where
  mask _ := .ofClasses [.solve, .sweep, .entry]
  receive event narration :=
    match narrate event with
    | some line => { lines := narration.lines.push line }
    | none => narration

/-- The analysis with all uses, assignments and ends of scopes recorded. -/
def recorded (cfg : Cfg String) : Except Fault (Analysis String) := do
  let analysis := Analysis.create cfg.toView .union locals.length .backward
  let analysis ← uses.foldlM (fun analysis use => analysis.addGen use.1 use.2) analysis
  let analysis ← assignments.foldlM
    (fun analysis assignment => analysis.addKill .execution assignment.1 assignment.2) analysis
  let analysis ← declarations.foldlM
    (fun analysis declaration => analysis.addKill .scopeEnd declaration.1 declaration.2) analysis
  return (← analysis.addFlowExitKills .none Silent.silent).1

/-- Whether the value that an assignment gives to a local may be read later. In a backward
analysis the facts on entry to a node are those that hold after it.
-/
def readLater (analysis : Analysis String) (assignment : String × Nat) : Except Fault Bool := do
  let (unread, _) ← analysis.walk .entry assignment.1
    (fun fact seen => (fact != assignment.2, seen)) ()
  return !unread

/-- The line about one assignment. -/
def verdict (analysis : Analysis String) (assignment : String × Nat) : Except Fault String := do
  let outcome := if ← readLater analysis assignment then "ok" else "value is never read"
  let assigned := (locals[assignment.2]?).getD ""
  return padRight 16 assignment.1 ++ " assigns \x60" ++ assigned ++ "\x60: " ++ outcome

/-- The lines about all assignments. -/
def verdicts (analysis : Analysis String) : Except Fault (List String) :=
  assignments.mapM (verdict analysis)

/-- Run the demonstration, with the story of the run if asked for. -/
def run (traced : Bool) : Except Failure (List String) := do
  let cfg ← program
  let analysis ← recorded cfg
  let narration : Narration := { lines := #[] }
  let mask := if traced then Sink.mask narration else .none
  let (solved, tally, narration) ← analysis.solve mask narration
  let nodeCount := cfg.nodeCount
  let judged ← verdicts solved
  return narration.lines.toList
    ++ s!"{nodeCount} nodes, solved in {tally.sweeps} sweeps" :: judged

end Dataflow.Demo.Liveness
