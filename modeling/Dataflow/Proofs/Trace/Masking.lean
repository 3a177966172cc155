import Dataflow.Proofs.Analysis.Convergence
import Dataflow.Proofs.Analysis.FlowExits
import Dataflow.Proofs.Trace.Listening

/-! Tracing shows a run and leaves it as it is. Whatever mask and sink a run is given, its result is
that of the run which nobody hears of, and the sink receives of all the events of the run those
whose class the mask contains, in order. What the sink asks for plays no part.
-/

namespace Dataflow

namespace Mask

/-- The mask that selects every class of events. -/
def full : Mask :=
  .ofClasses [.solve, .sweep, .entry, .flowExit]

theorem full_selects (eventClass : EventClass) : full.selects eventClass = true := by
  cases eventClass <;> rfl

theorem full_contains (mask : Mask) : full.contains mask = true :=
  (contains_iff full mask).mpr fun eventClass _ => full_selects eventClass

/-- A mask contains the mask of one class exactly if it selects the class. -/
theorem contains_only (mask : Mask) (eventClass : EventClass)
    : mask.contains (.only eventClass) = mask.selects eventClass := by
  cases eventClass <;> simp [contains, only, selects]

end Mask

/-- Under the full mask a log keeps all events. -/
theorem EventLog.toList_hear_full (events : List Event) (log : EventLog)
    : (hear .full events log).events.toList = log.events.toList ++ events := by
  rw [hear_of_selects fun event _ => Mask.full_selects event.eventClass]
  exact EventLog.toList_foldl_receive events log

/-- What is heard under a mask are the events whose class the mask contains. -/
theorem hear_eq_foldl_filter {σ : Type} [Sink σ] (mask : Mask) (events : List Event) (sink : σ)
    : hear mask events sink
      = (events.filter fun event => mask.contains (.only event.eventClass)).foldl
          (fun heard event => Sink.receive event heard) sink := by
  simp only [hear, Mask.contains_only]

end Dataflow

namespace Dataflow.Analysis

variable {E σ τ : Type} [Ord E] [Sink σ] [Sink τ]

-----------------------------------------------------------------------------------------
-- The pass over the edges follows a view of its sink
-----------------------------------------------------------------------------------------

/-- The state of a pass with a view of its sink. -/
def Widening.see (view : σ → τ) (state : Widening σ) : Widening τ :=
  { kills := state.kills, sink := view state.sink }

section Views

variable {mask again : Mask} {view : σ → τ} (mirrors : Mirrors mask again view)

include mirrors

theorem widenAt_see (index : ElementIndex E) (state : Widening σ) (edge : Edge E)
    : widenAt index again (state.see view) edge
      = (widenAt index mask state edge).map (Widening.see view) := by
  simp only [widenAt, Widening.see]
  cases state.kills.row edge.source with
  | error fault => rfl
  | ok held =>
      simp only [ok_bind]
      cases gatherKills state.kills (edge.exits.flatMap index.nodes) held with
      | error fault => rfl
      | ok widened =>
          simp only [ok_bind, mirrors _ _]
          split
          case isTrue => rfl
          case isFalse => rfl

/-- The pass follows a view of its sink, since it does so at every edge. -/
theorem addFlowExitKills_see (analysis : Analysis E) (sink : σ)
    : analysis.addFlowExitKills again (view sink)
      = (analysis.addFlowExitKills mask sink).map fun (passed, heard) => (passed, view heard) := by
  have edges := foldlM_view (Widening.see view) (widenAt_see mirrors analysis.graph.index)
    analysis.graph.edges { kills := analysis.scopeEndKills, sink }
  simp only [Widening.see] at edges
  unfold addFlowExitKills
  split
  case isTrue => rfl
  case isFalse =>
    rw [edges]
    cases analysis.graph.edges.foldlM (widenAt analysis.graph.index mask)
        { kills := analysis.scopeEndKills, sink } with
    | error fault => rfl
    | ok final => rfl

end Views

-----------------------------------------------------------------------------------------
-- Runs under any mask against the run under the full one
-----------------------------------------------------------------------------------------

/-- Every sink hears of a run what the mask lets through of the full log of the run, whatever the
log asks for. The result is the same for all of them.
-/
theorem solve_of_fullLog {analysis solved : Analysis E} {tally : Tally} {wanted : Mask}
    {log : EventLog} (ran : analysis.solve .full (EventLog.empty wanted) = .ok (solved, tally, log))
    (mask : Mask) (sink : σ)
    : analysis.solve mask sink = .ok (solved, tally, hear mask log.events.toList sink) := by
  have heard := solve_see (mirrors_hear (Mask.full_contains mask) sink) analysis
    (EventLog.empty wanted)
  rw [ran] at heard
  exact heard

/-- A run reports its start, what the full log of its sweeps holds, and its end. -/
theorem solve_of_sweepLog {analysis : Analysis E} (positive : 0 < analysis.bits)
    {stops : List Stop} (routed : route analysis.graph analysis.direction = .ok stops)
    {wanted : Mask} {outcome : Outcome EventLog}
    (ended : sweepAll analysis .full stops { sweeps := 0, updates := 0 } analysis.onEntry
      (EventLog.empty wanted) = .ok outcome)
    (mask : Mask) (sink : σ)
    : analysis.solve mask sink
      = .ok
        ({ analysis with onEntry := outcome.onEntry }, outcome.tally,
          hear mask
            (.solveStart analysis.direction analysis.graph.nodeCount analysis.bits
              :: (outcome.sink.events.toList ++ [.solveEnd outcome.tally]))
            sink) := by
  have heard := sweepAll_see
    (mirrors_hear (Mask.full_contains mask)
      (emit mask (.solveStart analysis.direction analysis.graph.nodeCount analysis.bits) sink))
    analysis stops { sweeps := 0, updates := 0 } analysis.onEntry (EventLog.empty wanted)
  rw [ended] at heard
  rw [hear_cons, hear_concat, solve, if_neg (Nat.ne_of_gt positive)]
  exact bind_eq_ok.mpr ⟨stops, routed, bind_eq_ok.mpr ⟨_, heard, rfl⟩⟩

/-- Every sink hears of a pass over the edges what the mask lets through of its full log. -/
theorem addFlowExitKills_of_fullLog {analysis passed : Analysis E} {wanted : Mask} {log : EventLog}
    (ran : analysis.addFlowExitKills .full (EventLog.empty wanted) = .ok (passed, log))
    (mask : Mask) (sink : σ)
    : analysis.addFlowExitKills mask sink = .ok (passed, hear mask log.events.toList sink) := by
  have heard := addFlowExitKills_see (mirrors_hear (Mask.full_contains mask) sink) analysis
    (EventLog.empty wanted)
  rw [ran] at heard
  exact heard

/-- Tracing changes neither what solving gives nor what the pass over the edges gives, for any mask
and any sink. Each sink ends as if it had been sent, one after the other, the events of the full log
whose class the mask contains; neither what the log asks for nor what the sink asks for matters.
-/
theorem traced_as_untraced {analysis : Analysis E} (full : analysis.Sized)
    (inRange : analysis.graph.InRange) (wanted : Mask)
    : (∃ solved tally log,
        analysis.solve .none Silent.silent = .ok (solved, tally, Silent.silent)
        ∧ analysis.solve .full (EventLog.empty wanted) = .ok (solved, tally, log)
        ∧ ∀ (σ : Type) [Sink σ] (mask : Mask) (sink : σ),
            analysis.solve mask sink
              = .ok
                (solved, tally,
                  (log.events.toList.filter fun event =>
                      mask.contains (.only event.eventClass)).foldl
                    (fun heard event => Sink.receive event heard) sink))
      ∧ ∃ passed log,
          analysis.addFlowExitKills .none Silent.silent = .ok (passed, Silent.silent)
          ∧ analysis.addFlowExitKills .full (EventLog.empty wanted) = .ok (passed, log)
          ∧ ∀ (σ : Type) [Sink σ] (mask : Mask) (sink : σ),
              analysis.addFlowExitKills mask sink
                = .ok
                  (passed,
                    (log.events.toList.filter fun event =>
                        mask.contains (.only event.eventClass)).foldl
                      (fun heard event => Sink.receive event heard) sink) := by
  obtain ⟨final, tally, log, _, ran, _⟩ :=
    solve_ends full inRange .full (EventLog.empty wanted)
  obtain ⟨kills, passLog, passed, _⟩ :=
    addFlowExitKills_simulates full inRange .full (EventLog.empty wanted)
  refine ⟨⟨_, tally, log, solve_of_fullLog ran .none Silent.silent, ran, ?_⟩,
    _, passLog, addFlowExitKills_of_fullLog passed .none Silent.silent, passed, ?_⟩
  · intro σ _ mask sink
    rw [← hear_eq_foldl_filter]
    exact solve_of_fullLog ran mask sink
  · intro σ _ mask sink
    rw [← hear_eq_foldl_filter]
    exact addFlowExitKills_of_fullLog passed mask sink

/-- The nested exits with a fact that node 0 establishes, so that a run changes facts on entry and a
pass over the edges widens kills.
-/
def fedExits : Analysis Nat :=
  {
    nestedExits [innerExit, outerExit] with
    gens := (Table.filled 4 (wordsFor 40) 0).setRow 0 [1, 0]
  }

/-- A sink that asks for everything hears of the one change among the seven events of the run, and
of both events of the pass or of neither, as the mask says.
-/
theorem traced_as_untraced_fedExits
    : fedExits.Sized
      ∧ fedExits.graph.InRange
      ∧ (∃ solved tally heard log,
          fedExits.solve .none Silent.silent = .ok (solved, tally, Silent.silent)
          ∧ fedExits.solve .full (EventLog.empty .none) = .ok (solved, tally, log)
          ∧ log.events.toList.length = 7
          ∧ fedExits.solve (.only .entry) (EventLog.empty .full) = .ok (solved, tally, heard)
          ∧ heard.events.toList = [.entryChanged 1 0 3 [1, 0]])
      ∧ ∃ passed heard unheard,
          fedExits.addFlowExitKills .none Silent.silent = .ok (passed, Silent.silent)
          ∧ fedExits.addFlowExitKills (.only .flowExit) (EventLog.empty .full) = .ok (passed, heard)
          ∧ heard.events.toList = [.flowExitWidened 1 [0, 2], .flowExitWidened 0 [0, 2]]
          ∧ fedExits.addFlowExitKills (.only .entry) (EventLog.empty .full) = .ok (passed, unheard)
          ∧ unheard.events.toList = [] := by
  have full : fedExits.Sized :=
    {
      sized_initial _ _ 40 .forward with
      gens := (Table.sized_filled _ _ _).setRow _ _,
      scopeEndKills := (Table.sized_filled _ _ _).setRow _ _
    }
  have inRange : fedExits.graph.InRange :=
    GraphView.listed_inRange (by decide) (by decide) (by decide)
  obtain ⟨⟨solved, tally, log, untraced, logged, traced⟩,
    passed, passLog, unheardPass, loggedPass, tracedPass⟩ := traced_as_untraced full inRange .none
  have run : (fedExits.solve .full (EventLog.empty .none)).toOption.map
      (fun result => result.2.2.events.toList)
      = some [.solveStart .forward 4 40, .sweepStart 1, .entryChanged 1 0 3 [1, 0],
          .sweepEnd 1 true, .sweepStart 2, .sweepEnd 2 false,
          .solveEnd { sweeps := 2, updates := 1 }] := by
    decide +kernel
  have pass : (fedExits.addFlowExitKills .full (EventLog.empty .none)).toOption.map
      (fun result => result.2.events.toList)
      = some [.flowExitWidened 1 [0, 2], .flowExitWidened 0 [0, 2]] := by
    decide +kernel
  rw [logged] at run
  rw [loggedPass] at pass
  have events := Option.some.inj run
  have passEvents := Option.some.inj pass
  dsimp only at events passEvents
  refine ⟨full, inRange,
    ⟨solved, tally, _, log, untraced, logged, ?_,
      traced EventLog (.only .entry) (EventLog.empty .full), ?_⟩,
    passed, _, _, unheardPass, tracedPass EventLog (.only .flowExit) (EventLog.empty .full), ?_,
    tracedPass EventLog (.only .entry) (EventLog.empty .full), ?_⟩
  · rw [events]
    rfl
  · rw [EventLog.toList_foldl_receive, events]
    decide
  · rw [EventLog.toList_foldl_receive, passEvents]
    decide
  · rw [EventLog.toList_foldl_receive, passEvents]
    decide

end Dataflow.Analysis
