import Dataflow.Proofs.Trace.Masking
import Mathlib.Data.Set.Function

/-! Runs that go step by step alike. A sweep reads and writes nothing but the rows of the nodes on
its route, so two analyses whose rows agree there, and which have the same route, make the same
updates and report the same events, whatever their other rows hold and whichever graphs gave the
route.
-/

namespace Dataflow.Analysis

variable {E F : Type} [Ord E] [Ord F]

/-- The analyses merge facts alike, and the rows of the nodes in `live` are the same in both. -/
structure AgreeOn (live : Set Node) (analysis : Analysis E) (other : Analysis F) : Prop where
  join : other.merge.join = analysis.merge.join
  bits : other.bits = analysis.bits
  gens : live.EqOn analysis.gens.row other.gens.row
  scopeEndKills : live.EqOn analysis.scopeEndKills.row other.scopeEndKills.row
  executionKills : live.EqOn analysis.executionKills.row other.executionKills.row
  onEntry : live.EqOn analysis.onEntry.row other.onEntry.row

/-- Every stop of the route, and every node that facts are carried to, is in `live`. -/
def RouteWithin (live : Set Node) (stops : List Stop) : Prop :=
  ∀ stop ∈ stops, stop.node ∈ live ∧ ∀ target ∈ stop.targets, target ∈ live

/-- The event that a run begins with; an analysis of no facts is solved without one. -/
def opening (analysis : Analysis E) : List Event :=
  if analysis.bits = 0 then
    []
  else
    [.solveStart analysis.direction analysis.graph.nodeCount analysis.bits]

/-- Two sweeps under way have the same rows at the nodes in `live`, agree on whether and in how many
updates they have changed something, and have left their sinks in the same state.
-/
structure Progress.Alike {σ : Type} (live : Set Node) (progress following : Progress σ)
    : Prop where
  rows : live.EqOn progress.onEntry.row following.onEntry.row
  changed : following.changed = progress.changed
  updates : following.updates = progress.updates
  sink : following.sink = progress.sink

namespace AgreeOn

variable {live : Set Node} {analysis : Analysis E} {other : Analysis F}

theorem width_eq (agree : AgreeOn live analysis other) : other.width = analysis.width :=
  congrArg wordsFor agree.bits

theorem transfer_eq (agree : AgreeOn live analysis other) {node : Node} (member : node ∈ live)
    (row : Row)
    : other.transfer node row = analysis.transfer node row := by
  simp only [transfer, agree.gens member, agree.scopeEndKills member, agree.executionKills member]

section Steps

variable {σ : Type} [Sink σ] {mask : Mask} {sweep : Nat}

theorem deliver (agree : AgreeOn live analysis other) {source target : Node} {leaving : Row}
    {progress following next : Progress σ} (alike : progress.Alike live following)
    (member : target ∈ live)
    (delivered : deliver analysis mask sweep source leaving progress target = .ok next)
    : ∃ followed, Analysis.deliver other mask sweep source leaving following target = .ok followed
      ∧ next.Alike live followed := by
  obtain ⟨held, merged, found, joined, rfl⟩ := deliver_eq_ok.mp delivered
  have alsoFound : following.onEntry.row target = .ok held := (alike.rows member).symm.trans found
  have alsoJoined : other.merge.join.rows held leaving = .ok merged := agree.join ▸ joined
  have length := Join.length_of_rows joined
  refine ⟨_, deliver_eq_ok.mpr ⟨held, merged, alsoFound, alsoJoined, rfl⟩, ?_⟩
  split
  case isTrue => exact alike
  case isFalse =>
    refine ⟨fun node inside => ?_, rfl, congrArg (· + 1) alike.updates, ?_⟩
    · by_cases here : node = target
      · rw [here, Table.row_setRow_self found length, Table.row_setRow_self alsoFound length]
      · rw [Table.row_setRow_of_ne found length here, Table.row_setRow_of_ne alsoFound length here]
        exact alike.rows inside
    · simp only [alike.sink]

theorem visit (agree : AgreeOn live analysis other) {stop : Stop} (member : stop.node ∈ live)
    (targets : ∀ target ∈ stop.targets, target ∈ live) {progress following next : Progress σ}
    (alike : progress.Alike live following)
    (visited : visit analysis mask sweep progress stop = .ok next)
    : ∃ followed, Analysis.visit other mask sweep following stop = .ok followed
      ∧ next.Alike live followed := by
  obtain ⟨held, found, afterRead⟩ := bind_eq_ok.mp visited
  obtain ⟨leaving, transferred, delivered⟩ := bind_eq_ok.mp afterRead
  obtain ⟨followed, alsoDelivered, still⟩ := foldlM_lockstep (Progress.Alike live) alike
    (fun _ _ alike target listed _ step => agree.deliver alike (targets target listed) step)
    delivered
  refine ⟨followed, bind_eq_ok.mpr ⟨held, (alike.rows member).symm.trans found, ?_⟩, still⟩
  exact bind_eq_ok.mpr ⟨leaving, (agree.transfer_eq member held).trans transferred, alsoDelivered⟩

theorem sweepOnce (agree : AgreeOn live analysis other) {stops : List Stop}
    (within : RouteWithin live stops) {onEntry following : Table}
    (rows : live.EqOn onEntry.row following.row) {sink : σ} {next : Progress σ}
    (swept : sweepOnce analysis mask sweep stops onEntry sink = .ok next)
    : ∃ followed, Analysis.sweepOnce other mask sweep stops following sink = .ok followed
      ∧ next.Alike live followed := by
  have begun : Progress.Alike live (.start onEntry sink) (.start following sink) :=
    ⟨rows, rfl, rfl, rfl⟩
  exact foldlM_lockstep (Progress.Alike live) begun
    (fun _ _ alike stop listed _ step =>
      agree.visit (within stop listed).1 (within stop listed).2 alike step)
    swept

/-- The loops take the same turns, by induction on those of the first. -/
theorem sweepAll (agree : AgreeOn live analysis other) {stops : List Stop}
    (within : RouteWithin live stops) {done : Tally} {onEntry following : Table}
    (rows : live.EqOn onEntry.row following.row) {sink : σ} {outcome : Outcome σ}
    (ended : sweepAll analysis mask stops done onEntry sink = .ok outcome)
    : ∃ final, Analysis.sweepAll other mask stops done following sink
        = .ok { outcome with onEntry := final }
      ∧ live.EqOn outcome.onEntry.row final.row := by
  fun_induction Analysis.sweepAll analysis mask stops done onEntry sink generalizing following with
  | case1 => cases ended
  | case2 done onEntry sink sweep started progress swept tally closed changed =>
      rename_i ih
      obtain ⟨followed, alsoSwept, alike⟩ := agree.sweepOnce within rows swept
      rw [sweepAll_eq, alsoSwept, ok_bind, alike.changed, if_pos changed, alike.updates, alike.sink]
      exact ih alike.rows ended
  | case3 done onEntry sink sweep started progress swept tally closed =>
      rename_i unchanged
      cases ended
      obtain ⟨followed, alsoSwept, alike⟩ := agree.sweepOnce within rows swept
      refine ⟨followed.onEntry, ?_, alike.rows⟩
      rw [sweepAll_eq, alsoSwept, ok_bind, alike.changed, if_neg unchanged, alike.updates,
        alike.sink]

end Steps

/-- Two runs over the same route count the same sweeps and updates and report the same events, apart
from the first, which describes the analysis.
-/
theorem solve (agree : AgreeOn live analysis other) (full : analysis.Sized)
    (inRange : analysis.graph.InRange) (alsoInRange : other.graph.InRange)
    (within : RouteWithin live (stopsOf analysis.graph analysis.direction))
    (same : stopsOf other.graph other.direction = stopsOf analysis.graph analysis.direction)
    : ∃ final followed tally events, live.EqOn final.row followed.row
      ∧ (∀ (σ : Type) [Sink σ] (mask : Mask) (sink : σ),
          analysis.solve mask sink
            = .ok
              ({ analysis with onEntry := final }, tally,
                hear mask (analysis.opening ++ events) sink))
      ∧ ∀ (σ : Type) [Sink σ] (mask : Mask) (sink : σ),
          other.solve mask sink
            = .ok
              ({ other with onEntry := followed }, tally,
                hear mask (other.opening ++ events) sink) := by
  by_cases none : analysis.bits = 0
  · have alsoNone : other.bits = 0 := agree.bits.trans none
    refine ⟨analysis.onEntry, other.onEntry, { sweeps := 0, updates := 0 }, [], agree.onEntry, ?_,
      ?_⟩
    · intro σ _ mask sink
      rw [solve_of_no_facts none, opening, if_pos none]
      rfl
    · intro σ _ mask sink
      rw [solve_of_no_facts alsoNone, opening, if_pos alsoNone]
      rfl
  · have alsoSome : other.bits ≠ 0 := agree.bits ▸ none
    obtain ⟨outcome, _, ended, _⟩ :=
      sweepAll_reaches full .full (route_inRange inRange analysis.direction)
        { sweeps := 0, updates := 0 } full.onEntry (EventLog.empty .none)
    obtain ⟨followed, alsoEnded, rows⟩ := agree.sweepAll within agree.onEntry ended
    have routed := route_eq_ok inRange analysis.direction
    have alsoRouted := route_eq_ok alsoInRange other.direction
    rw [same] at alsoRouted
    refine ⟨outcome.onEntry, followed, outcome.tally,
      outcome.sink.events.toList ++ [.solveEnd outcome.tally], rows, ?_, ?_⟩
    · intro σ _ mask sink
      rw [opening, if_neg none]
      exact solve_of_sweepLog (Nat.pos_of_ne_zero none) routed ended mask sink
    · intro σ _ mask sink
      rw [opening, if_neg alsoSome]
      exact solve_of_sweepLog (Nat.pos_of_ne_zero alsoSome) alsoRouted alsoEnded mask sink

end AgreeOn

end Dataflow.Analysis
