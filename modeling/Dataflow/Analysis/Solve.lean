import Dataflow.Analysis.Basic
import Dataflow.Trace.Sink

/-! Solving an analysis: sweeps over the nodes of the graph until one changes nothing. A sweep
carries the facts that leave each node to its neighbours and merges them there at once, so later
nodes of the same sweep already see them. Sweeping ends because every update spends room of the
merge rule's join, and a sweep without updates is the last.
-/

namespace Dataflow.Analysis

variable {E σ : Type} [Ord E]

/-- A node to visit in a sweep, with the neighbours its facts flow to. -/
structure Stop where
  node : Node
  targets : List Node
deriving DecidableEq, Repr

/-- The order of visits in every sweep: depth-first post-order for facts that flow backward, and
its reverse for facts that flow forward.
-/
def route (graph : GraphView E) (direction : Direction) : Except Fault (List Stop) := do
  let postOrder ← graph.postOrder
  let order :=
    match direction with
    | .forward => postOrder.reverse
    | .backward => postOrder
  order.mapM fun node => return { node, targets := ← graph.targets direction node }

/-- Facts on entry under way in a sweep, whether the sweep has changed any and in how many updates,
and the sink.
-/
structure Progress (σ : Type) where
  onEntry : Table
  changed : Bool
  updates : Nat
  sink : σ

/-- A sweep about to begin. -/
def Progress.start (onEntry : Table) (sink : σ) : Progress σ :=
  { onEntry, changed := false, updates := 0, sink }

section Sweep

variable [Sink σ] (analysis : Analysis E) (mask : Mask) (sweep : Nat)

/-- Merge the facts that leave `source` into those on entry to `target`. -/
def deliver (source : Node) (leaving : Row) (progress : Progress σ) (target : Node)
    : Except Fault (Progress σ) := do
  let held ← progress.onEntry.row target
  let merged ← analysis.merge.join.update held leaving
  if merged.2 then
    return {
      onEntry := progress.onEntry.setRow target merged.1,
      changed := true,
      updates := progress.updates + 1,
      sink := emit mask (.entryChanged sweep source target merged.1) progress.sink
    }
  else
    return progress

/-- Carry the facts that leave a node to all its targets. -/
def visit (progress : Progress σ) (stop : Stop) : Except Fault (Progress σ) := do
  let held ← progress.onEntry.row stop.node
  let leaving ← analysis.transfer stop.node held
  stop.targets.foldlM (deliver analysis mask sweep stop.node leaving) progress

/-- Visit every stop once, from the given facts on entry. -/
def sweepOnce (stops : List Stop) (onEntry : Table) (sink : σ) : Except Fault (Progress σ) :=
  stops.foldlM (visit analysis mask sweep) (.start onEntry sink)

variable {analysis mask sweep} in
/-- A delivery either changes nothing, or it replaces the facts on entry to the target by others,
which are the join of the held with the arriving ones.
-/
theorem deliver_eq_ok {source target : Node} {leaving : Row} {progress next : Progress σ}
    : deliver analysis mask sweep source leaving progress target = .ok next
      ↔ ∃ held merged, progress.onEntry.row target = .ok held
        ∧ analysis.merge.join.rows held leaving = .ok merged
        ∧ next =
          if merged = held then
            progress
          else
            {
              onEntry := progress.onEntry.setRow target merged,
              changed := true,
              updates := progress.updates + 1,
              sink := emit mask (.entryChanged sweep source target merged) progress.sink
            } := by
  constructor
  · intro delivered
    obtain ⟨held, found, afterRead⟩ := bind_eq_ok.mp delivered
    obtain ⟨⟨merged, changed⟩, updated, result⟩ := bind_eq_ok.mp afterRead
    obtain ⟨joined, rfl⟩ := Join.update_eq_ok.mp updated
    simp only [bne_iff_ne, ne_eq, ite_not] at result
    refine ⟨held, merged, found, joined, ?_⟩
    split at result
    case isTrue same => exact (Except.ok.inj result).symm.trans (if_pos same).symm
    case isFalse changed => exact (Except.ok.inj result).symm.trans (if_neg changed).symm
  · rintro ⟨held, merged, found, joined, rfl⟩
    have updated := Join.update_eq_ok.mpr ⟨joined, rfl⟩
    refine bind_eq_ok.mpr ⟨held, found, bind_eq_ok.mpr ⟨_, updated, ?_⟩⟩
    simp only [bne_iff_ne, ne_eq, ite_not]
    split
    case isTrue => rfl
    case isFalse => rfl

/-- The room left to the facts on entry, together with the updates already made. -/
def Progress.budget (join : Join) (progress : Progress σ) : Nat :=
  progress.onEntry.room join + progress.updates

/-- A delivery stays within the budget: a change spends at least as much room as the one update
it counts.
-/
theorem budget_deliver {source target : Node} {leaving : Row} {progress next : Progress σ}
    (h : deliver analysis mask sweep source leaving progress target = .ok next)
    : next.budget analysis.merge.join ≤ progress.budget analysis.merge.join := by
  obtain ⟨held, merged, stored, joined, rfl⟩ := deliver_eq_ok.mp h
  split
  case isTrue => exact Nat.le_refl _
  case isFalse changed =>
    have spent := Join.roomOf_lt_of_rows joined changed
    have traded := Table.room_setRow analysis.merge.join stored (Join.length_of_rows joined)
    simp only [Progress.budget]
    omega

/-- A visit stays within the budget, since each of its deliveries does. -/
theorem budget_visit {stop : Stop} {progress next : Progress σ}
    (h : visit analysis mask sweep progress stop = .ok next)
    : next.budget analysis.merge.join ≤ progress.budget analysis.merge.join := by
  obtain ⟨held, _, afterRead⟩ := bind_eq_ok.mp h
  obtain ⟨leaving, _, delivered⟩ := bind_eq_ok.mp afterRead
  exact foldlM_related
    (fun first last : Progress σ =>
      last.budget analysis.merge.join ≤ first.budget analysis.merge.join)
    (fun _ => Nat.le_refl _) (fun _ _ _ early late => Nat.le_trans late early)
    stop.targets progress next
    (fun _ _ _ _ step => budget_deliver analysis mask sweep step) delivered

/-- A sweep makes no more updates than it spends room, since each of its visits stays within
the budget.
-/
theorem room_sweepOnce {stops : List Stop} {onEntry : Table} {sink : σ} {final : Progress σ}
    (h : sweepOnce analysis mask sweep stops onEntry sink = .ok final)
    : final.onEntry.room analysis.merge.join + final.updates
      ≤ onEntry.room analysis.merge.join :=
  foldlM_related
    (fun first last : Progress σ =>
      last.budget analysis.merge.join ≤ first.budget analysis.merge.join)
    (fun _ => Nat.le_refl _) (fun _ _ _ early late => Nat.le_trans late early)
    stops (.start onEntry sink) final
    (fun _ _ _ _ step => budget_visit analysis mask sweep step) h

/-- A sweep has changed something exactly if it has made an update: every delivery that sets the
flag counts one.
-/
theorem changed_sweepOnce {stops : List Stop} {onEntry : Table} {sink : σ} {final : Progress σ}
    (h : sweepOnce analysis mask sweep stops onEntry sink = .ok final)
    : final.changed = (final.updates != 0) := by
  refine foldlM_keeps (fun progress : Progress σ => progress.changed = (progress.updates != 0))
    h rfl ?_
  intro progress kept stop _ next visited
  obtain ⟨held, _, afterRead⟩ := bind_eq_ok.mp visited
  obtain ⟨leaving, _, delivered⟩ := bind_eq_ok.mp afterRead
  refine foldlM_keeps (fun progress : Progress σ => progress.changed = (progress.updates != 0))
    delivered kept ?_
  intro progress kept target _ next step
  obtain ⟨held, merged, _, _, rfl⟩ := deliver_eq_ok.mp step
  split
  · exact kept
  · rfl

end Sweep

/-- The facts on entry when a run has ended, the work it took, and the sink. -/
structure Outcome (σ : Type) where
  onEntry : Table
  tally : Tally
  sink : σ

variable [Sink σ]

/-- Sweep until a sweep changes nothing. `done` is the work of the sweeps before. -/
def sweepAll (analysis : Analysis E) (mask : Mask) (stops : List Stop) (done : Tally)
    (onEntry : Table) (sink : σ)
    : Except Fault (Outcome σ) :=
  let sweep := done.sweeps + 1
  let sink := emit mask (.sweepStart sweep) sink
  match _ : sweepOnce analysis mask sweep stops onEntry sink with
  | .error fault => .error fault
  | .ok progress =>
      let tally : Tally := { sweeps := sweep, updates := done.updates + progress.updates }
      let sink := emit mask (.sweepEnd sweep progress.changed) progress.sink
      if _ : progress.changed then
        sweepAll analysis mask stops tally progress.onEntry sink
      else
        .ok { onEntry := progress.onEntry, tally, sink }
termination_by onEntry.room analysis.merge.join
decreasing_by
  have spent := room_sweepOnce analysis mask _ (by assumption)
  have counted := changed_sweepOnce analysis mask _ (by assumption)
  have changed : progress.changed = true := by assumption
  rw [changed, eq_comm, bne_iff_ne] at counted
  omega

/-- Solve an analysis from the facts that it holds on entry now. An analysis of no facts is
solved without a sweep and without an event.
-/
def solve (analysis : Analysis E) (mask : Mask) (sink : σ)
    : Except Fault (Analysis E × Tally × σ) := do
  if analysis.bits = 0 then
    return (analysis, { sweeps := 0, updates := 0 }, sink)
  else
    let sink := emit mask
      (.solveStart analysis.direction analysis.graph.nodeCount analysis.bits) sink
    let stops ← route analysis.graph analysis.direction
    let outcome ← sweepAll analysis mask stops { sweeps := 0, updates := 0 } analysis.onEntry sink
    let sink := emit mask (.solveEnd outcome.tally) outcome.sink
    return ({ analysis with onEntry := outcome.onEntry }, outcome.tally, sink)

end Dataflow.Analysis
