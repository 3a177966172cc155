import Dataflow.Analysis.Basic
import Dataflow.Trace.Sink

/-! Edges that leave scopes end the facts of those scopes at their source. One pass goes through
the edges in order and widens the scope-end kills of each source by those of the elements whose
scope the edge leaves. It reads the kills as the pass has left them so far.
-/

namespace Dataflow.Analysis

variable {E σ : Type} [Ord E] [Sink σ]

/-- Scope-end kills under way in a pass, and the sink that hears of their growth. -/
structure Widening (σ : Type) where
  kills : Table
  sink : σ

/-- Add the scope-end kills of one node to a row, and note whether it grows. -/
def gatherAt (kills : Table) (gathered : Row × Bool) (node : Node) : Except Fault (Row × Bool) := do
  let outcome ← Join.union.update gathered.1 (← kills.row node)
  return (outcome.1, gathered.2 || outcome.2)

/-- The scope-end kills of several nodes, added to a row, and whether any of them made it grow. -/
def gatherKills (kills : Table) (nodes : List Node) (row : Row) : Except Fault (Row × Bool) :=
  nodes.foldlM (gatherAt kills) (row, false)

/-- The note is exact: kills have been added exactly if the row has changed, since a union that
changes a row spends room, which no later union gives back.
-/
theorem changed_gatherKills {kills : Table} {nodes : List Node} {row : Row}
    {gathered : Row × Bool} (h : gatherKills kills nodes row = .ok gathered)
    : gathered.2 = (gathered.1 != row) := by
  have spent : (gathered.2 = false → gathered.1 = row)
      ∧ Join.union.roomOf gathered.1 + gathered.2.toNat ≤ Join.union.roomOf row := by
    refine foldlM_keeps
      (fun state : Row × Bool => (state.2 = false → state.1 = row)
        ∧ Join.union.roomOf state.1 + state.2.toNat ≤ Join.union.roomOf row)
      h ⟨fun _ => rfl, Nat.le_refl _⟩ ?_
    rintro state ⟨unchanged, within⟩ node _ next gathers
    obtain ⟨added, _, afterRead⟩ := bind_eq_ok.mp gathers
    obtain ⟨⟨joined, grown⟩, updated, result⟩ := bind_eq_ok.mp afterRead
    obtain ⟨union, rfl⟩ := Join.update_eq_ok.mp updated
    cases result
    by_cases same : joined = state.1
    · simpa [same] using ⟨unchanged, within⟩
    · have less := Join.roomOf_lt_of_rows union same
      refine ⟨fun none => ?_, ?_⟩
      · simp [same] at none
      · have flag := Bool.toNat_le (state.2 || joined != state.1)
        simp only
        omega
  by_cases same : gathered.1 = row
  · have within := spent.2
    rw [same] at within
    have none : gathered.2.toNat = 0 := by omega
    simpa [same] using none
  · rw [bne_iff_ne.mpr same]
    exact Bool.of_not_eq_false fun none => same (spent.1 none)

/-- Widen the kills at the source of one edge. -/
def widenAt (index : ElementIndex E) (mask : Mask) (state : Widening σ) (edge : Edge E)
    : Except Fault (Widening σ) := do
  let held ← state.kills.row edge.source
  let gathered ← gatherKills state.kills (edge.exits.flatMap index.nodes) held
  if gathered.2 then
    return {
      kills := state.kills.setRow edge.source gathered.1,
      sink := emit mask (.flowExitWidened edge.source gathered.1) state.sink
    }
  else
    return state

/-- Kill at the source of every edge what ends in the scopes that the edge leaves. -/
def addFlowExitKills (analysis : Analysis E) (mask : Mask) (sink : σ)
    : Except Fault (Analysis E × σ) := do
  if analysis.bits = 0 then
    return (analysis, sink)
  else
    let final ← analysis.graph.edges.foldlM (widenAt analysis.graph.index mask)
      { kills := analysis.scopeEndKills, sink }
    return ({ analysis with scopeEndKills := final.kills }, final.sink)

end Dataflow.Analysis
