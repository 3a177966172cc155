import Dataflow.Proofs.Trace.Masking

/-! The changes that a run reports are the changes that it makes. Each of them comes from a visited
node along an edge and moves the row of its target strictly in the direction of the join. Writing
the reported rows, in order, into the table that the run starts from gives the table that it ends
with, so that no change goes unreported and none is reported with a row that is out of date.
-/

namespace Dataflow

-----------------------------------------------------------------------------------------
-- Rows that move in the direction of a join
-----------------------------------------------------------------------------------------

/-- Every fact of `lower` is in `upper`, and some fact of `upper` is not in `lower`. -/
def Row.StrictlyIncluded (lower upper : Row) : Prop :=
  (∀ bit, lower.testBit bit = true → upper.testBit bit = true)
  ∧ ∃ bit, upper.testBit bit = true ∧ lower.testBit bit = false

/-- A union moves a row to one with more facts, and a subtraction to one with fewer. -/
def Join.Moves : Join → Row → Row → Prop
  | union, held, row => held.StrictlyIncluded row
  | subtract, held, row => row.StrictlyIncluded held

/-- A join that changes a row moves it, since it can change a fact in one direction only. -/
theorem Join.moves_of_rows {join : Join} {held arriving merged : Row}
    (joined : join.rows held arriving = .ok merged) (changed : merged ≠ held)
    : join.Moves held merged := by
  obtain ⟨bit, moved⟩ := Row.exists_testBit_ne (Join.length_of_rows joined) changed
  have law := Join.testBit_of_rows joined
  rw [law bit] at moved
  cases join with
  | union =>
      refine ⟨fun other present => ?_, bit, ?_⟩
      · rw [law other, present]
        rfl
      · rw [law bit]
        cases here : held.testBit bit with
        | true => simp [here, Join.bit] at moved
        | false => simpa [here, Join.bit] using moved
  | subtract =>
      refine ⟨fun other kept => ?_, bit, ?_⟩
      · rw [law other] at kept
        exact (Bool.and_eq_true_iff.mp kept).1
      · rw [law bit]
        cases here : held.testBit bit with
        | false => simp [here, Join.bit] at moved
        | true => simpa [here, Join.bit] using moved

-----------------------------------------------------------------------------------------
-- Reading a table off the events
-----------------------------------------------------------------------------------------

/-- The facts on entry to a node that an event reports. -/
def Event.entryRow? (node : Node) : Event → Option Row
  | entryChanged _ _ target row => if target = node then some row else none
  | _ => none

/-- The row of a node by the latest of the events that reports one, or else by the table. -/
def latestRow (start : Table) (events : List Event) (node : Node) : Except Fault Row :=
  (events.reverse.findSome? (Event.entryRow? node)).elim (start.row node) .ok

/-- The table with the row that an event reports. -/
def Event.overwrite (table : Table) : Event → Table
  | entryChanged _ _ target row => table.setRow target row
  | _ => table

/-- The table with the rows that the events report, written in order. -/
def replay (start : Table) (events : List Event) : Table :=
  events.foldl Event.overwrite start

/-- The first event may be taken as part of the table that the others follow. -/
theorem latestRow_cons {start next : Table} {event : Event} {node : Node}
    (written : next.row node = (event.entryRow? node).elim (start.row node) .ok)
    (events : List Event)
    : latestRow start (event :: events) node = latestRow next events node := by
  simp only [latestRow, List.reverse_cons, List.findSome?_append, written]
  cases events.reverse.findSome? (Event.entryRow? node) with
  | some row => rfl
  | none =>
      cases here : event.entryRow? node with
      | some row => simp [here]
      | none => simp [here]

end Dataflow

namespace Dataflow.Analysis

variable {E : Type} [Ord E]

-----------------------------------------------------------------------------------------
-- Events that account for a change of tables
-----------------------------------------------------------------------------------------

/-- The events lead from one table to another: each that reports a change reports one along an edge
of the flow, whose row replaces that of its target and moves it, and the others change nothing.
-/
inductive Accounts (analysis : Analysis E) : Table → List Event → Table → Prop
  | nil (table : Table) : analysis.Accounts table [] table
  | change {table final : Table} {events : List Event} {source target : Node} {held row : Row}
    (sweep : Nat) (feeds : analysis.graph.Feeds analysis.direction source target)
    (found : table.row target = .ok held) (length : row.length = held.length)
    (moves : analysis.merge.join.Moves held row)
    (rest : analysis.Accounts (table.setRow target row) events final)
    : analysis.Accounts table (.entryChanged sweep source target row :: events) final
  | other {table final : Table} {events : List Event} {event : Event}
    (apart : event.eventClass ≠ .entry) (rest : analysis.Accounts table events final)
    : analysis.Accounts table (event :: events) final

namespace Accounts

variable {analysis : Analysis E} {first middle last : Table} {early late events : List Event}

theorem append (before : analysis.Accounts first early middle)
    (after : analysis.Accounts middle late last)
    : analysis.Accounts first (early ++ late) last := by
  induction before with
  | nil => exact after
  | change sweep feeds found length moves _ ih =>
      exact .change sweep feeds found length moves (ih after)
  | other apart _ ih => exact .other apart (ih after)

/-- Events in two parts lead to a table in between, by induction on the first part. -/
theorem split (whole : analysis.Accounts first (early ++ late) last)
    : ∃ between, analysis.Accounts first early between ∧ analysis.Accounts between late last := by
  induction early generalizing first with
  | nil => exact ⟨first, .nil first, whole⟩
  | cons event rest ih =>
      cases whole with
      | change sweep feeds found length moves further =>
          obtain ⟨between, before, after⟩ := ih further
          exact ⟨between, .change sweep feeds found length moves before, after⟩
      | other apart further =>
          obtain ⟨between, before, after⟩ := ih further
          exact ⟨between, .other apart before, after⟩

/-- Dropping events that report no change to facts on entry leads to the same table. -/
theorem filter (accounts : analysis.Accounts first events last) {keeps : Event → Bool}
    (entries : ∀ event, event.eventClass = .entry → keeps event = true)
    : analysis.Accounts first (events.filter keeps) last := by
  induction accounts with
  | nil table => exact .nil table
  | change sweep feeds found length moves _ ih =>
      rw [List.filter_cons_of_pos (entries _ rfl)]
      exact .change sweep feeds found length moves ih
  | @other _ _ _ event apart _ ih =>
      by_cases kept : keeps event = true
      · rw [List.filter_cons_of_pos kept]
        exact .other apart ih
      · rw [List.filter_cons_of_neg kept]
        exact ih

theorem replay_eq (accounts : analysis.Accounts first events last)
    : replay first events = last := by
  induction accounts with
  | nil => rfl
  | change _ _ _ _ _ _ ih => exact ih
  | @other _ _ _ event apart _ ih =>
      cases event with
      | entryChanged => exact absurd rfl apart
      | solveStart | sweepStart | sweepEnd | solveEnd | flowExitWidened => exact ih

/-- The table that events lead to has the row that the latest event gives a node, by induction on
the events: a change replaces the row of its target and no other.
-/
theorem latestRow_eq (accounts : analysis.Accounts first events last) (node : Node)
    : latestRow first events node = last.row node := by
  induction accounts with
  | nil => rfl
  | @change table _ _ _ target _ row _ _ found length _ _ ih =>
      refine (latestRow_cons ?_ _).trans ih
      by_cases here : target = node
      · subst here
        simp [Event.entryRow?, Table.row_setRow_self found length]
      · simp [Event.entryRow?, here, Table.row_setRow_of_ne found length (Ne.symm here)]
  | @other _ _ _ event apart _ ih =>
      refine (latestRow_cons ?_ _).trans ih
      cases event with
      | entryChanged => exact absurd rfl apart
      | solveStart | sweepStart | sweepEnd | solveEnd | flowExitWidened => rfl

end Accounts

-----------------------------------------------------------------------------------------
-- The full log of a run accounts for its result
-----------------------------------------------------------------------------------------

/-- The log has grown by events that lead from one table to the other. -/
def Accounted (analysis : Analysis E) (start : Table) (log : EventLog) (later : Table)
    (grown : EventLog)
    : Prop :=
  ∃ events, grown.events.toList = log.events.toList ++ events
    ∧ analysis.Accounts start events later

namespace Accounted

variable {analysis : Analysis E}

theorem refl (table : Table) (log : EventLog) : analysis.Accounted table log table log :=
  ⟨[], (List.append_nil _).symm, .nil table⟩

theorem trans {first middle last : Table} {before between after : EventLog}
    (early : analysis.Accounted first before middle between)
    (late : analysis.Accounted middle between last after)
    : analysis.Accounted first before last after := by
  obtain ⟨earlyEvents, earlyLog, earlyAccounts⟩ := early
  obtain ⟨lateEvents, lateLog, lateAccounts⟩ := late
  refine ⟨earlyEvents ++ lateEvents, ?_, earlyAccounts.append lateAccounts⟩
  rw [lateLog, earlyLog, List.append_assoc]

/-- An event that reports no change to facts on entry leaves the table alone. -/
theorem emit (event : Event) (apart : event.eventClass ≠ .entry) (table : Table) (log : EventLog)
    : analysis.Accounted table log table (emit .full event log) :=
  ⟨[event], EventLog.toList_emit (Mask.full_selects _) log, .other apart (.nil table)⟩

end Accounted

section Steps

variable {analysis : Analysis E} {sweep : Nat} {progress next : Progress EventLog}

/-- A delivery along an edge of the flow logs the one change that it makes, if it makes any. -/
theorem deliver_accounted {source target : Node} {leaving : Row}
    (feeds : analysis.graph.Feeds analysis.direction source target)
    (delivered : deliver analysis .full sweep source leaving progress target = .ok next)
    : analysis.Accounted progress.onEntry progress.sink next.onEntry next.sink := by
  obtain ⟨held, merged, found, joined, rfl⟩ := deliver_eq_ok.mp delivered
  split
  case isTrue => exact .refl _ _
  case isFalse changed =>
    exact ⟨_, EventLog.toList_emit (Mask.full_selects _) _,
      .change sweep feeds found (Join.length_of_rows joined) (Join.moves_of_rows joined changed)
        (.nil _)⟩

/-- A fold logs the changes that it makes if each of its steps does. -/
theorem foldlM_accounted {α : Type} {items : List α}
    {act : Progress EventLog → α → Except Fault (Progress EventLog)}
    (each : ∀ state, ∀ item ∈ items, ∀ after, act state item = .ok after
      → analysis.Accounted state.onEntry state.sink after.onEntry after.sink)
    (ran : items.foldlM act progress = .ok next)
    : analysis.Accounted progress.onEntry progress.sink next.onEntry next.sink :=
  foldlM_related
    (fun before after : Progress EventLog =>
      analysis.Accounted before.onEntry before.sink after.onEntry after.sink)
    (fun _ => .refl _ _) (fun _ _ _ => .trans) items progress next each ran

theorem visit_accounted {stop : Stop} (listed : stop ∈ stopsOf analysis.graph analysis.direction)
    (visited : visit analysis .full sweep progress stop = .ok next)
    : analysis.Accounted progress.onEntry progress.sink next.onEntry next.sink := by
  obtain ⟨held, _, afterRead⟩ := bind_eq_ok.mp visited
  obtain ⟨leaving, _, delivered⟩ := bind_eq_ok.mp afterRead
  refine foldlM_accounted ?_ delivered
  intro state target reached after step
  exact deliver_accounted (feeds_iff_stop.mpr ⟨stop, listed, rfl, reached⟩) step

theorem sweepOnce_accounted {onEntry : Table} {log : EventLog}
    (swept : sweepOnce analysis .full sweep (stopsOf analysis.graph analysis.direction) onEntry log
      = .ok next)
    : analysis.Accounted onEntry log next.onEntry next.sink :=
  foldlM_accounted (fun _ _ listed _ step => visit_accounted listed step) swept

/-- One turn of the loop logs the start of a sweep, what the sweep changes, and its end. -/
theorem turn_accounted {onEntry : Table} {log : EventLog} (changed : Bool)
    (swept : sweepOnce analysis .full sweep (stopsOf analysis.graph analysis.direction) onEntry
      (emit .full (.sweepStart sweep) log) = .ok next)
    : analysis.Accounted onEntry log next.onEntry
        (emit .full (.sweepEnd sweep changed) next.sink) :=
  ((Accounted.emit _ EventClass.noConfusion onEntry log).trans (sweepOnce_accounted swept)).trans
    (.emit _ EventClass.noConfusion next.onEntry next.sink)

/-- The loop logs every change that it makes, by induction on its turns. -/
theorem sweepAll_accounted {done : Tally} {onEntry : Table} {log : EventLog}
    {outcome : Outcome EventLog}
    (ended : sweepAll analysis .full (stopsOf analysis.graph analysis.direction) done onEntry log
      = .ok outcome)
    : analysis.Accounted onEntry log outcome.onEntry outcome.sink := by
  fun_induction sweepAll analysis .full (stopsOf analysis.graph analysis.direction) done onEntry log
    with
  | case1 done onEntry log sweep started fault failed => cases ended
  | case2 done onEntry log sweep started progress swept tally finished changed ih =>
      exact (turn_accounted _ swept).trans (ih ended)
  | case3 done onEntry log sweep started progress swept tally finished unchanged =>
      cases ended
      exact turn_accounted _ swept

end Steps

/-- The full log of a run leads from the facts on entry before the run to those after it. -/
theorem solve_accounts {analysis solved : Analysis E} (inRange : analysis.graph.InRange)
    (positive : 0 < analysis.bits) {tally : Tally} {wanted : Mask} {log : EventLog}
    (ran : analysis.solve .full (EventLog.empty wanted) = .ok (solved, tally, log))
    : analysis.Accounts analysis.onEntry log.events.toList solved.onEntry := by
  rw [solve, if_neg (Nat.ne_of_gt positive)] at ran
  obtain ⟨stops, routed, afterRoute⟩ := bind_eq_ok.mp ran
  obtain ⟨outcome, ended, last⟩ := bind_eq_ok.mp afterRoute
  cases (route_eq_ok inRange analysis.direction).symm.trans routed
  cases last
  obtain ⟨events, logged, accounts⟩ :=
    ((Accounted.emit _ EventClass.noConfusion analysis.onEntry (EventLog.empty wanted)).trans
      (sweepAll_accounted ended)).trans
      (.emit (.solveEnd outcome.tally) EventClass.noConfusion outcome.onEntry outcome.sink)
  rw [logged]
  exact accounts

/-- The changes that a run reports to any sink, under any mask that has them reported. Each comes
from a visited node along an edge of the flow; its row has more facts than the latest row of its
target under a union, and fewer under a subtraction. Writing the reported rows into the facts on
entry before the run, in order, gives those after it.
-/
theorem solve_replays {analysis : Analysis E} (full : analysis.Sized)
    (inRange : analysis.graph.InRange) (positive : 0 < analysis.bits) (mask : Mask)
    (entries : mask.selects .entry = true)
    : ∃ final tally events,
        (∀ (σ : Type) [Sink σ] (sink : σ),
          analysis.solve mask sink
            = .ok
              ({ analysis with onEntry := final }, tally,
                events.foldl (fun heard event => Sink.receive event heard) sink))
        ∧ (∀ before sweep source target row after,
            events = before ++ .entryChanged sweep source target row :: after
            → analysis.graph.Feeds analysis.direction source target
              ∧ ∃ held, latestRow analysis.onEntry before target = .ok held
                ∧ row.length = held.length
                ∧ analysis.merge.join.Moves held row)
        ∧ replay analysis.onEntry events = final := by
  obtain ⟨final, tally, log, _, ran, _⟩ :=
    solve_reaches full inRange positive .full (EventLog.empty mask)
  have accounts : analysis.Accounts analysis.onEntry
      (log.events.toList.filter fun event => mask.selects event.eventClass) final :=
    (solve_accounts inRange positive ran).filter fun event entry => entry ▸ entries
  refine ⟨final, tally, _, fun σ _ sink => solve_of_fullLog ran mask sink, ?_, accounts.replay_eq⟩
  intro before sweep source target row after parts
  rw [parts] at accounts
  obtain ⟨between, earlier, later⟩ := accounts.split
  cases later with
  | @change _ _ _ _ _ held _ _ feeds found length moves _ =>
      exact ⟨feeds, held, (earlier.latestRow_eq target).trans found, length, moves⟩
  | other apart _ => exact absurd rfl apart

theorem solve_replays_selfFeeding
    : (selfFeeding { join := .subtract, startsFull := true }).Sized
      ∧ (selfFeeding { join := .subtract, startsFull := true }).graph.InRange
      ∧ (Mask.only .entry).selects .entry = true
      ∧ ∃ final tally log,
          (selfFeeding { join := .subtract, startsFull := true }).solve (.only .entry)
              (EventLog.empty .none)
            = .ok
              ({ selfFeeding { join := .subtract, startsFull := true } with onEntry := final },
                tally, log)
          ∧ replay (selfFeeding { join := .subtract, startsFull := true }).onEntry
              log.events.toList
            = final := by
  refine ⟨selfFeeding_sized _, selfFeeding_inRange _, rfl, ?_⟩
  obtain ⟨final, tally, events, solves, _, replayed⟩ :=
    solve_replays (selfFeeding_sized { join := .subtract, startsFull := true })
      (selfFeeding_inRange _) (by decide) (.only .entry) rfl
  refine ⟨final, tally, _, solves EventLog (EventLog.empty .none), ?_⟩
  rw [EventLog.toList_foldl_receive]
  exact replayed

end Dataflow.Analysis
