import Dataflow.Trace.Event

/-! Sinks receive the events of a run. The mask given to a run decides which classes of events are
sent; the mask that a sink states for itself is only its wish.
-/

namespace Dataflow

/-- A receiver of events. Without further definition it wants no event and ignores all. -/
class Sink (σ : Type) where
  /-- The events that the sink asks for. -/
  mask : σ → Mask := fun _ => .none
  /-- Take one event in. -/
  receive : Event → σ → σ := fun _ sink => sink

/-- Send an event to a sink if the mask of the run selects it. -/
def emit {σ : Type} [Sink σ] (mask : Mask) (event : Event) (sink : σ) : σ :=
  if mask.selects event.eventClass then Sink.receive event sink else sink

/-- An event that the mask selects arrives. -/
theorem emit_of_selects {σ : Type} [Sink σ] {mask : Mask} {event : Event}
    (h : mask.selects event.eventClass = true) (sink : σ)
    : emit mask event sink = Sink.receive event sink :=
  if_pos h

/-- The empty mask lets no event through. -/
@[simp]
theorem emit_none {σ : Type} [Sink σ] (event : Event) (sink : σ)
    : emit .none event sink = sink := by
  cases event <;> rfl

/-- A sink that ignores all events. -/
inductive Silent where
  | silent
deriving DecidableEq, Repr

instance : Sink Silent where

/-- A sink that keeps every event it receives, in order of arrival. -/
structure EventLog where
  wanted : Mask
  events : Array Event
deriving DecidableEq, Repr

namespace EventLog

/-- A log without events that asks for those of a mask. -/
def empty (wanted : Mask) : EventLog :=
  { wanted, events := #[] }

instance : Sink EventLog where
  mask := wanted
  receive event log := { log with events := log.events.push event }

end EventLog

end Dataflow
