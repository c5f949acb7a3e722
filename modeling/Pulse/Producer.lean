import Pulse.Bus

/-!
# Publishing events

An event becomes one or two messages with the same payload: one about its metrics, if it has any,
and one about its heartbeat.  The message about metrics goes first, so it stays on its queue if the
queue of heartbeats refuses the other.
-/

set_option autoImplicit false

namespace Pulse

/-- The queues on which events are published. -/
structure Producer where
  statusQueue : String
  metricsQueue : String
deriving DecidableEq, Repr

namespace Producer

/-- The messages of an event, in the order of their publication. -/
def messages (producer : Producer) (event : Event) : List Message :=
  let payload := event.encode
  let heartbeat : Message := ⟨producer.statusQueue, .heartbeat, payload⟩
  if event.hasMetrics then [⟨producer.metricsQueue, .metrics, payload⟩, heartbeat] else [heartbeat]

/-- Publishes messages up to the first that is refused. -/
def publishAll (bus : Bus) : List Message → Except BusError Unit × Bus
  | [] => (.ok (), bus)
  | message :: rest =>
    match bus.publish message with
    | .error e => (.error e, bus)
    | .ok bus => publishAll bus rest

/-- Publishes an event. -/
def publish (producer : Producer) (bus : Bus) (event : Event) : Except BusError Unit × Bus :=
  match event.refusal? with
  | some reason => (.error (.invalidEvent reason), bus)
  | none => publishAll bus (producer.messages event)

end Producer

end Pulse
