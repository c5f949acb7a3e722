import Pulse.System

/-!
# Consumers at work

A consumer waits until it is told to stop or there is a message, and in doubt it stops.  Once it has
a message it does not stop before something has come of it.
-/

set_option autoImplicit false

namespace Pulse.Action

/-- The milliseconds in so many seconds. -/
def millisOf (seconds : Nat) : Nat := seconds * 1000

/-- Gives a message to its handler. -/
def handleMessage (consumer : Consumer) (message : Message) : Action Handling := do
  match consumer.handlers.dispatch? message with
  | none => return .dropped
  | some (handler, event) =>
    let deadline := (← Activity.clock) + consumer.timeout
    return .ofResult (← Activity.within deadline (Handler.handle ask now handler event))

/-- A consumer is to stop. -/
def consumerStops (subscription : Nat) (s : System) : Bool :=
  s.cancelled || (s.consumer? subscription).any Consumer.stopping

/-- Receives one message and handles it. -/
def consume (subscription : Nat) : Action (Option Process) := do
  Activity.waitFor fun s => consumerStops subscription s || s.bus.ready subscription
  let s ← state
  if consumerStops subscription s then return none
  match s.consumer? subscription, s.bus.receive subscription with
  | some consumer, (.message message, bus) =>
    Activity.modify fun s => { s with bus }
    let handling ← handleMessage consumer message
    modifyConsumer subscription fun c => { c with stats := c.stats.count handling }
    return some (.consumer subscription)
  | _, _ => return none

/-- The state after the end of a consumer. -/
def endConsumer (subscription : Nat) (s : System) : System :=
  { s with
    bus := s.bus.unsubscribe subscription
    consumers := s.consumers.map fun c =>
      if c.subscription = subscription then { c with finished := true } else c }

/-- Starts a consumer. -/
def startConsumer (queue : String) (handlers : Handlers) (timeout : Nat) :
    Action (Except BusError Nat) := do
  match ← subscribe queue with
  | .error e => return .error e
  | .ok subscription =>
    Activity.modify fun s => { s with
      consumers := s.consumers ++ [{ subscription, queue, handlers, timeout }] }
    Activity.launch (.consumer subscription)
    return .ok subscription

/-- Tells a consumer to stop and waits for its end. -/
def stopConsumer (subscription : Nat) : Action ConsumerStats := do
  modifyConsumer subscription fun c => { c with stopping := true }
  Activity.waitFor fun s => (s.consumer? subscription).all Consumer.finished
  return ((← state).consumer? subscription).elim {} Consumer.stats

end Pulse.Action
