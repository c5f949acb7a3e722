import Pulse.Activity
import Pulse.Consumer
import Pulse.Monitor
import Pulse.Producer
import Pulse.Report
import Pulse.Scheduler
import Pulse.Store.Disturbance

/-!
# The system

All that the activities of the program share is a `System`: the store, the bus, the consumers, the
monitor, the scheduler and the reports that were delivered.  What runs in it is described by
`Process`.

This module has the steps from which the activities are made: reading the clock, which shows the
milliseconds since the system's first moment, and making requests to the store.
-/

set_option autoImplicit false

namespace Pulse

open Time (Instant Checked)

/-- What activities share. -/
structure System where
  /-- The moment at which the clock shows zero. -/
  origin : Instant
  store : Store
  disturbance : Disturbance := {}
  bus : Bus
  consumers : List Consumer := []
  monitor : Monitor
  scheduler : Scheduler
  /-- Everything that is linked is to stop. -/
  cancelled : Bool := false
  delivered : List DailyReport := []
  /-- The status code with which the receiver of reports refuses them. -/
  refusal : Option Nat := none
  /-- The outcomes of passes and requests in the background, by their numbers. -/
  background : List (Nat × Except MonitorError PassOutcome) := []

/-- What runs in a system. -/
inductive Process where
  /-- A consumer, known by its subscription. -/
  | consumer (subscription : Nat)
  /-- A loop of the monitor when it starts; it is known by its number. -/
  | monitor (n : Nat)
  /-- A loop of the monitor, and when it ticks next. -/
  | monitorLoop (n : Nat) (due : Option Nat)
  /-- The driver of a task when it starts; shift and task are known by their places. -/
  | driver (shift task : Nat)
  /-- The driver of a task, waiting for a fire. -/
  | driverLoop (shift task : Nat) (due : Instant)
  /-- A run of a task. -/
  | run (shift task : Nat)
  /-- A pass in the background. -/
  | pass (number : Nat)
  /-- A request to the monitor in the background. -/
  | check (number : Nat)
deriving DecidableEq

/-- What the program does. -/
abbrev Action : Type → Type := Activity System Process

namespace Action

/-- The clock and the state. -/
def state : Action System := Activity.get

/-- The result of a computation with times, which must exist. -/
def checked {α : Type} : Checked α → Action α
  | .ok a => .done a
  | .error _ => .crash

/-- The present moment. -/
def now : Action Instant := do
  let t ← Activity.clock
  checked ((← state).origin.add (Time.Span.ofMillis t))

/-- Changes the scheduler. -/
def modifyScheduler (change : Scheduler → Scheduler) : Action Unit :=
  Activity.modify fun s => { s with scheduler := change s.scheduler }

/-- Changes the monitor. -/
def modifyMonitor (change : Monitor → Monitor) : Action Unit :=
  Activity.modify fun s => { s with monitor := change s.monitor }

/-- Changes a consumer. -/
def modifyConsumer (subscription : Nat) (change : Consumer → Consumer) : Action Unit :=
  Activity.modify fun s => { s with
    consumers := s.consumers.map fun c => if c.subscription = subscription then change c else c }

/-! ## Requests to the store -/

/-- The answer to a request, once its time has passed. -/
def answer {form : Store.Form} (request : Store.Request form) :
    Action (Except StorageError form.Answer) :=
  Activity.look fun _ s =>
    match s.disturbance.run request s.store with
    | .error e => .done (.error e)
    | .ok (a, store) => .put { s with store } (.done (.ok a))

/-- Makes a request to the store. -/
def ask {form : Store.Form} (request : Store.Request form) :
    Action (Except StorageError form.Answer) := do
  let delay := (← state).disturbance.delay request.kind
  if 0 < delay then Activity.sleep delay
  answer request

/-! ## The bus -/

/-- Uses queues of the bus, which are made on their first use.  The program crashes when it makes a
queue that is too large for the machine. -/
def useQueues {α : Type} (use : Bus → α × Bus) : Action α :=
  Activity.look fun _ s =>
    if s.bus.overtaxes then .crash
    else
      let (a, bus) := use s.bus
      .put { s with bus } (.done a)

/-- Publishes a message. -/
def publishMessage (message : Message) : Action (Except BusError Unit) :=
  useQueues fun bus =>
    match bus.publish message with
    | .error e => (.error e, bus)
    | .ok bus => (.ok (), bus)

/-- Publishes an event. -/
def publish (producer : Producer) (event : Event) : Action (Except BusError Unit) :=
  match event.refusal? with
  | some reason => return .error (.invalidEvent reason)
  | none => useQueues fun bus => producer.publish bus event

/-- Subscribes to a queue. -/
def subscribe (queue : String) : Action (Except BusError Nat) :=
  useQueues fun bus =>
    match bus.subscribe queue with
    | .error e => (.error e, bus)
    | .ok (subscription, bus) => (.ok subscription, bus)

end Action

/-- The consumer of a given subscription. -/
def System.consumer? (s : System) (subscription : Nat) : Option Consumer :=
  s.consumers.find? fun c => c.subscription = subscription

end Pulse
