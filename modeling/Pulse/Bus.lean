import Pulse.Bus.Error
import Pulse.Bus.Message

/-!
# The bus

Named queues of messages.  A queue comes into being when it is first used, holds a limited number of
messages that were not received yet, and has at most one subscription at a time.

* A message is published in two steps: the queue is found, `Bus.reach`, and then the message is put
  into it, `Bus.send`.
* A subscription that is given up leaves its queue, with the messages in it, to the next one.
* Closing the bus drops the queues without subscription; a subscription that is alive then still
  receives what is in its queue, and then it ends.
-/

set_option autoImplicit false

namespace Pulse

/-- A queue. -/
structure Channel where
  queue : String
  /-- The messages that were not received yet, oldest first. -/
  pending : List Message
  /-- The number of the subscription, if there is one. -/
  subscriber : Option Nat
deriving DecidableEq, Repr

/-- Named queues of messages. -/
structure Bus where
  /-- The number of messages that a queue can hold. -/
  capacity : Nat
  channels : List Channel
  closed : Bool
  /-- The number of the next subscription. -/
  nextSubscription : Nat
deriving Repr

/-- What a subscription finds. -/
inductive Receipt where
  | message (message : Message)
  /-- There is no message yet. -/
  | nothing
  /-- There will be no further message. -/
  | finished
deriving DecidableEq, Repr

namespace Bus

/-- A bus without queues.  Queues hold at least one message. -/
def new (capacity : Nat) : Bus := ⟨max capacity 1, [], false, 0⟩

/-- The greatest number of messages for which a machine can make a queue. -/
def maxCapacity : Nat := 2305843009213693951

/-- Making a queue is beyond the machine.  A closed bus makes none. -/
def overtaxes (bus : Bus) : Bool :=
  !bus.closed && maxCapacity < bus.capacity

/-- The queue of a given name. -/
def channel? (bus : Bus) (queue : String) : Option Channel :=
  bus.channels.find? fun c => c.queue = queue

/-- The bus with every queue of a name replaced. -/
def update (bus : Bus) (queue : String) (change : Channel → Channel) : Bus :=
  { bus with channels := bus.channels.map fun c => if c.queue = queue then change c else c }

/-- The bus with the queue in being, unless it is closed. -/
def reach (bus : Bus) (queue : String) : Except BusError Bus :=
  if bus.closed then .error .closed
  else
    match bus.channel? queue with
    | some _ => .ok bus
    | none => .ok { bus with channels := bus.channels ++ [⟨queue, [], none⟩] }

/-- Puts a message into its queue, if the queue is still there and not full. -/
def send (bus : Bus) (message : Message) : Except BusError Bus :=
  match bus.channel? message.queue with
  | none => .error .closed
  | some c =>
    if c.pending.length < bus.capacity then
      .ok (bus.update message.queue fun c => { c with pending := c.pending ++ [message] })
    else .error (.queueFull message.queue bus.capacity)

/-- Publishes a message to its queue. -/
def publish (bus : Bus) (message : Message) : Except BusError Bus := do
  (← bus.reach message.queue).send message

/-- The number of messages in a queue. -/
def pending (bus : Bus) (queue : String) : Nat :=
  if bus.closed then 0
  else
    match bus.channel? queue with
    | some c => c.pending.length
    | none => 0

/-- A subscription to a queue that has none. -/
def subscribe (bus : Bus) (queue : String) : Except BusError (Nat × Bus) := do
  let bus ← bus.reach queue
  match bus.channel? queue with
  | some ⟨_, _, none⟩ =>
    let number := bus.nextSubscription
    let held := bus.update queue fun c => { c with subscriber := some number }
    return (number, { held with nextSubscription := number + 1 })
  | _ => throw (.alreadySubscribed queue)

/-- Receives the oldest message of a subscription's queue. -/
def receive (bus : Bus) (subscription : Nat) : Receipt × Bus :=
  match bus.channels.find? fun c => c.subscriber = some subscription with
  | none => (.finished, bus)
  | some c =>
    match c.pending with
    | message :: rest => (.message message, bus.update c.queue fun c => { c with pending := rest })
    | [] => (if bus.closed then .finished else .nothing, bus)

/-- There is something for a subscription: a message, or the end. -/
def ready (bus : Bus) (subscription : Nat) : Bool :=
  (bus.receive subscription).1 ≠ .nothing

/-- Gives a subscription up. -/
def unsubscribe (bus : Bus) (subscription : Nat) : Bus :=
  if bus.closed then
    { bus with channels := bus.channels.filter fun c => c.subscriber ≠ some subscription }
  else
    { bus with channels := bus.channels.map fun c =>
        if c.subscriber = some subscription then { c with subscriber := none } else c }

/-- Closes the bus. -/
def close (bus : Bus) : Bus :=
  { bus with
    closed := true
    channels := bus.channels.filter fun c => c.subscriber.isSome }

end Bus

end Pulse
