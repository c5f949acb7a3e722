import Pulse.Bus
import Pulse.Handler

/-!
# Consumers

A consumer receives the messages of one queue and gives each to the handler for its type.  Whatever
comes of a message, it is counted and the next one follows: a message is `dropped` if no handler
knows its type or its payload is no event, and otherwise the handler has processed it, failed, or
taken too long.
-/

set_option autoImplicit false

namespace Pulse

/-- What came of a message. -/
inductive Handling where
  | processed
  | failed
  | dropped
  | timedOut
deriving DecidableEq, Repr

/-- How many messages came to which end. -/
structure ConsumerStats where
  processed : Nat := 0
  failed : Nat := 0
  dropped : Nat := 0
  timedOut : Nat := 0
deriving DecidableEq, Repr

/-- Counts one more message. -/
def ConsumerStats.count (stats : ConsumerStats) : Handling → ConsumerStats
  | .processed => { stats with processed := stats.processed + 1 }
  | .failed => { stats with failed := stats.failed + 1 }
  | .dropped => { stats with dropped := stats.dropped + 1 }
  | .timedOut => { stats with timedOut := stats.timedOut + 1 }

/-- Why a consumer does not start. -/
inductive ConsumerError where
  | duplicateHandler (type : MessageType)
  | subscribe (error : BusError)
deriving DecidableEq, Repr

/-- The error in words. -/
def ConsumerError.message : ConsumerError → String
  | .duplicateHandler type => s!"a handler for '{type.name}' is already registered"
  | .subscribe error => s!"failed to subscribe: {error.message}"

/-- Handlers by the type of their messages. -/
abbrev Handlers : Type := List (MessageType × Handler)

namespace Handlers

/-- The handler for a type. -/
def handler? (handlers : Handlers) (type : MessageType) : Option Handler :=
  (handlers.find? fun h => h.1 = type).map (·.2)

/-- Adds handlers, one for a type. -/
def register (handlers : Handlers) : List (MessageType × Handler) → Except ConsumerError Handlers
  | [] => .ok handlers
  | (type, handler) :: rest =>
    match handlers.handler? type with
    | some _ => .error (.duplicateHandler type)
    | none => register (handlers ++ [(type, handler)]) rest

/-- The handler and the event of a message, unless it is dropped. -/
def dispatch? (handlers : Handlers) (message : Message) : Option (Handler × Event) :=
  match handlers.handler? message.type, message.decode with
  | some handler, .ok event => some (handler, event)
  | _, _ => none

end Handlers

/-- What came of a message whose handler was given up (`none`) or came to a result. -/
def Handling.ofResult : Option (Except HandlerError Unit) → Handling
  | none => .timedOut
  | some (.ok ()) => .processed
  | some (.error _) => .failed

/-- A consumer, known by the number of its subscription. -/
structure Consumer where
  subscription : Nat
  queue : String
  handlers : Handlers
  /-- The milliseconds that a handler may take. -/
  timeout : Nat
  /-- It was told to stop. -/
  stopping : Bool := false
  /-- It has come to its end. -/
  finished : Bool := false
  stats : ConsumerStats := {}

end Pulse
