import Pulse.Event

/-!
# Messages

A message is bytes with a declared type, addressed to a queue.  The type says which handler the
message is for, not what the bytes are; `Message.decode` finds out whether they are an event.
-/

set_option autoImplicit false

namespace Pulse

/-- What a message is about. -/
inductive MessageType where
  | heartbeat
  | metrics
deriving DecidableEq, Repr

namespace MessageType

/-- The name of a type. -/
def name : MessageType → String
  | .heartbeat => "heartbeat_event"
  | .metrics => "metrics_event"

/-- All types, in the order in which messages list them. -/
def all : List MessageType := [.heartbeat, .metrics]

/-- The type of a given name. -/
def ofName? (s : String) : Option MessageType :=
  all.find? fun type => type.name == s

/-- The type of a given name, or the message that there is none. -/
def parse (s : String) : Except String MessageType :=
  match ofName? s with
  | some type => .ok type
  | none => .error s!"unknown message type '{s}'"

end MessageType

/-- Bytes on their way through a queue. -/
structure Message where
  queue : String
  type : MessageType
  payload : List UInt8
deriving DecidableEq, Repr

/-- The event that the message carries. -/
def Message.decode (message : Message) : Except Json.Fault Event :=
  Event.decode message.payload

end Pulse
