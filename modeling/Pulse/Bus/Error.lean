import Pulse.Decimal.Layout
import Pulse.Event

/-!
# Errors of the bus

What publishers and subscribers are told at once.  A publisher is to blame for a payload that is
rejected; all other errors are about the state of the bus.
-/

set_option autoImplicit false

namespace Pulse

/-- Why the bus refuses. -/
inductive BusError where
  | closed
  | queueFull (queue : String) (capacity : Nat)
  | alreadySubscribed (queue : String)
  | encode (reason : String)
  | invalidEvent (reason : String)
deriving DecidableEq, Repr

namespace BusError

/-- The error in words. -/
def message : BusError → String
  | closed => "event bus is closed"
  | queueFull queue capacity =>
    s!"queue '{queue}' is full ({Decimal.natText capacity} pending messages)"
  | alreadySubscribed queue => s!"queue '{queue}' already has an active subscriber"
  | encode reason => s!"failed to encode event: {reason}"
  | invalidEvent reason => Event.refusalMessage reason

/-- The payload is to blame. -/
def rejectsPayload : BusError → Bool
  | encode _ | invalidEvent _ => true
  | _ => false

end BusError

end Pulse
