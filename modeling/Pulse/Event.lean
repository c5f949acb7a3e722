import Pulse.Json.Decode
import Pulse.Server
import Pulse.Text.Blank
import Pulse.Time.Text

/-!
# Monitoring events

A server reports with an `Event`: a heartbeat that may carry metrics.  Events travel as JSON objects
`{"server_id", "timestamp", "cpu", "ram", "disk"}` without the metrics that are absent; `validate`
is what an event has to pass before it travels.
-/

set_option autoImplicit false

namespace Pulse

open Time (Instant)

/-- A report of a server. -/
structure Event where
  serverId : String
  timestamp : Instant
  cpu : Option Float
  ram : Option Float
  disk : Option Float

namespace Event

/-- The metrics with their names. -/
def metrics (e : Event) : List (String × Option Float) :=
  [("cpu", e.cpu), ("ram", e.ram), ("disk", e.disk)]

/-- The event carries a metric. -/
def hasMetrics (e : Event) : Bool :=
  e.metrics.any fun m => m.2.isSome

/-- The snapshot that the event carries. -/
def sample (e : Event) : Sample :=
  ⟨e.serverId, e.timestamp, e.cpu, e.ram, e.disk⟩

/-- A metric is a finite number that is not negative. -/
def acceptsMetric (x : Float) : Bool :=
  x.isFinite && !(x < 0.0)

/-- The first metric that is refused, in words. -/
def refusedMetric? : List (String × Option Float) → Option String
  | [] => none
  | (name, some x) :: rest =>
    if acceptsMetric x then refusedMetric? rest
    else some s!"{name} must be a non-negative number, got {Decimal.plainText x}"
  | (_, none) :: rest => refusedMetric? rest

/-- The reason for which an event is refused. -/
def refusal? (e : Event) : Option String :=
  if Text.isBlankText e.serverId then some "server_id must not be empty"
  else refusedMetric? e.metrics

/-- An error about a refused event. -/
def refusalMessage (reason : String) : String :=
  s!"invalid monitoring event: {reason}"

/-! ## On the wire -/

/-- The event as a document. -/
def toJson (e : Event) : Json.Value :=
  .object ([("server_id", .text e.serverId), ("timestamp", .text e.timestamp.text)]
    ++ e.metrics.filterMap fun (name, x) => x.map fun x => (name, .float x))

/-- The written event. -/
def text (e : Event) : String :=
  e.toJson.compact

/-- The event as the payload of a message. -/
def encode (e : Event) : List UInt8 :=
  Text.Utf8.encode e.text

/-- The fields of an event. -/
def fields : Json.Record Event :=
  Event.mk <$> .field "server_id" Json.text <*> .field "timestamp" Json.instant
    <*> .optionalField "cpu" Json.real <*> .optionalField "ram" Json.real
    <*> .optionalField "disk" Json.real

/-- Reads an event. -/
def decoder : Json.Decoder Event :=
  fields.decoder "struct MonitoringEvent"

/-- The event that a payload holds. -/
def decode (payload : List UInt8) : Except Json.Fault Event :=
  Json.decodeAll decoder payload

end Event

end Pulse
