import Pulse.Decimal.Rounding
import Pulse.Time.Instant

/-!
# Monitored servers

What is known about a server: whether it is alive (`Status`), the newest heartbeat and the last
change of status (`ServerRecord`), the changes themselves (`Transition`) and snapshots of its load
(`Sample`).

A server is *stale* if its newest heartbeat is older than the liveness window, its heartbeat period
times a multiplier; a server that never reported is not stale.
-/

set_option autoImplicit false

namespace Pulse

open Time (Instant Span)

/-- Whether a server is alive; `undefined` until its first heartbeat. -/
inductive Status where
  | on
  | off
  | undefined
deriving DecidableEq, Repr

namespace Status

/-- The name of a status. -/
def name : Status → String
  | .on => "ON"
  | .off => "OFF"
  | .undefined => "UNDEFINED"

/-- All statuses, in the order in which messages list them. -/
def all : List Status := [.on, .off, .undefined]

/-- The status of a given name. -/
def ofName? (s : String) : Option Status :=
  all.find? fun status => status.name == s

/-- The status of a given name, or the message that there is none. -/
def parse (s : String) : Except String Status :=
  match ofName? s with
  | some status => .ok status
  | none => .error s!"unknown server status '{s}'"

end Status

/-- Identity and heartbeat period of a server, in seconds. -/
structure Registration where
  serverId : String
  address : String
  interval : Nat
deriving DecidableEq, Repr

/-- What is known about a registered server. -/
structure ServerRecord where
  serverId : String
  address : String
  /-- Heartbeat period in seconds. -/
  interval : Nat
  status : Status
  /-- The newest heartbeat. -/
  lastSeen : Option Instant
  /-- The last change of `status`. -/
  statusChangedAt : Option Instant
deriving DecidableEq

namespace ServerRecord

/-- A server that never reported. -/
def new (r : Registration) : ServerRecord :=
  ⟨r.serverId, r.address, r.interval, .undefined, none, none⟩

/-- The same server with a new address and period. -/
def refresh (record : ServerRecord) (r : Registration) : ServerRecord :=
  { record with address := r.address, interval := r.interval }

/-- The liveness window in milliseconds, at the nearest integer of 64 bits. -/
def windowMillis (record : ServerRecord) (grace : Float) : Int :=
  Decimal.toInteger (Float.ofScientific record.interval false 0 * grace * 1000.0)

/-- The liveness window.  The least integer of 64 bits is no number of milliseconds. -/
def window? (record : ServerRecord) (grace : Float) : Option Span :=
  let millis := record.windowMillis grace
  if millis = Decimal.integerMin then none else some (Span.ofMillis millis)

/-- The newest heartbeat is older than the window; `none` if the window does not exist. -/
def isStale? (record : ServerRecord) (now : Instant) (grace : Float) : Option Bool :=
  match record.lastSeen with
  | none => some false
  | some seen => (record.window? grace).map fun window => window < now.since seen

/-- The record after a heartbeat of a given time, which was received at `receivedAt`.  A heartbeat
turns the server on.  A change of status is never dated before the one it follows. -/
def heartbeat (record : ServerRecord) (time receivedAt : Instant) : ServerRecord :=
  let seen := match record.lastSeen with
    | none => time
    | some last => max last time
  if record.status = .on then { record with lastSeen := some seen }
  else
    let changedAt := match record.statusChangedAt with
      | none => receivedAt
      | some last => max last receivedAt
    { record with lastSeen := some seen, status := .on, statusChangedAt := some changedAt }

/-- The server is on and was not seen at `seenBefore` or later. -/
def isSilent (record : ServerRecord) (seenBefore : Instant) : Bool :=
  record.status = .on && record.lastSeen.any fun seen => seen < seenBefore

/-- The record of a server that was turned off. -/
def demoted (record : ServerRecord) (now : Instant) : ServerRecord :=
  { record with status := .off, statusChangedAt := some now }

end ServerRecord

/-- A change of status. -/
structure Transition where
  serverId : String
  source : Status
  target : Status
  time : Instant
deriving DecidableEq

/-- A snapshot of the load of a server. -/
structure Sample where
  serverId : String
  timestamp : Instant
  cpu : Option Float
  ram : Option Float
  disk : Option Float

/-- What a heartbeat did to a record. -/
structure HeartbeatOutcome where
  previous : Status
  record : ServerRecord
deriving DecidableEq

/-- The heartbeat changed the status. -/
def HeartbeatOutcome.changed (outcome : HeartbeatOutcome) : Bool :=
  outcome.previous ≠ outcome.record.status

end Pulse
