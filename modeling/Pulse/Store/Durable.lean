import Pulse.Store.Memory

/-!
# The store in a database

`DurableStore` keeps what `MemoryStore` keeps, in three tables that survive a restart.

* Times are columns of whole milliseconds, so they are cut to the millisecond.
* A heartbeat period must be positive.
* A metric is a real number or absent: a metric that is no number is absent, and zero has no sign.
* Samples are not limited in number.
* A closed store refuses everything.

The rows of the log are in the order of their insertion.  Queries order them by time and then by
insertion, but cleaning the log keeps the row of each server that was *inserted* last.
-/

set_option autoImplicit false

namespace Pulse

open Time (Instant)

/-- A row of the table of servers. -/
structure ServerRow where
  serverId : String
  address : String
  interval : Nat
  status : Status
  lastSeen : Option Int
  statusChangedAt : Option Int
deriving DecidableEq, Repr

/-- The record that a row holds. -/
def ServerRow.record (row : ServerRow) : ServerRecord :=
  ⟨row.serverId, row.address, row.interval, row.status, row.lastSeen.map Instant.ofMillis,
    row.statusChangedAt.map Instant.ofMillis⟩

/-- A row of the table of samples. -/
structure SampleRow where
  serverId : String
  timestamp : Int
  cpu : Option Float
  ram : Option Float
  disk : Option Float

/-- The sample that a row holds. -/
def SampleRow.sample (row : SampleRow) : Sample :=
  ⟨row.serverId, Instant.ofMillis row.timestamp, row.cpu, row.ram, row.disk⟩

/-- A row of the log. -/
structure TransitionRow where
  serverId : String
  source : Status
  target : Status
  time : Int
deriving DecidableEq, Repr

/-- The change that a row holds. -/
def TransitionRow.transition (row : TransitionRow) : Transition :=
  ⟨row.serverId, row.source, row.target, Instant.ofMillis row.time⟩

/-- A store whose contents are in a database file. -/
structure DurableStore where
  /-- Ascending by identifier. -/
  servers : List ServerRow
  /-- For each server ascending by time. -/
  samples : List SampleRow
  /-- In the order of insertion. -/
  transitions : List TransitionRow
  closed : Bool
deriving Inhabited

namespace DurableStore

/-- A fresh database. -/
def empty : DurableStore := ⟨[], [], [], false⟩

/-- What every query of a closed store fails with. -/
def closedReason : String := "attempted to acquire a connection on a closed pool"

/-- The result of a query, if the store is open. -/
def query {α : Type} (store : DurableStore) (result : Except StorageError (α × DurableStore)) :
    Except StorageError (α × DurableStore) :=
  if store.closed then .error (.queryFailed closedReason) else result

/-! ## Servers -/

/-- The row of a server. -/
def row? (store : DurableStore) (id : String) : Option ServerRow :=
  Ordered.get? ServerRow.serverId id store.servers

/-- The store with a row replaced or added. -/
def putRow (store : DurableStore) (row : ServerRow) : DurableStore :=
  { store with servers := Ordered.put ServerRow.serverId row store.servers }

/-- The store with a further row in its log. -/
def log (store : DurableStore) (row : TransitionRow) : DurableStore :=
  { store with transitions := store.transitions ++ [row] }

/-- Adds a server, or updates address and period of one that is known. -/
def register (store : DurableStore) (r : Registration) :
    Except StorageError (Unit × DurableStore) :=
  store.query <|
    if r.interval = 0 then
      .error (.queryFailed ("error returned from database: (code: 275) "
        ++ "CHECK constraint failed: interval_seconds > 0"))
    else
      .ok ((), store.putRow (match store.row? r.serverId with
        | some row => { row with address := r.address, interval := r.interval }
        | none => ⟨r.serverId, r.address, r.interval, .undefined, none, none⟩))

/-- The record of a server. -/
def get? (store : DurableStore) (id : String) : Option ServerRecord :=
  (store.row? id).map ServerRow.record

/-- The records of all servers. -/
def records (store : DurableStore) : List ServerRecord :=
  store.servers.map ServerRow.record

/-- Takes a heartbeat in.  The moment of a change is chosen before it is cut to the millisecond. -/
def heartbeat (store : DurableStore) (id : String) (time receivedAt : Instant) :
    Except StorageError (HeartbeatOutcome × DurableStore) :=
  store.query <|
    match store.row? id with
    | none => .error (.unknownServer id)
    | some row =>
      let seen := match row.lastSeen with
        | none => time.toMillis
        | some last => max last time.toMillis
      let row := { row with lastSeen := some seen }
      if row.status = .on then .ok (⟨row.status, row.record⟩, store.putRow row)
      else
        let changedAt := match row.statusChangedAt with
          | none => receivedAt.toMillis
          | some last => (max (Instant.ofMillis last) receivedAt).toMillis
        let after := { row with status := .on, statusChangedAt := some changedAt }
        .ok (⟨row.status, after.record⟩,
          (store.putRow after).log ⟨id, row.status, .on, changedAt⟩)

/-- Turns a server off if it is on and was not seen at `seenBefore` or later, and tells whether it
did. -/
def demote (store : DurableStore) (id : String) (seenBefore now : Instant) :
    Except StorageError (Bool × DurableStore) :=
  store.query <|
    match store.row? id with
    | none => .error (.unknownServer id)
    | some row =>
      if row.status = .on ∧ row.lastSeen.any (fun seen => seen < seenBefore.toMillis) then
        let after := { row with status := .off, statusChangedAt := some now.toMillis }
        .ok (true, (store.putRow after).log ⟨id, .on, .off, now.toMillis⟩)
      else .ok (false, store)

/-! ## Samples -/

/-- A metric as it is kept. -/
def storedMetric (x : Option Float) : Option Float :=
  x.bind fun x => if x.isNaN then none else if x == 0.0 then some 0.0 else some x

/-- The rows of a server. -/
def samplesOf (store : DurableStore) (id : String) : List SampleRow :=
  store.samples.filter fun row => row.serverId = id

/-- Adds a sample, or replaces the one of the same server and time. -/
def insertSample (store : DurableStore) (s : Sample) : DurableStore :=
  let row : SampleRow := ⟨s.serverId, s.timestamp.toMillis, storedMetric s.cpu, storedMetric s.ram,
    storedMetric s.disk⟩
  { store with
    samples := Ordered.put SampleRow.timestamp row (store.samplesOf s.serverId)
      ++ store.samples.filter fun other => other.serverId ≠ s.serverId }

/-- The first rows that a query finds.  A limit that is no signed integer of 64 bits wraps round to
a negative one, which stands for no limit. -/
def limited {α : Type} (limit : Nat) (rows : List α) : List α :=
  if limit < 9223372036854775808 then rows.take limit else rows

/-- The newest samples of a server, at most `limit` of them, oldest first. -/
def latestSamples (store : DurableStore) (id : String) (limit : Nat) : List Sample :=
  (limited limit (store.samplesOf id).reverse).reverse.map SampleRow.sample

/-- Removes the samples older than `before` and counts them. -/
def cleanupSamples (store : DurableStore) (before : Instant) : Nat × DurableStore :=
  let (old, kept) := store.samples.partition fun row => row.timestamp < before.toMillis
  (old.length, { store with samples := kept })

/-! ## Changes of status -/

/-- The rows that are not before `cutoff`, and of the others the one of each server that was
inserted last. -/
def retained (cutoff : Int) : List TransitionRow → List TransitionRow
  | [] => []
  | row :: rest =>
    let overtaken := rest.any fun other => other.serverId = row.serverId && other.time < cutoff
    if cutoff ≤ row.time || !overtaken then row :: retained cutoff rest
    else retained cutoff rest

/-- Removes the changes before `before`, except for the one of each server that was inserted last,
and counts them. -/
def cleanupTransitions (store : DurableStore) (before : Instant) : Nat × DurableStore :=
  let kept := retained before.toMillis store.transitions
  (store.transitions.length - kept.length, { store with transitions := kept })

/-- The changes from `start` up to but not including `stop`, by time and then in the order of the
log. -/
def transitionsBetween (store : DurableStore) (start stop : Instant) : List Transition :=
  let found := store.transitions.filter fun row =>
    start.toMillis ≤ row.time && row.time < stop.toMillis
  (Ordered.sortBy TransitionRow.time found).map TransitionRow.transition

/-- The last change of a server before `time`. -/
def lastTransition? (store : DurableStore) (id : String) (time : Instant) : Option Transition :=
  let found := store.transitions.filter fun row => row.serverId = id && row.time < time.toMillis
  (Ordered.sortBy TransitionRow.time found).getLast?.map TransitionRow.transition

/-! ## State of the store -/

/-- A closed store is out of order. -/
def health (store : DurableStore) : Health :=
  if store.closed then ⟨false, s!"health check failed: {closedReason}", []⟩
  else
    ⟨true, "SQLite status store operational",
      [("backend", "sqlite"), ("servers", Decimal.natText store.servers.length)]⟩

/-- The store when it is no longer used. -/
def close (store : DurableStore) : DurableStore :=
  { store with closed := true }

/-- The same database, opened again. -/
def reopen (store : DurableStore) : DurableStore :=
  { store with closed := false }

end DurableStore

end Pulse
