import Pulse.Decimal.Layout
import Pulse.Ordered
import Pulse.Server
import Pulse.Store.Error

/-!
# The store in memory

`MemoryStore` keeps the records of the registered servers, a series of samples for each server, and
the log of all changes of status in the order in which they happened.

* Records and samples are kept in the order of their keys, so that equal contents are equal stores.
* A series holds at most `seriesLimit` samples; the oldest give way.
* Cleaning the log up to a moment keeps the last change of each server before it, because that
  change says which status was in force at that moment.
-/

set_option autoImplicit false

namespace Pulse

open Time (Instant)

/-- The samples of a server, oldest first, one for each time. -/
structure Series where
  serverId : String
  samples : List Sample

/-- What a store says about itself. -/
structure Health where
  healthy : Bool
  message : String
  details : List (String × String)
deriving DecidableEq, Repr

/-- A store whose contents last as long as the program runs. -/
structure MemoryStore where
  /-- Ascending by identifier. -/
  records : List ServerRecord
  /-- Ascending by identifier. -/
  series : List Series
  /-- In the order of their happening. -/
  transitions : List Transition

namespace MemoryStore

/-- The store without servers. -/
def empty : MemoryStore := ⟨[], [], []⟩

/-! ## Servers -/

/-- The record of a server. -/
def get? (store : MemoryStore) (id : String) : Option ServerRecord :=
  Ordered.get? ServerRecord.serverId id store.records

/-- The store with a record replaced or added. -/
def putRecord (store : MemoryStore) (record : ServerRecord) : MemoryStore :=
  { store with records := Ordered.put ServerRecord.serverId record store.records }

/-- The store with a further change in its log. -/
def log (store : MemoryStore) (t : Transition) : MemoryStore :=
  { store with transitions := store.transitions ++ [t] }

/-- Adds a server, or updates address and period of one that is known. -/
def register (store : MemoryStore) (r : Registration) : MemoryStore :=
  store.putRecord (match store.get? r.serverId with
    | some record => record.refresh r
    | none => .new r)

/-- Takes a heartbeat in. -/
def heartbeat (store : MemoryStore) (id : String) (time receivedAt : Instant) :
    Except StorageError (HeartbeatOutcome × MemoryStore) :=
  match store.get? id with
  | none => .error (.unknownServer id)
  | some record =>
    let after := record.heartbeat time receivedAt
    let next := store.putRecord after
    if record.status = .on then .ok (⟨record.status, after⟩, next)
    else
      let changedAt := after.statusChangedAt.getD receivedAt
      .ok (⟨record.status, after⟩, next.log ⟨id, record.status, .on, changedAt⟩)

/-- Turns a server off if it is on and was not seen at `seenBefore` or later, and tells whether it
did. -/
def demote (store : MemoryStore) (id : String) (seenBefore now : Instant) :
    Except StorageError (Bool × MemoryStore) :=
  match store.get? id with
  | none => .error (.unknownServer id)
  | some record =>
    if record.isSilent seenBefore then
      .ok (true, (store.putRecord (record.demoted now)).log ⟨id, .on, .off, now⟩)
    else .ok (false, store)

/-! ## Samples -/

/-- The number of samples that a series holds. -/
def seriesLimit : Nat := 1000

/-- The samples of a server, oldest first. -/
def samplesOf (store : MemoryStore) (id : String) : List Sample :=
  match Ordered.get? Series.serverId id store.series with
  | some series => series.samples
  | none => []

/-- The last `n` items of a list. -/
def lastItems {α : Type} (n : Nat) (items : List α) : List α :=
  items.drop (items.length - n)

/-- Adds a sample, or replaces the one of the same server and time. -/
def insertSample (store : MemoryStore) (s : Sample) : MemoryStore :=
  let samples := Ordered.put Sample.timestamp s (store.samplesOf s.serverId)
  { store with
    series := Ordered.put Series.serverId ⟨s.serverId, lastItems seriesLimit samples⟩ store.series }

/-- The newest samples of a server, at most `limit` of them, oldest first. -/
def latestSamples (store : MemoryStore) (id : String) (limit : Nat) : List Sample :=
  lastItems limit (store.samplesOf id)

/-- The number of samples of all servers. -/
def sampleCount (store : MemoryStore) : Nat :=
  (store.series.map fun series => series.samples.length).foldr (· + ·) 0

/-- Removes the samples older than `before` and counts them. -/
def cleanupSamples (store : MemoryStore) (before : Instant) : Nat × MemoryStore :=
  let kept := { store with
    series := store.series.map fun series =>
      { series with samples := series.samples.filter fun s => before ≤ s.timestamp } }
  (store.sampleCount - kept.sampleCount, kept)

/-! ## Changes of status -/

/-- Where in the log the newest change of a server before a cutoff stands. -/
structure Place where
  serverId : String
  index : Nat
  time : Instant

/-- Takes a change and its index into account.  Of changes of one time the later in the log is the
newer. -/
def notePlace (cutoff : Instant) (places : List Place) : Transition × Nat → List Place
  | (t, index) =>
    if cutoff ≤ t.time then places
    else
      match Ordered.get? Place.serverId t.serverId places with
      | some kept =>
        if kept.time ≤ t.time then Ordered.put Place.serverId ⟨t.serverId, index, t.time⟩ places
        else places
      | none => Ordered.put Place.serverId ⟨t.serverId, index, t.time⟩ places

/-- The places of the newest changes before `cutoff`, one for each server that has such a change. -/
def newestPlaces (cutoff : Instant) (changes : List Transition) : List Place :=
  changes.zipIdx.foldl (notePlace cutoff) []

/-- The changes that are not before `cutoff`, and of the others the newest of each server. -/
def retained (cutoff : Instant) (changes : List Transition) : List Transition :=
  let places := newestPlaces cutoff changes
  (changes.zipIdx.filter fun (t, index) =>
    cutoff ≤ t.time || places.any fun place => place.index = index).map (·.1)

/-- Removes the changes before `before`, except for the newest of each server, and counts them. -/
def cleanupTransitions (store : MemoryStore) (before : Instant) : Nat × MemoryStore :=
  let kept := retained before store.transitions
  (store.transitions.length - kept.length, { store with transitions := kept })

/-- The changes from `start` up to but not including `stop`, by time and then in the order of the
log. -/
def transitionsBetween (store : MemoryStore) (start stop : Instant) : List Transition :=
  Ordered.sortBy Transition.time <|
    store.transitions.filter fun t => start ≤ t.time && t.time < stop

/-- The later of two changes; `u` if they are of the same time. -/
def laterChange (t : Option Transition) (u : Transition) : Option Transition :=
  match t with
  | some t => if u.time < t.time then some t else some u
  | none => some u

/-- The last change of a server before `time`. -/
def lastTransition? (store : MemoryStore) (id : String) (time : Instant) : Option Transition :=
  (store.transitions.filter fun t => t.serverId = id && t.time < time).foldl laterChange none

/-! ## State of the store -/

/-- A store in memory is always in order. -/
def health (store : MemoryStore) : Health :=
  ⟨true, "In-memory status store operational",
    [("backend", "memory"), ("servers", Decimal.natText store.records.length)]⟩

end MemoryStore

end Pulse
