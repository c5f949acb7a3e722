import Pulse.Store.Durable

/-!
# Stores

A store is in memory or in a database.  All that can be asked of a store is a `Request`, whose type
says of which form the answer is; `Store.run` answers it.
-/

set_option autoImplicit false

namespace Pulse

open Time (Instant)

/-- Where the state is kept. -/
inductive Store where
  | memory (store : MemoryStore)
  | durable (store : DurableStore)

namespace Store

/-- A store without servers that lasts as long as the program runs. -/
def volatile : Store := .memory .empty

instance : Inhabited Store := ⟨volatile⟩

/-- The kinds of requests. -/
inductive Kind where
  | register
  | get
  | list
  | heartbeat
  | demote
  | insertSample
  | latestSamples
  | cleanupSamples
  | cleanupTransitions
  | transitions
  | lastTransition
  | health
  | close
deriving DecidableEq, Repr

/-- The name of a kind. -/
def Kind.name : Kind → String
  | .register => "register"
  | .get => "get"
  | .list => "list"
  | .heartbeat => "heartbeat"
  | .demote => "demote"
  | .insertSample => "sample"
  | .latestSamples => "samples"
  | .cleanupSamples => "cleanup_samples"
  | .cleanupTransitions => "cleanup_transitions"
  | .transitions => "transitions"
  | .lastTransition => "last_transition"
  | .health => "health"
  | .close => "close"

/-- The forms of answers. -/
inductive Form where
  | done
  | found
  | records
  | outcome
  | flag
  | samples
  | count
  | transitions
  | transition
  | health
deriving DecidableEq, Repr

/-- The answers of a form. -/
abbrev Form.Answer : Form → Type
  | .done => Unit
  | .found => Option ServerRecord
  | .records => List ServerRecord
  | .outcome => HeartbeatOutcome
  | .flag => Bool
  | .samples => List Sample
  | .count => Nat
  | .transitions => List Transition
  | .transition => Option Transition
  | .health => Health

/-- Something that a store is asked, with an answer of a given form. -/
inductive Request : Form → Type where
  | register (r : Registration) : Request .done
  | get (id : String) : Request .found
  | list : Request .records
  | heartbeat (id : String) (time receivedAt : Instant) : Request .outcome
  | demote (id : String) (seenBefore now : Instant) : Request .flag
  | insertSample (s : Sample) : Request .done
  | latestSamples (id : String) (limit : Nat) : Request .samples
  | cleanupSamples (before : Instant) : Request .count
  | cleanupTransitions (before : Instant) : Request .count
  | transitions (start stop : Instant) : Request .transitions
  | lastTransition (id : String) (time : Instant) : Request .transition
  | health : Request .health
  | close : Request .done

/-- The kind of a request. -/
def Request.kind {form : Form} : Request form → Kind
  | .register _ => .register
  | .get _ => .get
  | .list => .list
  | .heartbeat _ _ _ => .heartbeat
  | .demote _ _ _ => .demote
  | .insertSample _ => .insertSample
  | .latestSamples _ _ => .latestSamples
  | .cleanupSamples _ => .cleanupSamples
  | .cleanupTransitions _ => .cleanupTransitions
  | .transitions _ _ => .transitions
  | .lastTransition _ _ => .lastTransition
  | .health => .health
  | .close => .close

end Store

/-- Answers a request. -/
def MemoryStore.run {form : Store.Form} (store : MemoryStore) :
    Store.Request form → Except StorageError (form.Answer × MemoryStore)
  | .register r => .ok ((), store.register r)
  | .get id => .ok (store.get? id, store)
  | .list => .ok (store.records, store)
  | .heartbeat id time receivedAt => store.heartbeat id time receivedAt
  | .demote id seenBefore now => store.demote id seenBefore now
  | .insertSample s => .ok ((), store.insertSample s)
  | .latestSamples id limit => .ok (store.latestSamples id limit, store)
  | .cleanupSamples before => .ok (store.cleanupSamples before)
  | .cleanupTransitions before => .ok (store.cleanupTransitions before)
  | .transitions start stop => .ok (store.transitionsBetween start stop, store)
  | .lastTransition id time => .ok (store.lastTransition? id time, store)
  | .health => .ok (store.health, store)
  | .close => .ok ((), store)

/-- Answers a request. -/
def DurableStore.run {form : Store.Form} (store : DurableStore) :
    Store.Request form → Except StorageError (form.Answer × DurableStore)
  | .register r => store.register r
  | .get id => store.query (.ok (store.get? id, store))
  | .list => store.query (.ok (store.records, store))
  | .heartbeat id time receivedAt => store.heartbeat id time receivedAt
  | .demote id seenBefore now => store.demote id seenBefore now
  | .insertSample s => store.query (.ok ((), store.insertSample s))
  | .latestSamples id limit => store.query (.ok (store.latestSamples id limit, store))
  | .cleanupSamples before => store.query (.ok (store.cleanupSamples before))
  | .cleanupTransitions before => store.query (.ok (store.cleanupTransitions before))
  | .transitions start stop => store.query (.ok (store.transitionsBetween start stop, store))
  | .lastTransition id time => store.query (.ok (store.lastTransition? id time, store))
  | .health => .ok (store.health, store)
  | .close => .ok ((), store.close)

namespace Store

/-- Answers a request. -/
def run {form : Form} (request : Request form) :
    Store → Except StorageError (form.Answer × Store)
  | .memory store => (store.run request).map fun (a, store) => (a, .memory store)
  | .durable store => (store.run request).map fun (a, store) => (a, .durable store)

/-- The store after a restart: only a database survives. -/
def reopen : Store → Store
  | .memory _ => .memory .empty
  | .durable store => .durable store.reopen

end Store

end Pulse
