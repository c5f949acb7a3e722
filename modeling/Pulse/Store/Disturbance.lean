import Pulse.Store

/-!
# Disturbed stores

For drills, a store can be made slow and unreliable: a `Disturbance` says how long requests of each
kind take, which kinds fail, for which servers turning off fails, and whether the store claims to be
out of order.
-/

set_option autoImplicit false

namespace Pulse

/-- What is wrong with a store. -/
structure Disturbance where
  /-- The names of the kinds of requests that fail. -/
  failing : List String := []
  /-- The servers that cannot be turned off. -/
  failingDemotions : List String := []
  /-- The milliseconds that requests take, by the names of their kinds. -/
  delays : List (String × Nat) := []
  unhealthy : Bool := false

namespace Disturbance

/-- The milliseconds that a request takes. -/
def delay (d : Disturbance) (kind : Store.Kind) : Nat :=
  match d.delays.find? fun entry => entry.1 == kind.name with
  | some (_, ms) => ms
  | none => 0

/-- The error of a request that fails. -/
def failure? {form : Store.Form} (d : Disturbance) (request : Store.Request form) :
    Option StorageError :=
  if d.failing.contains request.kind.name then
    some (.connectionFailed s!"{request.kind.name}: connection refused")
  else
    match request with
    | .demote id _ _ =>
      if d.failingDemotions.contains id then
        some (.connectionFailed s!"demote({id}): connection reset")
      else none
    | _ => none

/-- What a store that claims to be out of order says about itself. -/
def outOfOrder (h : Health) : Health :=
  { h with healthy := false, message := "store is unhealthy" }

/-- The answer to a request, once its time has passed. -/
def run {form : Store.Form} (d : Disturbance) (request : Store.Request form) (store : Store) :
    Except StorageError (form.Answer × Store) :=
  match d.failure? request with
  | some error => .error error
  | none =>
    match request with
    | .health => do
      let (h, store) ← store.run .health
      return (if d.unhealthy then outOfOrder h else h, store)
    | request => store.run request

end Disturbance

end Pulse
