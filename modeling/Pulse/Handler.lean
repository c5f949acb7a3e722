import Pulse.Event
import Pulse.Store

/-!
# Handlers

A handler applies an event to the store.  Both handlers take the event as a heartbeat, received when
they make the request to the store.  The one for metrics first insists on an event that may travel,
and it keeps the sample once the heartbeat has shown that the server is registered.  Applying an
event a second time changes nothing.
-/

set_option autoImplicit false

namespace Pulse

open Time (Instant)

/-- What is done with the event of a message. -/
inductive Handler where
  | status
  | metrics
deriving DecidableEq, Repr

/-- Why an event was not applied. -/
inductive HandlerError where
  | unknownServer (id : String)
  | invalidPayload (reason : String)
  | storage (error : StorageError)
deriving DecidableEq, Repr

namespace HandlerError

/-- The error in words. -/
def message : HandlerError → String
  | unknownServer id => s!"unknown server '{id}'"
  | invalidPayload reason => Event.refusalMessage reason
  | storage error => s!"storage error: {error.message}"

/-- The event is to blame, so applying it again would fail again. -/
def isDataError : HandlerError → Bool
  | unknownServer _ | invalidPayload _ => true
  | storage _ => false

/-- An error of the store, as a handler reports it. -/
def ofStorage : StorageError → HandlerError
  | .unknownServer id => unknownServer id
  | error => storage error

end HandlerError

section

variable {m : Type → Type} [Monad m]
  (ask : {form : Store.Form} → Store.Request form → m (Except StorageError form.Answer))
  (now : m Instant)

/-- Takes an event as a heartbeat. -/
def applyHeartbeat (event : Event) : m (Except HandlerError Unit) := do
  match ← ask (.heartbeat event.serverId event.timestamp (← now)) with
  | .error e => return .error (.ofStorage e)
  | .ok _ => return .ok ()

/-- Takes an event as a heartbeat and keeps its metrics. -/
def applyMetrics (event : Event) : m (Except HandlerError Unit) := do
  match event.refusal? with
  | some reason => return .error (.invalidPayload reason)
  | none =>
    match ← applyHeartbeat ask now event with
    | .error e => return .error e
    | .ok () =>
      if event.hasMetrics then
        match ← ask (.insertSample event.sample) with
        | .error e => return .error (.ofStorage e)
        | .ok _ => return .ok ()
      else return .ok ()

/-- Applies an event, making requests to the store through `ask` and reading the time through
`now`. -/
def Handler.handle : Handler → Event → m (Except HandlerError Unit)
  | .status => applyHeartbeat ask now
  | .metrics => applyMetrics ask now

end

end Pulse
