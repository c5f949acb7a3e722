import Pulse.Api.Document
import Pulse.Api.Route
import Pulse.System

/-!
# The interface at work

A request about servers is a request to the store, a request about tasks shows the scheduler, and an
event goes to the bus: nothing here changes the store.
-/

set_option autoImplicit false

namespace Pulse.Action

open Api (Request Response Route)

/-- The answer to what a path leads to. -/
def respondTo (producer : Producer) (request : Request) : Route → Action Response
  | .health => return .ofDocument 200 (healthToJson (← ask .health))
  | .servers => do
    match ← ask .list with
    | .error e => return .ofError (.ofStorage e)
    | .ok records =>
      return .ofDocument 200 (serversToJson (Ordered.sortBy ServerRecord.serverId records))
  | .serverStatus escapedId => do
    match Text.Percent.decode? escapedId with
    | none => return .unreadableId
    | some id =>
      match ← ask (.get id) with
      | .error e => return .ofError (.ofStorage e)
      | .ok none => return .ofError (.notFound s!"server '{id}' is not registered")
      | .ok (some record) => return .ofDocument 200 record.statusToJson
  | .events => do
    match request.event with
    | .error e => return .ofError e
    | .ok event =>
      match ← publish producer event with
      | .error e => return .ofError (.ofBus e)
      | .ok () => return .ofDocument 202 event.acceptedToJson
  | .tasks => return .ofDocument 200 (← state).scheduler.tasksToJson
  | .scheduler => return .ofDocument 200 (← state).scheduler.toJson

/-- The answer to a request, if pages of other origins are left aside. -/
def respondPlainly (producer : Producer) (request : Request) : Action Response := do
  match Route.ofPath? request.path with
  | none => return .unknownPath
  | some route =>
    if route.methods.contains request.method then
      let response ← respondTo producer request route
      return if request.method = "HEAD" then response.withoutBody else response
    else return .wrongMethod route

/-- The answer to a request; `shared` says whether pages of other origins may use the interface. -/
def respond (shared : Bool) (producer : Producer) (request : Request) : Action Response := do
  if shared && request.method = "OPTIONS" then return .options (Route.ofPath? request.path)
  let response ← respondPlainly producer request
  return if shared then response.share else response

end Pulse.Action
