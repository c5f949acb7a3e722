import Pulse.Api.Request
import Pulse.Api.Response
import Pulse.Text.Percent

/-!
# Routes

The paths that the interface knows, the method of each, and the answers that do not depend on what
is behind a path.

* A path is known only as it is written here: letters count, and so does every slash.
* A client that may `GET` something may also ask for the `HEAD` of it, the same without the body.
* If pages of other origins may use the interface, every response says so, and any request for the
  `OPTIONS` of a path is answered without looking at the path.
-/

set_option autoImplicit false

namespace Pulse.Api

/-- What a path leads to. -/
inductive Route where
  | health
  | servers
  /-- One server; its identifier is escaped. -/
  | serverStatus (escapedId : String)
  | events
  | tasks
  | scheduler
deriving DecidableEq, Repr

namespace Route

/-- What a path leads to, if it is known. -/
def ofPath? (path : String) : Option Route :=
  match path.splitOn "/" with
  | ["", "api", "v1", "health"] => some health
  | ["", "api", "v1", "servers"] => some servers
  | ["", "api", "v1", "servers", id, "status"] =>
    if id.isEmpty then none else some (serverStatus id)
  | ["", "api", "v1", "events"] => some events
  | ["", "api", "v1", "scheduler", "tasks"] => some tasks
  | ["", "api", "v1", "scheduler", "status"] => some scheduler
  | _ => none

/-- The methods with which a path can be used. -/
def methods : Route → List String
  | events => ["POST"]
  | _ => ["GET", "HEAD"]

/-- The header that lists the methods. -/
def allow (route : Route) : String :=
  ",".intercalate route.methods

end Route

namespace Response

/-- The path is not known. -/
def unknownPath : Response := ⟨404, [], .empty⟩

/-- The path cannot be used with this method. -/
def wrongMethod (route : Route) : Response := ⟨405, [("allow", route.allow)], .empty⟩

/-- The identifier in a path is no text. -/
def unreadableId : Response := ofText 400 "Invalid URL: Invalid UTF-8 in `id`"

/-- Pages of any origin may see the response. -/
def share (response : Response) : Response :=
  response.withHeader "access-control-allow-origin" "*"

/-- Pages of any origin may use the interface with any method and any headers. -/
def options (route : Option Route) : Response :=
  ⟨200, [("access-control-allow-origin", "*"), ("access-control-allow-methods", "*"),
    ("access-control-allow-headers", "*")]
      ++ (route.map fun r => ("allow", r.allow)).toList, .empty⟩

end Response

end Pulse.Api
