import Pulse.Api.Error
import Pulse.Api.MediaType
import Pulse.Event

/-!
# Requests

What a client sends, and the event in the body of a request.
-/

set_option autoImplicit false

namespace Pulse.Api

/-- What a client sends. -/
structure Request where
  method : String
  /-- The path, and perhaps a query behind it. -/
  target : String
  headers : List (String × String) := []
  body : List UInt8 := []
deriving DecidableEq, Repr

namespace Request

/-- The path without the query. -/
def path (request : Request) : String :=
  String.ofList (request.target.toList.takeWhile fun c => c ≠ '?' && c ≠ '#')

/-- The value of a header, of which the name may be in either case. -/
def header? (request : Request) (name : String) : Option String :=
  (request.headers.find? fun h => h.1.toLower = name).map (·.2)

/-- The client declares that the body is JSON. -/
def declaresJson (request : Request) : Bool :=
  ((request.header? "content-type").bind MediaType.parse?).any MediaType.isJson

/-- How a client is told why its body is no event. -/
def faultMessage : Json.Fault → String
  | .malformed | .truncated => "Failed to parse the request body as JSON"
  | .mismatch path cause =>
    let place := Json.pathText path
    "Failed to deserialize the JSON body into the target type: "
      ++ (if place.isEmpty then "" else place ++ ": ") ++ cause.message

/-- The number of bytes that a body may have. -/
def bodyLimit : Nat := 2097152

/-- The event in the body.  What follows it in the body does not matter, as long as the body is not
too long. -/
def event (request : Request) : Except ApiError Event :=
  if request.declaresJson then
    if request.body.length ≤ bodyLimit then
      match Json.decodeFirst Event.decoder request.body with
      | .ok event => .ok event
      | .error fault => .error (.invalidRequest (faultMessage fault))
    else .error (.invalidRequest "Failed to buffer the request body: length limit exceeded")
  else .error (.invalidRequest "Expected request with `Content-Type: application/json`")

end Request

end Pulse.Api
