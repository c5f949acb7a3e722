import Pulse.Bus.Error
import Pulse.Json.Value
import Pulse.Store.Error

/-!
# Errors of the interface

How errors look to a client: a status code and a document `{"error": …}`.
-/

set_option autoImplicit false

namespace Pulse

/-- Why a request of a client fails. -/
inductive ApiError where
  | storage (message : String)
  | invalidRequest (message : String)
  | notFound (message : String)
  /-- The bus does not take the event now. -/
  | unavailable (message : String)
deriving DecidableEq, Repr

namespace ApiError

/-- The status code. -/
def status : ApiError → Nat
  | storage _ => 500
  | invalidRequest _ => 400
  | notFound _ => 404
  | unavailable _ => 503

/-- The error in words. -/
def message : ApiError → String
  | storage message | invalidRequest message | notFound message | unavailable message => message

/-- The document that tells the client. -/
def body (error : ApiError) : Json.Value :=
  .object [("error", .text error.message)]

/-- An error of the store, as a client sees it. -/
def ofStorage (error : StorageError) : ApiError :=
  storage error.message

/-- An error of the bus, as a client sees it. -/
def ofBus (error : BusError) : ApiError :=
  if error.rejectsPayload then invalidRequest error.message else unavailable error.message

end ApiError

end Pulse
