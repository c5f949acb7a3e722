import Pulse.Api.Error

/-!
# Responses

What a client gets back: a status code, headers and a body.
-/

set_option autoImplicit false

namespace Pulse.Api

/-- The body of a response. -/
inductive Body where
  | empty
  | text (s : String)
  | document (v : Json.Value)

/-- What a client gets back. -/
structure Response where
  status : Nat
  headers : List (String × String) := []
  body : Body := .empty

namespace Response

/-- A document. -/
def ofDocument (status : Nat) (v : Json.Value) : Response :=
  ⟨status, [("content-type", "application/json")], .document v⟩

/-- A text for people. -/
def ofText (status : Nat) (s : String) : Response :=
  ⟨status, [("content-type", "text/plain; charset=utf-8")], .text s⟩

/-- An error. -/
def ofError (error : ApiError) : Response :=
  ofDocument error.status error.body

/-- The response with a further header. -/
def withHeader (response : Response) (name value : String) : Response :=
  { response with headers := response.headers ++ [(name, value)] }

/-- The response without its body. -/
def withoutBody (response : Response) : Response :=
  { response with body := .empty }

end Response

end Pulse.Api
