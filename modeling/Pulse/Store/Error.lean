/-!
# Errors of the store

What can go wrong in keeping the state.  Only one of these errors is about the data that a caller
brought, a server that is not registered; all others are about the store itself.
-/

set_option autoImplicit false

namespace Pulse

/-- Why a call of the store fails. -/
inductive StorageError where
  | connectionFailed (reason : String)
  | queryFailed (reason : String)
  | migrationFailed (reason : String)
  | invalidConfig (reason : String)
  | serialization (reason : String)
  | unknownServer (id : String)
  | io (reason : String)
  | unhealthy (reason : String)
deriving DecidableEq, Repr

namespace StorageError

/-- The error in words. -/
def message : StorageError → String
  | connectionFailed reason => s!"failed to connect to storage backend: {reason}"
  | queryFailed reason => s!"storage query failed: {reason}"
  | migrationFailed reason => s!"database migration failed: {reason}"
  | invalidConfig reason => s!"invalid storage configuration: {reason}"
  | serialization reason => s!"record serialization error: {reason}"
  | unknownServer id => s!"unknown server: {id}"
  | io reason => s!"I/O error: {reason}"
  | unhealthy reason => s!"storage backend unhealthy: {reason}"

/-- The error is about a server that is not registered. -/
def isUnknownServer : StorageError → Bool
  | unknownServer _ => true
  | _ => false

end StorageError

end Pulse
