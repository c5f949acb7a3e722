import Pulse.Config
import Pulse.Store

/-!
# Directories of databases

Where a program that keeps its state in a database finds it again: a `Directory` has databases under
the names of their files, and no directories below.  A database that is opened for the first time is
fresh.
-/

set_option autoImplicit false

namespace Pulse

/-- The databases of a directory. -/
structure Directory where
  databases : List (String × DurableStore) := []

namespace Directory

/-- One more segment of a path, after those in `above`, of which the innermost comes first.  There
is no way out of the directory. -/
def enter (above : List String) (segment : String) : Option (List String) :=
  if segment.isEmpty || segment = "." then some above
  else if segment = ".." then
    match above with
    | _ :: above => some above
    | [] => none
  else some (segment :: above)

/-- The name of the file that a path leads to, if it is a file of the directory itself. -/
def fileName? (path : String) : Option String :=
  match (path.splitOn "/").foldlM enter [] with
  | some [name] => some name
  | _ => none

/-- The database in a file, fresh if there was none. -/
def database (directory : Directory) (name : String) : DurableStore :=
  match directory.databases.find? fun d => d.1 = name with
  | some (_, store) => store.reopen
  | none => .empty

/-- The directory with a database in a file. -/
def put (directory : Directory) (name : String) (store : DurableStore) : Directory :=
  ⟨(name, store) :: directory.databases.filter fun d => d.1 ≠ name⟩

/-- What opening a file that cannot be there fails with. -/
def unopened : StorageError :=
  .connectionFailed "error returned from database: (code: 14) unable to open database file"

/-- Opens the store that the settings name. -/
def openStore (directory : Directory) : StorageSettings → Except StorageError (Store × Directory)
  | .volatile => .ok (.volatile, directory)
  | .database path _ =>
    match fileName? path with
    | some name =>
      let store := directory.database name
      .ok (.durable store, directory.put name store)
    | none => .error unopened

/-- The directory after a store that was opened in it has been used. -/
def keep (directory : Directory) : StorageSettings → Store → Directory
  | .database path _, .durable store =>
    match fileName? path with
    | some name => directory.put name store
    | none => directory
  | _, _ => directory

end Directory

end Pulse
