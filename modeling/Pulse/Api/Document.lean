import Pulse.Event
import Pulse.Json.Value
import Pulse.Scheduler
import Pulse.Store

/-!
# Documents of the interface

How servers and tasks look to a client.
-/

set_option autoImplicit false

namespace Pulse

/-- A moment as a document. -/
def momentToJson (t : Time.Instant) : Json.Value :=
  .text t.text

/-- A server as a document. -/
def ServerRecord.toJson (r : ServerRecord) : Json.Value :=
  .object [("server_id", .text r.serverId), ("address", .text r.address),
    ("interval_seconds", .nat r.interval), ("status", .text r.status.name),
    ("last_seen", .option momentToJson r.lastSeen),
    ("status_changed_at", .option momentToJson r.statusChangedAt)]

/-- The status of a server as a document, in which times that are unknown are left out. -/
def ServerRecord.statusToJson (r : ServerRecord) : Json.Value :=
  let moment (name : String) (t : Option Time.Instant) :=
    (t.map fun t => (name, momentToJson t)).toList
  .object ([("server_id", .text r.serverId), ("status", .text r.status.name),
      ("interval_seconds", .nat r.interval)]
    ++ moment "last_seen" r.lastSeen ++ moment "status_changed_at" r.statusChangedAt)

/-- All servers as a document. -/
def serversToJson (records : List ServerRecord) : Json.Value :=
  .object [("servers", .array (records.map ServerRecord.toJson)), ("count", .nat records.length)]

/-- A task as a document. -/
def Task.toJson (t : Task) : Json.Value :=
  .object [("name", .text t.name), ("schedule", .text t.schedule.expression),
    ("last_run", .option momentToJson t.lastRun), ("next_run", .option momentToJson t.nextRun),
    ("status", .text t.status.name), ("run_count", .nat t.runCount),
    ("failure_count", .nat t.failureCount), ("skipped_count", .nat t.skippedCount),
    ("last_error", .option .text t.lastError)]

/-- The tasks as a document. -/
def Scheduler.tasksToJson (s : Scheduler) : Json.Value :=
  .object [("count", .nat s.tasks.length), ("tasks", .array (s.tasks.map Task.toJson))]

/-- The scheduler as a document. -/
def Scheduler.toJson (s : Scheduler) : Json.Value :=
  .object [("running", .bool s.isRunning), ("started_at", .option momentToJson s.startTime),
    ("total_tasks", .nat s.tasks.length), ("running_tasks", .nat (s.countStatus .running)),
    ("failed_tasks", .nat (s.countStatus .failed)), ("tasks", .array (s.tasks.map Task.toJson))]

/-- What a store says about itself, or why it does not answer, as a document. -/
def healthToJson (health : Except StorageError Health) : Json.Value :=
  let (status, storage) := match health with
    | .ok h => (if h.healthy then "ok" else "degraded", h.message)
    | .error e => ("degraded", e.message)
  .object [("status", .text status), ("storage", .text storage)]

/-- An event was accepted, as a document. -/
def Event.acceptedToJson (e : Event) : Json.Value :=
  .object [("accepted", .bool true), ("server_id", .text e.serverId)]

end Pulse
