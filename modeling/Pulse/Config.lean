import Pulse.Json.Decode
import Pulse.Server
import Pulse.SocketAddress

/-!
# Configuration

What an operator can set: the servers to watch, where their state is kept, how they are monitored,
the queues, the recurring tasks, where reports go and the interface of the operators.  Every section
and nearly every setting has a default, so `{}` is a configuration.

The section of an alternative kind, `StorageSettings` and `SinkSettings`, is tagged with the name of
the alternative.
-/

set_option autoImplicit false

namespace Pulse

/-- A server to watch. -/
structure ServerSettings where
  serverId : String
  address : String
  /-- Heartbeat period in seconds. -/
  interval : Nat

/-- The server as the store registers it. -/
def ServerSettings.registration (s : ServerSettings) : Registration :=
  ⟨s.serverId, s.address, s.interval⟩

/-- Where the state is kept. -/
inductive StorageSettings where
  | volatile
  /-- In a database file, from which samples older than `retentionDays` are deleted. -/
  | database (path : String) (retentionDays : Nat)

/-- The days after which samples are deleted, if ever. -/
def StorageSettings.retentionDays? : StorageSettings → Option Nat
  | .volatile => none
  | .database _ days => some days

/-- How servers are monitored; times are in seconds. -/
structure MonitoringSettings where
  /-- Heartbeat periods without a heartbeat after which a server is off. -/
  graceMultiplier : Float := 2.0
  /-- Time between the monitor's own passes; if unset, the scheduler starts the passes. -/
  tickInterval : Option Nat := none
  /-- Time that each call of the store may take. -/
  storeTimeout : Nat := 5
  /-- Records checked at a time. -/
  maxConcurrency : Nat := 50

/-- The queues; times are in seconds. -/
structure BusSettings where
  statusQueue : String := "server.status"
  metricsQueue : String := "server.metrics"
  /-- Messages that a queue holds. -/
  capacity : Nat := 1024
  /-- Time that a handler may take for a message. -/
  handlerTimeout : Nat := 10

/-- A recurring task. -/
structure TaskSettings where
  name : String
  schedule : String

/-- The recurring tasks; times are in seconds. -/
structure SchedulerSettings where
  /-- Time that one run of a task may take. -/
  taskTimeout : Nat := 300
  intervalCheck : TaskSettings := ⟨"interval-check-status", "@every 10s"⟩
  dailyReport : TaskSettings := ⟨"daily-report", "0 0 1 * * *"⟩
  /-- Registered only if samples are ever deleted. -/
  retention : TaskSettings := ⟨"metrics-retention", "0 30 2 * * *"⟩

/-- Where daily reports go. -/
inductive SinkSettings where
  | log
  | file (directory : String)
  | webhook (url : String)

/-- The name of a kind of sink. -/
def SinkSettings.name : SinkSettings → String
  | .log => "log"
  | .file _ => "file"
  | .webhook _ => "webhook"

/-- The interface of the operators. -/
structure ApiSettings where
  /-- Its address; if unset, there is no interface. -/
  bind : Option SocketAddress := none
  enableCors : Bool := true

/-- All that an operator can set. -/
structure Config where
  servers : List ServerSettings := []
  storage : StorageSettings := .database "./liveness.db" 30
  monitoring : MonitoringSettings := {}
  bus : BusSettings := {}
  scheduler : SchedulerSettings := {}
  sink : SinkSettings := .log
  api : ApiSettings := {}

/-! ## Reading -/

open Json.Record (field fieldOr optionalField)

/-- A path of the file system. -/
def pathDecoder : Json.Decoder String :=
  Json.textAs "path string"

/-- The name of an alternative, which becomes a value of `α`. -/
def alternative {α : Type} (all : List (String × α)) : Json.Decoder α := fun node => do
  let s ← Json.textAs "variant identifier" node
  return (← Json.variant Prod.fst all s).2

/-- A server with its identifier, address and period. -/
def ServerSettings.decoder : Json.Decoder ServerSettings :=
  (ServerSettings.mk <$> field "server_id" Json.text <*> fieldOr "address" "" Json.text
    <*> fieldOr "interval" 10 Json.natural32).decoder "struct ServerConfig"

/-- The settings behind the tag `sqlite`. -/
def StorageSettings.databaseDecoder : Json.Decoder StorageSettings :=
  (StorageSettings.database <$> fieldOr "path" "./liveness.db" pathDecoder
    <*> fieldOr "retention_days" 30 Json.natural32).decoder "struct variant StorageConfig::Sqlite"

/-- The settings behind the tag `backend`. -/
def StorageSettings.decoder : Json.Decoder StorageSettings :=
  Json.tagged "StorageConfig" "backend"
    (alternative [("none", Json.noFields .volatile), ("sqlite", databaseDecoder)]) id

/-- The settings of the monitor. -/
def MonitoringSettings.decoder : Json.Decoder MonitoringSettings :=
  let default : MonitoringSettings := {}
  (MonitoringSettings.mk <$> fieldOr "grace_multiplier" default.graceMultiplier Json.real
    <*> optionalField "tick_interval" Json.natural64
    <*> fieldOr "store_timeout" default.storeTimeout Json.natural64
    <*> fieldOr "max_concurrency" default.maxConcurrency Json.count).decoder
      "struct MonitoringConfig"

/-- The settings of the queues. -/
def BusSettings.decoder : Json.Decoder BusSettings :=
  let default : BusSettings := {}
  (BusSettings.mk <$> fieldOr "status_queue" default.statusQueue Json.text
    <*> fieldOr "metrics_queue" default.metricsQueue Json.text
    <*> fieldOr "capacity" default.capacity Json.count
    <*> fieldOr "handler_timeout" default.handlerTimeout Json.natural64).decoder
      "struct BusConfig"

/-- A task with its name and schedule. -/
def TaskSettings.decoder : Json.Decoder TaskSettings :=
  (TaskSettings.mk <$> field "name" Json.text <*> field "schedule" Json.text).decoder
    "struct TaskConfig"

/-- The settings of the recurring tasks. -/
def SchedulerSettings.decoder : Json.Decoder SchedulerSettings :=
  let default : SchedulerSettings := {}
  (SchedulerSettings.mk <$> fieldOr "task_timeout" default.taskTimeout Json.natural64
    <*> fieldOr "interval_check_status" default.intervalCheck TaskSettings.decoder
    <*> fieldOr "daily_report" default.dailyReport TaskSettings.decoder
    <*> fieldOr "metrics_retention" default.retention TaskSettings.decoder).decoder
      "struct SchedulerConfig"

/-- The settings behind the tag `file`. -/
def SinkSettings.fileDecoder : Json.Decoder SinkSettings :=
  (SinkSettings.file <$> field "directory" pathDecoder).decoder
    "struct variant ReportSinkConfig::File"

/-- The settings behind the tag `webhook`. -/
def SinkSettings.webhookDecoder : Json.Decoder SinkSettings :=
  (SinkSettings.webhook <$> field "url" Json.text).decoder
    "struct variant ReportSinkConfig::Webhook"

/-- The settings behind the tag `type`. -/
def SinkSettings.decoder : Json.Decoder SinkSettings :=
  Json.tagged "ReportSinkConfig" "type"
    (alternative [("log", Json.noFields .log), ("file", fileDecoder), ("webhook", webhookDecoder)])
    id

/-- The settings of the reports. -/
def reportDecoder : Json.Decoder SinkSettings :=
  (fieldOr "sink" .log SinkSettings.decoder).decoder "struct ReportConfig"

/-- The address of a socket. -/
def SocketAddress.decoder : Json.Decoder SocketAddress :=
  Json.parsed "socket address" fun s =>
    match SocketAddress.parse? s with
    | some address => .ok address
    | none => .error "invalid socket address syntax"

/-- The settings of the interface. -/
def ApiSettings.decoder : Json.Decoder ApiSettings :=
  let default : ApiSettings := {}
  (ApiSettings.mk <$> optionalField "bind" SocketAddress.decoder
    <*> fieldOr "enable_cors" default.enableCors Json.bool).decoder "struct ApiSettings"

/-- All settings. -/
def Config.decoder : Json.Decoder Config :=
  let default : Config := {}
  (Config.mk <$> fieldOr "servers" [] (Json.list ServerSettings.decoder)
    <*> fieldOr "storage" default.storage StorageSettings.decoder
    <*> fieldOr "monitoring" default.monitoring MonitoringSettings.decoder
    <*> fieldOr "bus" default.bus BusSettings.decoder
    <*> fieldOr "scheduler" default.scheduler SchedulerSettings.decoder
    <*> fieldOr "report" default.sink reportDecoder
    <*> fieldOr "api" default.api ApiSettings.decoder).decoder "struct Config"

end Pulse
