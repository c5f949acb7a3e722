import Pulse.Config.Check
import Pulse.Store.Directory
import Pulse.System.Scheduling

/-!
# From start to end

`Config.assemble` makes the system that a configuration describes; nothing runs in it yet.

* `start` registers the servers and then starts the consumers, the monitor and the scheduler, in
  this order, with a pass before the scheduler.  What was started before an error stays.
* `shutDown` stops them in reverse and then closes the bus and the store.
-/

set_option autoImplicit false

namespace Pulse

open Time (Instant)

/-! ## Assembly -/

/-- The tasks and what they do; samples are deleted only if the days to keep them are given. -/
def SchedulerSettings.jobs (s : SchedulerSettings) (retentionDays : Option Nat) :
    List (TaskSettings × Job) :=
  [(s.intervalCheck, .checkStatus), (s.dailyReport, .dailyReport)]
    ++ (retentionDays.map fun days => (s.retention, .retention days)).toList

/-- Adds tasks. -/
def Scheduler.addAll (scheduler : Scheduler) :
    List (TaskSettings × Job) → Except SchedulerError Scheduler
  | [] => .ok scheduler
  | (settings, job) :: rest => do
    (← scheduler.add settings.name settings.schedule job).addAll rest

/-- The system that a configuration describes, around a store. -/
def Config.assemble (config : Config) (store : Store) (origin : Instant) :
    Except SchedulerError System := do
  let scheduler : Scheduler := { timeout := Action.millisOf config.scheduler.taskTimeout }
  let scheduler ← scheduler.addAll (config.scheduler.jobs config.storage.retentionDays?)
  return { origin, store, bus := .new config.bus.capacity,
           monitor := { settings := config.monitoring }, scheduler }

/-- The queues on which events are published. -/
def Config.producer (config : Config) : Producer :=
  ⟨config.bus.statusQueue, config.bus.metricsQueue⟩

/-- The consumers: the queue of each and its handlers. -/
def Config.consumers (config : Config) : List (String × Handlers) :=
  [(config.bus.statusQueue, [(.heartbeat, .status)]),
   (config.bus.metricsQueue, [(.metrics, .metrics)])]

/-- Why there is no system for a configuration. -/
inductive BuildError where
  | refused (refusal : Refusal)
  | storage (error : StorageError)
  | scheduler (error : SchedulerError)

/-- The error in words. -/
def BuildError.message : BuildError → String
  | .refused refusal => refusal.configMessage
  | .storage error => s!"failed to open status store: {error.message}"
  | .scheduler error => error.message

/-- Checks a configuration and assembles the system that it describes around a store that is opened
in a directory; also gives back the directory with the database in it. -/
def Config.build (config : Config) (directory : Directory) (origin : Instant) :
    Except BuildError System × Directory :=
  match config.refusal? with
  | some refusal => (.error (.refused refusal), directory)
  | none =>
    match directory.openStore config.storage with
    | .error error => (.error (.storage error), directory)
    | .ok (store, directory) =>
      ((Config.assemble config store origin).mapError .scheduler, directory)

/-! ## The start -/

/-- Why a system does not start. -/
inductive StartError where
  | registration (serverId : String) (error : StorageError)
  | subscription (error : BusError)
  | monitor (error : MonitorError)
  | scheduler (error : SchedulerError)

/-- The error and its causes, in words. -/
def StartError.causes : StartError → List String
  | .registration id error => [s!"failed to register server '{id}'", error.message]
  | .subscription error => [(ConsumerError.subscribe error).message, error.message]
  | .monitor error => [error.message]
  | .scheduler error => [error.message]

/-- The error in words. -/
def StartError.message (error : StartError) : String :=
  ": ".intercalate error.causes

namespace Action

/-- Registers servers, up to the first that the store refuses. -/
def registerAll : List ServerSettings → Action (Except StartError Unit)
  | [] => return .ok ()
  | server :: rest => do
    match ← ask (.register server.registration) with
    | .error e => return .error (.registration server.serverId e)
    | .ok () => registerAll rest

/-- Starts consumers, up to the first that cannot subscribe. -/
def startConsumers (timeout : Nat) : List (String × Handlers) → Action (Except StartError Unit)
  | [] => return .ok ()
  | (queue, handlers) :: rest => do
    match ← startConsumer queue handlers timeout with
    | .error e => return .error (.subscription e)
    | .ok _ => startConsumers timeout rest

/-- Starts the monitor and waits for its first pass. -/
def startMonitoring : Action (Except StartError Unit) := do
  match ← startMonitor true with
  | .error e => return .error (.monitor e)
  | .ok () => return (← check).map (fun _ => ()) |>.mapError .monitor

/-- Starts everything. -/
def start (config : Config) : Action (Except StartError Unit) := do
  match ← registerAll config.servers with
  | .error e => return .error e
  | .ok () =>
    match ← startConsumers (millisOf config.bus.handlerTimeout) config.consumers with
    | .error e => return .error e
    | .ok () =>
      match ← startMonitoring with
      | .error e => return .error e
      | .ok () => return (← startScheduler true).mapError .scheduler

/-! ## The end -/

/-- Stops consumers, one after the other, and forgets them. -/
def stopConsumers : List Consumer → Action Unit
  | [] => return ()
  | consumer :: rest => do
    let _ ← stopConsumer consumer.subscription
    stopConsumers rest

/-- Stops everything; only the store can refuse to be closed. -/
def shutDown : Action (Except StorageError Unit) := do
  let _ ← stopScheduler
  let _ ← stopMonitor
  let consumers := (← state).consumers
  stopConsumers consumers
  Activity.modify fun s => { s with consumers := [], cancelled := true, bus := s.bus.close }
  ask .close

end Action

end Pulse
