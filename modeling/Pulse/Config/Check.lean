import Pulse.Config
import Pulse.Decimal.Layout
import Pulse.Text.Blank

/-!
# Accepted configurations

Not every configuration that can be written makes sense: `Config.refusal?` finds the first reason
against one, in the order of the sections, and `Config.load` reads the configuration in a file,
which has to be text, a document and accepted.
-/

set_option autoImplicit false

namespace Pulse

/-- Why a configuration is refused. -/
inductive Refusal where
  | blankServerId
  | zeroInterval (serverId : String)
  | repeatedServer (serverId : String)
  | graceMultiplier (value : Float)
  | zeroTick
  | zeroMonitoringLimit
  | blankQueue
  | sameQueues (name : String)
  | zeroBusLimit
  | zeroTaskTimeout
  | blankTaskName

/-- The reason in words. -/
def Refusal.message : Refusal → String
  | .blankServerId => "server_id must not be empty"
  | .zeroInterval id => s!"server '{id}': interval must be positive"
  | .repeatedServer id => s!"server '{id}' listed twice"
  | .graceMultiplier value =>
    s!"grace_multiplier must be positive, got {Decimal.plainText value}"
  | .zeroTick => "monitoring.tick_interval must be positive"
  | .zeroMonitoringLimit => "monitoring.store_timeout and max_concurrency must be positive"
  | .blankQueue => "queue names must not be empty"
  | .sameQueues name => s!"status and metrics queues must differ, both are '{name}'"
  | .zeroBusLimit => "bus.capacity and handler_timeout must be positive"
  | .zeroTaskTimeout => "scheduler.task_timeout must be positive"
  | .blankTaskName => "task names must not be empty"

/-- The first reason against the servers; those in `seen` are listed already. -/
def refusedServer? (seen : List String) : List ServerSettings → Option Refusal
  | [] => none
  | s :: rest =>
    if Text.isBlankText s.serverId then some .blankServerId
    else if s.interval = 0 then some (.zeroInterval s.serverId)
    else if seen.contains s.serverId then some (.repeatedServer s.serverId)
    else refusedServer? (s.serverId :: seen) rest

/-- The first reason against the settings of the monitor. -/
def MonitoringSettings.refusal? (m : MonitoringSettings) : Option Refusal :=
  if !m.graceMultiplier.isFinite || m.graceMultiplier ≤ 0.0 then
    some (.graceMultiplier m.graceMultiplier)
  else if m.tickInterval = some 0 then some .zeroTick
  else if m.storeTimeout = 0 ∨ m.maxConcurrency = 0 then some .zeroMonitoringLimit
  else none

/-- The first reason against the settings of the queues. -/
def BusSettings.refusal? (b : BusSettings) : Option Refusal :=
  if Text.isBlankText b.statusQueue || Text.isBlankText b.metricsQueue then some .blankQueue
  else if b.statusQueue = b.metricsQueue then some (.sameQueues b.statusQueue)
  else if b.capacity = 0 ∨ b.handlerTimeout = 0 then some .zeroBusLimit
  else none

/-- The recurring tasks. -/
def SchedulerSettings.tasks (s : SchedulerSettings) : List TaskSettings :=
  [s.intervalCheck, s.dailyReport, s.retention]

/-- The first reason against the recurring tasks. -/
def SchedulerSettings.refusal? (s : SchedulerSettings) : Option Refusal :=
  if s.taskTimeout = 0 then some .zeroTaskTimeout
  else if s.tasks.any fun task => Text.isBlankText task.name then some .blankTaskName
  else none

/-- The first reason against a configuration. -/
def Config.refusal? (config : Config) : Option Refusal :=
  (refusedServer? [] config.servers).or <|
    config.monitoring.refusal?.or <| config.bus.refusal?.or config.scheduler.refusal?

/-- Why a configuration cannot be loaded. -/
inductive ConfigError where
  /-- There is no file, or its bytes are no text. -/
  | unreadable
  | fault (fault : Json.Fault)
  | refused (refusal : Refusal)

/-- An error about a refused configuration. -/
def Refusal.configMessage (refusal : Refusal) : String :=
  s!"invalid configuration: {refusal.message}"

/-- Accepts a configuration unless there is a reason against it. -/
def Config.check (config : Config) : Except Refusal Unit :=
  match config.refusal? with
  | some refusal => .error refusal
  | none => .ok ()

/-- The configuration in a file of which the content is given, if the file exists. -/
def Config.load (content : Option (List UInt8)) : Except ConfigError Config := do
  let some bytes := content | throw .unreadable
  let some _ := Text.Utf8.decode? bytes | throw .unreadable
  let config ← (Json.decodeAll Config.decoder bytes).mapError .fault
  config.check.mapError .refused
  return config

end Pulse
