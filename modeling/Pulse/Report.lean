import Pulse.Json.Decode
import Pulse.Store
import Pulse.Time.Text
import Pulse.Uptime

/-!
# Daily reports

What happened on a day: how many servers are in which status, and for each server the share of the
day for which it was on.  The day is from midnight to midnight of universal time; a report on the
day that has not ended yet covers the part that has passed.

`DailyReport.build` asks a store for what it needs.  It does not care how the store is reached: the
requests are made through `ask`, in any monad.
-/

set_option autoImplicit false

namespace Pulse

open Time (Date Instant Checked)

/-- The day of one server. -/
structure ServerUptime where
  serverId : String
  /-- The status when the report was made. -/
  status : Status
  uptimePercent : Float
  /-- The number of changes of status on that day. -/
  transitions : Nat

/-- The day of all servers. -/
structure DailyReport where
  date : Date
  generatedAt : Instant
  totalServers : Nat
  online : Nat
  offline : Nat
  undefined : Nat
  averageUptime : Float
  servers : List ServerUptime

/-- Why there is no report. -/
inductive ReportError where
  /-- The day has not started yet. -/
  | futureDay (day : Date)
  | storage (error : StorageError)
  /-- The receiver of reports refused with a status code. -/
  | refused (code : Nat)

/-- The error in words. -/
def ReportError.message : ReportError → String
  | .futureDay day => s!"cannot report on {day.text}, the day has not started yet"
  | .storage error => error.message
  | .refused code => s!"report webhook answered with HTTP {Decimal.natText code}"

namespace DailyReport

/-! ## Making a report -/

/-- The part of a day that has passed, or none if the day has not started.  The day after the last
does not exist. -/
def window? (day : Date) (now : Instant) : Checked (Option (Instant × Instant)) := do
  let start := Instant.ofDate day
  let stop := min (← start.add (Time.Span.ofDays 1)) now
  return if stop ≤ start then none else some (start, stop)

/-- The number of servers in a given status. -/
def countStatus (status : Status) (servers : List ServerUptime) : Nat :=
  (servers.filter fun s => s.status = status).length

/-- The mean of the shares, with two decimals. -/
def average (servers : List ServerUptime) : Float :=
  if servers.isEmpty then 0.0
  else round2 (servers.foldl (fun sum s => sum + s.uptimePercent) 0.0 / doubleOf servers.length)

/-- A report with given rows. -/
def ofRows (day : Date) (now : Instant) (servers : List ServerUptime) : DailyReport where
  date := day
  generatedAt := now
  totalServers := servers.length
  online := countStatus .on servers
  offline := countStatus .off servers
  undefined := countStatus .undefined servers
  averageUptime := average servers
  servers := servers

/-- The row of a server whose last change before `start` was `before`; `changes` are those of all
servers from then up to `stop`. -/
def row (start stop : Instant) (changes : List Transition) (record : ServerRecord)
    (before : Option Transition) : Checked ServerUptime := do
  let initial := match before with
    | some t => t.target
    | none => .undefined
  let own := changes.filter fun t => t.serverId = record.serverId
  return ⟨record.serverId, record.status, ← Pulse.uptimePercent initial own start stop, own.length⟩

section

variable {m : Type → Type} [Monad m]
  (ask : {form : Store.Form} → Store.Request form → m (Except StorageError form.Answer))

/-- The rows of servers, asking for the last change of each before `start`. -/
def rows (start stop : Instant) (changes : List Transition) :
    List ServerRecord → m (Except StorageError (Checked (List ServerUptime)))
  | [] => return .ok (.ok [])
  | record :: rest => do
    match ← ask (.lastTransition record.serverId start) with
    | .error e => return .error e
    | .ok before =>
      match row start stop changes record before with
      | .error e => return .ok (.error e)
      | .ok row =>
        match ← rows start stop changes rest with
        | .error e => return .error e
        | .ok rows => return .ok (rows.map (row :: ·))

/-- The report on a day, made at `now`. -/
def build (day : Date) (now : Instant) : m (Checked (Except ReportError DailyReport)) := do
  match window? day now with
  | .error e => return .error e
  | .ok none => return .ok (.error (.futureDay day))
  | .ok (some (start, stop)) =>
    match ← ask (.transitions start stop) with
    | .error e => return .ok (.error (.storage e))
    | .ok changes =>
      match ← ask .list with
      | .error e => return .ok (.error (.storage e))
      | .ok records =>
        match ← rows ask start stop changes (Ordered.sortBy ServerRecord.serverId records) with
        | .error e => return .ok (.error (.storage e))
        | .ok (.error e) => return .error e
        | .ok (.ok servers) => return .ok (.ok (ofRows day now servers))

end

/-! ## Written reports -/

/-- The fields of a row. -/
def rowFields : Json.Record ServerUptime :=
  ServerUptime.mk <$> .field "server_id" Json.text
    <*> .field "status" (Json.plainVariant Status.name Status.all)
    <*> .field "uptime_percent" Json.real <*> .field "transitions" Json.count

/-- The fields of a report. -/
def fields : Json.Record DailyReport :=
  DailyReport.mk <$> .field "date" Json.date <*> .field "generated_at" Json.instant
    <*> .field "total_servers" Json.count <*> .field "online" Json.count
    <*> .field "offline" Json.count <*> .field "undefined" Json.count
    <*> .field "average_uptime" Json.real
    <*> .field "servers" (Json.list (rowFields.decoder "struct ServerUptime"))

/-- Reads a report. -/
def decoder : Json.Decoder DailyReport :=
  fields.decoder "struct DailyReport"

/-- A row as a document. -/
def rowToJson (s : ServerUptime) : Json.Value :=
  .object [("server_id", .text s.serverId), ("status", .text s.status.name),
    ("uptime_percent", .float s.uptimePercent), ("transitions", .nat s.transitions)]

/-- A report as a document. -/
def toJson (r : DailyReport) : Json.Value :=
  .object [("date", .text r.date.text), ("generated_at", .text r.generatedAt.text),
    ("total_servers", .nat r.totalServers), ("online", .nat r.online), ("offline", .nat r.offline),
    ("undefined", .nat r.undefined), ("average_uptime", .float r.averageUptime),
    ("servers", .array (r.servers.map rowToJson))]

/-! ## Delivery -/

/-- A line of the log: its level, what it says, and named values. -/
def logLine (level text : String) (values : List (String × String)) : String :=
  " ".intercalate (level :: text :: values.map fun (name, value) => name ++ "=" ++ value)

/-- The lines that a report leaves in the log. -/
def logLines (r : DailyReport) : List String :=
  let percent (x : Float) := Decimal.fixedText 2 x ++ "%"
  logLine "INFO" s!"daily report: average uptime {percent r.averageUptime}"
      [("date", r.date.text), ("total", Decimal.natText r.totalServers),
        ("online", Decimal.natText r.online), ("offline", Decimal.natText r.offline),
        ("undefined", Decimal.natText r.undefined)]
    :: r.servers.map fun s => logLine "DEBUG" s!"uptime {percent s.uptimePercent}"
      [("server_id", s.serverId), ("status", s.status.name),
        ("transitions", Decimal.natText s.transitions)]

/-- A file inside a directory. -/
def filePath (directory name : String) : String :=
  if directory.isEmpty || directory.endsWith "/" then directory ++ name
  else directory ++ "/" ++ name

/-- The file that a report is written to. -/
def path (r : DailyReport) (directory : String) : String :=
  filePath directory s!"report-{r.date.text}.json"

/-- What is written to the file. -/
def fileText (r : DailyReport) : String :=
  r.toJson.pretty

end DailyReport

end Pulse
