import Pulse.Config
import Pulse.Server
import Pulse.Store.Error

/-!
# Monitoring

A *pass* looks at every record and turns off the servers that are on and stale.  Passes never
overlap: a pass that would is skipped.  `verdict` decides about one record, `PassReport` says what a
pass has found, and `Monitor` holds what is known between passes.

Passes are made on request of a caller or by a *loop*, which takes one request at a time and may
also make passes of its own accord.  A loop that was told to stop can still be at work when the next
one is started.  A request is known by its *ticket*.
-/

set_option autoImplicit false

namespace Pulse

open Time (Instant Checked)

/-! ## Judging a record -/

/-- What a pass does about a record. -/
inductive Verdict where
  /-- The server never reported. -/
  | undefined
  | unchanged
  /-- The server is turned off, unless it was seen at `seenBefore` or later after all. -/
  | silent (seenBefore : Instant)
deriving DecidableEq

/-- Judges a record at `now`. -/
def ServerRecord.verdict (record : ServerRecord) (now : Instant) (grace : Float) :
    Checked Verdict := do
  if record.lastSeen.isNone then return .undefined
  if record.status ≠ .on then return .unchanged
  if ← Time.require (record.isStale? now grace) then
    return .silent (← now.sub (← Time.require (record.window? grace)))
  else return .unchanged

/-! ## Passes -/

/-- What a pass has found. -/
structure PassReport where
  startedAt : Instant
  scanned : Nat := 0
  demoted : Nat := 0
  undefined : Nat := 0
  failed : Nat := 0
  /-- Why the records could not be read. -/
  listError : Option String := none
  /-- How long the pass took, in milliseconds. -/
  duration : Nat := 0
deriving DecidableEq

/-- What came of one record. -/
inductive RecordOutcome where
  | undefined
  | unchanged
  | demoted
  | failed
deriving DecidableEq, Repr

/-- What came of a record whose demotion was given up (`none`) or came to a result. -/
def RecordOutcome.ofDemotion : Option (Except StorageError Bool) → RecordOutcome
  | some (.ok true) => .demoted
  | some (.ok false) => .unchanged
  | some (.error _) | none => .failed

/-- Counts a record. -/
def PassReport.count (report : PassReport) : RecordOutcome → PassReport
  | .undefined => { report with undefined := report.undefined + 1 }
  | .unchanged => report
  | .demoted => { report with demoted := report.demoted + 1 }
  | .failed => { report with failed := report.failed + 1 }

/-- How a request for a pass was met. -/
inductive PassOutcome where
  | completed (report : PassReport)
  | skipped
deriving DecidableEq

/-- What passes have come to so far. -/
structure MonitorStats where
  passes : Nat := 0
  skipped : Nat := 0
  demoted : Nat := 0
  failed : Nat := 0
deriving DecidableEq, Repr

/-! ## The monitor -/

/-- Why the monitor does not do what it is asked to. -/
inductive MonitorError where
  | alreadyRunning
  | notRunning
  | stopped
deriving DecidableEq, Repr

/-- The error in words. -/
def MonitorError.message : MonitorError → String
  | .alreadyRunning => "monitoring worker is already running"
  | .notRunning => "monitoring worker is not running"
  | .stopped => "monitoring worker stopped before answering"

/-- A loop that makes passes. -/
structure MonitorLoop where
  /-- It stops together with all else. -/
  linked : Bool
  stopping : Bool := false
  finished : Bool := false
  /-- The ticket of the request that waits. -/
  request : Option Nat := none
  /-- The ticket of the request that is being met. -/
  serving : Option Nat := none
deriving DecidableEq, Repr

/-- The state of monitoring. -/
structure Monitor where
  settings : MonitoringSettings
  /-- A pass is under way. -/
  passing : Bool := false
  stats : MonitorStats := {}
  lastReport : Option PassReport := none
  /-- One for each start so far. -/
  loops : List MonitorLoop := []
  /-- The loop to which requests go, until it is told to stop. -/
  attached : Option Nat := none
  /-- The answers to requests, `none` if the loop ended without. -/
  answers : List (Nat × Option PassOutcome) := []
  nextTicket : Nat := 0

namespace Monitor

/-- The loop to which requests go has not ended. -/
def isRunning (monitor : Monitor) : Bool :=
  monitor.attached.any fun n => monitor.loops[n]?.any fun loop => !loop.finished

/-- A loop has ended. -/
def isFinished (monitor : Monitor) (n : Nat) : Bool :=
  monitor.loops[n]?.all MonitorLoop.finished

/-- The request that waits for a loop. -/
def request? (monitor : Monitor) (n : Nat) : Option Nat :=
  monitor.loops[n]?.bind MonitorLoop.request

/-- The request that a loop is meeting. -/
def serving? (monitor : Monitor) (n : Nat) : Option Nat :=
  monitor.loops[n]?.bind MonitorLoop.serving

/-- Counts a pass that is not made because one is under way or requested. -/
def skip (monitor : Monitor) : Monitor :=
  { monitor with stats := { monitor.stats with skipped := monitor.stats.skipped + 1 } }

/-- Takes the guard of passes, unless a pass is under way; tells whether it did. -/
def enter (monitor : Monitor) : Bool × Monitor :=
  if monitor.passing then (false, monitor.skip) else (true, { monitor with passing := true })

/-- Gives the guard of passes back. -/
def leave (monitor : Monitor) : Monitor :=
  { monitor with passing := false }

/-- Keeps the report of a pass. -/
def record (monitor : Monitor) (report : PassReport) : Monitor :=
  { monitor with
    lastReport := some report
    stats := { monitor.stats with
      passes := monitor.stats.passes + 1
      demoted := monitor.stats.demoted + report.demoted
      failed := monitor.stats.failed + report.failed } }

/-! ### Loops -/

/-- Changes a loop, given by its number. -/
def updateLoop (monitor : Monitor) (n : Nat) (change : MonitorLoop → MonitorLoop) : Monitor :=
  { monitor with loops := monitor.loops.modify n change }

/-- Starts a loop, and gives back its number. -/
def startLoop (monitor : Monitor) (linked : Bool) : Except MonitorError (Nat × Monitor) :=
  if monitor.isRunning then .error .alreadyRunning
  else
    let n := monitor.loops.length
    .ok (n, { monitor with loops := monitor.loops ++ [{ linked }], attached := some n })

/-- Tells the loop to which requests go to stop, and gives back its number. -/
def stopLoop (monitor : Monitor) : Except MonitorError (Nat × Monitor) :=
  match monitor.attached with
  | none => .error .notRunning
  | some n =>
    let told := monitor.updateLoop n fun loop => { loop with stopping := true }
    .ok (n, { told with attached := none })

/-! ### Requests -/

/-- A new ticket. -/
def draw (monitor : Monitor) : Nat × Monitor :=
  (monitor.nextTicket, { monitor with nextTicket := monitor.nextTicket + 1 })

/-- How a request for a pass is received. -/
inductive Reception where
  /-- The caller waits for the answer. -/
  | accepted
  | skipped
  | refused (error : MonitorError)
deriving DecidableEq, Repr

/-- Hands a request to a loop, which holds no more than one that waits. -/
def submit (monitor : Monitor) (n ticket : Nat) : Reception × Monitor :=
  if monitor.isFinished n then (.refused .stopped, monitor)
  else if (monitor.request? n).isSome then (.skipped, monitor.skip)
  else (.accepted, monitor.updateLoop n fun loop => { loop with request := some ticket })

/-- A loop begins to meet the request that waits. -/
def take (monitor : Monitor) (n : Nat) : Monitor :=
  monitor.updateLoop n fun loop => { loop with request := none, serving := loop.request }

/-- Answers a request. -/
def answer (monitor : Monitor) (ticket : Nat) (outcome : Option PassOutcome) : Monitor :=
  { monitor with answers := monitor.answers ++ [(ticket, outcome)] }

/-- A loop has met a request. -/
def reply (monitor : Monitor) (n ticket : Nat) (outcome : PassOutcome) : Monitor :=
  (monitor.updateLoop n fun loop => { loop with serving := none }).answer ticket (some outcome)

/-- The answer to a request, if there is one. -/
def answer? (monitor : Monitor) (ticket : Nat) : Option (Option PassOutcome) :=
  (monitor.answers.find? fun a => a.1 = ticket).map (·.2)

/-- What an answer is to the caller. -/
def resultOf : Option PassOutcome → Except MonitorError PassOutcome
  | some outcome => .ok outcome
  | none => .error .stopped

/-- Removes the answer to a request. -/
def forget (monitor : Monitor) (ticket : Nat) : Monitor :=
  { monitor with answers := monitor.answers.filter fun a => a.1 ≠ ticket }

/-- The requests that a loop has not answered. -/
def unmet (monitor : Monitor) (n : Nat) : List Nat :=
  (monitor.request? n).toList ++ (monitor.serving? n).toList

/-- The state after the end of a loop: requests that it has not met are answered with nothing. -/
def endLoop (monitor : Monitor) (n : Nat) : Monitor :=
  let ended := monitor.updateLoop n fun loop =>
    { loop with finished := true, request := none, serving := none }
  { ended with answers := monitor.answers ++ (monitor.unmet n).map fun ticket => (ticket, none) }

end Monitor

/-- The last moment that a clock of whole milliseconds can show. -/
def lastMoment : Nat := 9223372036854775807999

/-- The longest time since a tick that was missed which a clock of whole milliseconds can take into
account: its nanoseconds have to be written with 64 bits. -/
def longestMiss : Nat := 18446744073709

/-- When a loop that was to tick at `due` ticks next, if it ticks at `t` with the given period.
Within five milliseconds a tick counts as on time; after that, ticks that were missed are left out,
for which the clock has to reach a whole period beyond `t`. -/
def nextTick? (due t period : Nat) : Option Nat :=
  if due + 5 < t then
    if t + period ≤ lastMoment ∧ (t - due) % period ≤ longestMiss then
      some (t + period - (t - due) % period)
    else none
  else some (due + period)

end Pulse
