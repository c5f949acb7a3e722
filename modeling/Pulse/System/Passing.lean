import Pulse.System.Consuming

/-!
# Passes at work

A pass lists the records and then turns silent servers off, a limited number of them at a time: the
demotions that are `Underway` take their time side by side.  Listing and each demotion have a
deadline of their own.

The guard of passes is taken at the start of a pass and given back however the pass ends.
-/

set_option autoImplicit false

namespace Pulse

open Time (Instant)

/-- A demotion that was asked for. -/
structure Underway where
  serverId : String
  seenBefore : Instant
  /-- When the store has an answer. -/
  due : Nat
  /-- When the demotion is given up. -/
  deadline : Nat

/-- The demotion has an answer or is given up. -/
def Underway.isOver (u : Underway) (t : Nat) : Bool :=
  u.due ≤ t || u.deadline ≤ t

/-- The first moment at which a demotion is over. -/
def firstOver (underway : List Underway) : Option Nat :=
  underway.foldl (fun a u => Activity.earlier a (some (min u.due u.deadline))) none

/-- The first demotion that is over, and the others. -/
def takeOver (t : Nat) : List Underway → Option (Underway × List Underway)
  | [] => none
  | u :: rest =>
    if u.isOver t then some (u, rest)
    else (takeOver t rest).map fun (v, others) => (v, u :: others)

namespace Action

/-- What comes of a demotion that is over at `t`. -/
def endDemotion (now : Instant) (t : Nat) (u : Underway) : Action RecordOutcome := do
  if u.due ≤ t then
    return .ofDemotion (some (← answer (.demote u.serverId u.seenBefore now)))
  else return .ofDemotion none

/-- Deals with the records in `todo` and the demotions under way, of which there are at most
`maxConcurrency`.  Each record takes at most three steps: it is begun, waited for and ended. -/
def checkRecords (settings : MonitoringSettings) (now : Instant) :
    Nat → List ServerRecord → List Underway → PassReport → Action PassReport
  | 0, _, _, report => return report
  | steps + 1, todo, underway, report => do
    match takeOver (← Activity.clock) underway with
    | some (u, others) =>
      let outcome ← endDemotion now (← Activity.clock) u
      checkRecords settings now steps todo others (report.count outcome)
    | none =>
      match todo with
      | record :: rest =>
        if underway.length < max settings.maxConcurrency 1 then
          match ← checked (record.verdict now settings.graceMultiplier) with
          | .undefined => checkRecords settings now steps rest underway (report.count .undefined)
          | .unchanged => checkRecords settings now steps rest underway (report.count .unchanged)
          | .silent seenBefore =>
            let t ← Activity.clock
            let delay := (← state).disturbance.delay .demote
            let started : Underway :=
              ⟨record.serverId, seenBefore, t + delay, t + millisOf settings.storeTimeout⟩
            checkRecords settings now steps rest (underway ++ [started]) report
        else do
          Activity.wait (fun _ => false) (firstOver underway) id (.done ())
          checkRecords settings now steps todo underway report
      | [] =>
        if underway.isEmpty then return report
        else do
          Activity.wait (fun _ => false) (firstOver underway) id (.done ())
          checkRecords settings now steps todo underway report

/-- What a pass finds, apart from how long it takes. -/
def scan (settings : MonitoringSettings) (now : Instant) : Action PassReport := do
  let report : PassReport := { startedAt := now }
  let deadline := (← Activity.clock) + millisOf settings.storeTimeout
  match ← Activity.within deadline (ask .list) with
  | none => return { report with listError := some "listing servers timed out" }
  | some (.error e) => return { report with listError := some e.message }
  | some (.ok records) =>
    checkRecords settings now (3 * records.length + 1) records []
      { report with scanned := records.length }

/-- Keeps the report of a pass that began at `started` on the clock. -/
def keepReport (started : Nat) (report : PassReport) : Action PassOutcome := do
  let report := { report with duration := (← Activity.clock) - started }
  modifyMonitor fun m => m.record report
  return .completed report

/-- What is done under the guard: the records are judged at `now`, and the report is kept. -/
def inspect (now : Instant) : Action PassOutcome := do
  let settings := (← state).monitor.settings
  let started ← Activity.clock
  keepReport started (← scan settings now)

/-- The guard of passes is given back. -/
def release (s : System) : System :=
  { s with monitor := s.monitor.leave }

/-- Makes a pass, judging the records at `now`. -/
def passAt (now : Instant) : Action PassOutcome := do
  let (entered, monitor) := (← state).monitor.enter
  modifyMonitor fun _ => monitor
  if entered then Activity.guarded release (inspect now) else return .skipped

/-- Makes a pass. -/
def pass : Action PassOutcome := do
  passAt (← now)

/-! ## The loop -/

/-- Starts a loop of the monitor. -/
def startMonitor (linked : Bool) : Action (Except MonitorError Unit) := do
  match (← state).monitor.startLoop linked with
  | .error e => return .error e
  | .ok (n, monitor) =>
    modifyMonitor fun _ => monitor
    Activity.launch (.monitor n)
    return .ok ()

/-- Tells the loop to stop. -/
def haltMonitor : Action (Except MonitorError Nat) := do
  match (← state).monitor.stopLoop with
  | .error e => return .error e
  | .ok (n, monitor) =>
    modifyMonitor fun _ => monitor
    return .ok n

/-- Tells the loop to stop and waits for its end. -/
def stopMonitor : Action (Except MonitorError Unit) := do
  match ← haltMonitor with
  | .error e => return .error e
  | .ok n =>
    Activity.waitFor fun s => s.monitor.isFinished n
    return .ok ()

/-- A loop is to stop. -/
def monitorStops (n : Nat) (s : System) : Bool :=
  s.monitor.loops[n]?.any fun loop => loop.stopping || (loop.linked && s.cancelled)

/-- A loop of the monitor when it starts: the first tick is at once.  There is no ticking without
time in between. -/
def beginMonitor (n : Nat) : Action (Option Process) := do
  match (← state).monitor.settings.tickInterval with
  | none => return some (.monitorLoop n none)
  | some 0 => .crash
  | some _ => return some (.monitorLoop n (some (← Activity.clock)))

/-- Waits for a request or a tick. -/
def awaitTurn (n : Nat) (due : Option Nat) : Action Unit :=
  Activity.wait (fun s => monitorStops n s || (s.monitor.request? n).isSome) due id (.done ())

/-- Meets a request. -/
def serve (n ticket : Nat) : Action Unit := do
  modifyMonitor fun m => m.take n
  let outcome ← pass
  modifyMonitor fun m => m.reply n ticket outcome

/-- What a loop does when it does not have to wait any longer. -/
inductive Turn where
  | ends
  /-- The clock cannot show the time of the tick after this one. -/
  | fails
  | meets (ticket : Nat)
  /-- A tick, and when the next one is due. -/
  | ticks (next : Nat)
  | waits
deriving DecidableEq

/-- What a loop does next.  A request goes before a tick. -/
def turn (n : Nat) (due : Option Nat) (t : Nat) (s : System) : Turn :=
  if monitorStops n s then .ends
  else
    match s.monitor.request? n, due with
    | some ticket, _ => .meets ticket
    | none, some due =>
      match nextTick? due t (millisOf (s.monitor.settings.tickInterval.getD 1)) with
      | none => .fails
      | some next => .ticks next
    | none, none => .waits

/-- Meets the request that waits, or makes a pass because it is time for one. -/
def takeTurn (n : Nat) (due : Option Nat) : Action (Option Process) := do
  match turn n due (← Activity.clock) (← state) with
  | .ends => return none
  | .fails => .crash
  | .meets ticket =>
    serve n ticket
    return some (.monitorLoop n due)
  | .ticks next =>
    let _ ← pass
    return some (.monitorLoop n (some next))
  | .waits => return some (.monitorLoop n due)

/-- Waits for a request or a tick, and makes a pass. -/
def monitorLoop (n : Nat) (due : Option Nat) : Action (Option Process) := do
  awaitTurn n due
  takeTurn n due

/-! ## Requests for passes -/

/-- Waits for the answer to a request. -/
def awaitAnswer (ticket : Nat) : Action (Except MonitorError PassOutcome) := do
  Activity.wait (fun s => (s.monitor.answer? ticket).isSome) none
    (fun s => { s with monitor := s.monitor.forget ticket }) (.done ())
  let answer := (← state).monitor.answer? ticket
  modifyMonitor fun m => m.forget ticket
  return Monitor.resultOf answer.join

/-- Makes a request, unless a pass is under way. -/
def request (ticket : Nat) : Action Monitor.Reception := do
  let monitor := (← state).monitor
  if monitor.passing then
    modifyMonitor Monitor.skip
    return .skipped
  match monitor.attached with
  | none => return .refused .notRunning
  | some n =>
    let (reception, monitor) := monitor.submit n ticket
    modifyMonitor fun _ => monitor
    return reception

/-- Requests a pass from the loop and waits for its outcome; `before` happens before waiting. -/
def checkAfter (before : Action Unit) : Action (Except MonitorError PassOutcome) := do
  let (ticket, monitor) := (← state).monitor.draw
  modifyMonitor fun _ => monitor
  let reception ← request ticket
  before
  match reception with
  | .skipped => return .ok .skipped
  | .refused e => return .error e
  | .accepted => awaitAnswer ticket

/-- Requests a pass from the loop and waits for its outcome. -/
def check : Action (Except MonitorError PassOutcome) :=
  checkAfter (.done ())

/-! ## In the background -/

/-- Keeps the outcome of something in the background. -/
def keep (number : Nat) (outcome : Except MonitorError PassOutcome) : Action Unit :=
  Activity.modify fun s => { s with background := s.background ++ [(number, outcome)] }

/-- Waits for the outcome of something in the background. -/
def awaitBackground (number : Nat) : Action (Except MonitorError PassOutcome) := do
  let found (s : System) := s.background.find? fun b => b.1 = number
  Activity.waitFor fun s => (found s).isSome
  match found (← state) with
  | some (_, outcome) => return outcome
  | none => return .error .stopped

/-- Two passes side by side, the first of which begins first; a crash of either ends both. -/
def passTwice (number : Nat) : Action (PassOutcome × PassOutcome) := do
  Activity.launch (.pass number)
  Activity.waitFor fun s => s.monitor.passing || s.background.any fun b => b.1 = number
  let second ← pass
  match ← awaitBackground number with
  | .ok first => return (first, second)
  | .error _ => .crash

/-- Two requests side by side, the first of which is made first. -/
def checkTwice (number : Nat) :
    Action (Except MonitorError PassOutcome × Except MonitorError PassOutcome) := do
  Activity.launch (.check number)
  Activity.waitFor fun s =>
    (s.monitor.attached.any fun n => (s.monitor.request? n).isSome)
      || s.background.any fun b => b.1 = number
  let second ← check
  return (← awaitBackground number, second)

end Action

end Pulse
