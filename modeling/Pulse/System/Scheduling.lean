import Pulse.System.Passing

/-!
# The scheduler at work

A driver waits for the next fire of its task's schedule and starts a run, unless one is under way.
The run does the task's job within the time that a run may take; a run is not stopped otherwise.
-/

set_option autoImplicit false

namespace Pulse.Action

open Time (Date Instant)

/-! ## Reports -/

/-- Makes the report on a day. -/
def report (day : Date) : Action (Except ReportError DailyReport) := do
  checked (← DailyReport.build ask day (← now))

/-- Makes the report on a day and delivers it. -/
def sendReport (day : Date) : Action (Except ReportError DailyReport) := do
  match ← report day with
  | .error e => return .error e
  | .ok report =>
    match (← state).refusal with
    | some code => return .error (.refused code)
    | none =>
      Activity.modify fun s => { s with delivered := s.delivered ++ [report] }
      return .ok report

/-! ## Jobs -/

/-- Looks for silent servers, through the loop of the monitor if there is one. -/
def checkStatus : Action (Except String Unit) := do
  let outcome ← match ← check with
    | .error .notRunning => do pure (Except.ok (← pass))
    | outcome => pure outcome
  match outcome with
  | .error e => return .error e.message
  | .ok .skipped => return .ok ()
  | .ok (.completed report) =>
    match report.listError with
    | some e => return .error s!"monitoring pass could not read servers: {e}"
    | none => return .ok ()

/-- Reports on the day before. -/
def reportYesterday : Action (Except String Unit) := do
  match (← now).date.pred? with
  | none => return .error "no previous day to report on"
  | some yesterday =>
    match ← sendReport yesterday with
    | .ok _ => return .ok ()
    | .error e =>
      return .error s!"failed to send daily report for {yesterday.text}: {e.message}"

/-- Deletes what is older than so many days. -/
def applyRetention (days : Nat) : Action (Except String Unit) := do
  let cutoff ← checked ((← now).sub (Time.Span.ofDays days))
  match ← ask (.cleanupSamples cutoff) with
  | .error e => return .error e.message
  | .ok _ =>
    match ← ask (.cleanupTransitions cutoff) with
    | .error e => return .error e.message
    | .ok _ => return .ok ()

/-- Waits as it is set for the `n`-th run, and ends as it is set. -/
def rehearse (n : Nat) (millis : List Nat) (failures : List (Option String)) :
    Action (Except String Unit) := do
  Activity.sleep ((forRun n millis).getD 0)
  match (forRun n failures).join with
  | some error => return .error error
  | none => return .ok ()

/-- Does a job for the `n`-th time. -/
def doJob (n : Nat) : Job → Action (Except String Unit)
  | .checkStatus => checkStatus
  | .dailyReport => reportYesterday
  | .retention days => applyRetention days
  | .rehearsal millis failures => rehearse n millis failures

/-! ## Runs -/

/-- Does what a task is there for, within the time that a run may take. -/
def attempt (job : Task → Action (Except String Unit)) (i : Nat) :
    Action (Option (Except String Unit)) := do
  let scheduler := (← state).scheduler
  match scheduler.tasks[i]? with
  | none => return some (.ok ())
  | some task => Activity.within ((← Activity.clock) + scheduler.timeout) (job task)

/-- Keeps what came of a run of a task. -/
def conclude (i : Nat) (outcome : Option (Except String Unit)) : Action Unit :=
  modifyScheduler fun s => s.update i fun task => task.finish (s.runError outcome)

/-- A run of a task; a run is not part of its shift's work in any other way than that the shift
waits for it. -/
def runTask (_shift i : Nat) : Action (Option Process) := do
  conclude i (← attempt (fun task => doJob task.runCount task.job) i)
  return none

/-! ## Drivers -/

/-- The drivers of a shift are to stop. -/
def driversStop (n : Nat) (s : System) : Bool :=
  s.scheduler.isStopping n s.cancelled

/-- Sets the next fire of a task, for which the driver then waits, if there is one. -/
def awaitFire (n i : Nat) (next : Option Instant) : Action (Option Process) := do
  modifyScheduler fun s => s.update i fun task => { task with nextRun := next }
  return next.map (.driverLoop n i)

/-- The driver of a task when it starts. -/
def beginDriver (n i : Nat) : Action (Option Process) := do
  match (← state).scheduler.tasks[i]? with
  | none => return none
  | some task =>
    match ← checked (task.schedule.next (← now)) with
    | none => return none
    | some due => awaitFire n i (some due)

/-- The milliseconds until a moment, rounded up. -/
def millisUntil (due now : Instant) : Nat :=
  ((due.since now + Time.Span.millisecond - 1) / Time.Span.millisecond).toNat

/-- Waits for a fire. -/
def awaitDue (n : Nat) (due : Instant) : Action Unit := do
  let alarm := (← Activity.clock) + millisUntil due (← now)
  Activity.wait (driversStop n) (some alarm) id (.done ())

/-- Starts a run of a task, unless one is under way. -/
def fire (n i : Nat) : Action Unit := do
  let (begun, scheduler) := (← state).scheduler.fire n i (← now)
  modifyScheduler fun _ => scheduler
  if begun then Activity.launch (.run n i)

/-- Starts a run when it is time for it, and chooses the next fire. -/
def proceed (n i : Nat) (due : Instant) : Action (Option Process) := do
  if driversStop n (← state) then return none
  fire n i
  match (← state).scheduler.tasks[i]? with
  | none => return none
  | some task => awaitFire n i (← checked (task.following due (← now)))

/-- Waits for a fire, starts a run and chooses the next fire. -/
def drive (n i : Nat) (due : Instant) : Action (Option Process) := do
  awaitDue n due
  proceed n i due

/-! ## Starting and stopping -/

/-- Starts the drivers. -/
def startScheduler (linked : Bool) : Action (Except SchedulerError Unit) := do
  if (← state).scheduler.isRunning then return .error .alreadyRunning
  match (← state).scheduler.start linked (← now) with
  | .error e => return .error e
  | .ok scheduler =>
    modifyScheduler fun _ => scheduler
    for i in List.range scheduler.tasks.length do
      Activity.launch (.driver (scheduler.shifts.length - 1) i)
    return .ok ()

/-- Tells the drivers to stop. -/
def haltScheduler : Action (Except SchedulerError Nat) := do
  match (← state).scheduler.stop with
  | .error e => return .error e
  | .ok (n, scheduler) =>
    modifyScheduler fun _ => scheduler
    return .ok n

/-- Tells the drivers to stop, and waits for their end and that of the runs. -/
def stopScheduler : Action (Except SchedulerError Unit) := do
  match ← haltScheduler with
  | .error e => return .error e
  | .ok n =>
    Activity.waitFor fun s => s.scheduler.isOver n
    modifyScheduler fun s => s.clearFires
    return .ok ()

end Pulse.Action
