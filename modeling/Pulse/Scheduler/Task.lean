import Pulse.Schedule

/-!
# Recurring tasks

A task has a schedule and does a `Job`.  Its runs never overlap: `begin` starts a run only if none
is under way, and otherwise counts the fire as skipped; `finish` ends a run.
-/

set_option autoImplicit false

namespace Pulse

open Time (Instant)

/-- What a task does. -/
inductive Job where
  /-- Looks for servers that have fallen silent. -/
  | checkStatus
  /-- Reports on the day before. -/
  | dailyReport
  /-- Deletes samples and changes of status that are older than so many days. -/
  | retention (days : Nat)
  /-- Waits for a time and then fails for a reason, or not, to try a schedule out.  The lists are
  for one run after the other; the last entry is for all runs to come. -/
  | rehearsal (millis : List Nat) (failures : List (Option String))
deriving DecidableEq, Repr

/-- The entry of a list for the `n`-th run. -/
def forRun {α : Type} (n : Nat) (entries : List α) : Option α :=
  entries[n]?.or entries.getLast?

/-- Whether a task runs. -/
inductive TaskStatus where
  | idle
  | running
  /-- The last run failed. -/
  | failed
deriving DecidableEq, Repr

/-- The name of a status. -/
def TaskStatus.name : TaskStatus → String
  | .idle => "IDLE"
  | .running => "RUNNING"
  | .failed => "FAILED"

/-- A recurring task and what has come of it so far. -/
structure Task where
  name : String
  schedule : Schedule
  job : Job
  status : TaskStatus := .idle
  lastRun : Option Instant := none
  nextRun : Option Instant := none
  runCount : Nat := 0
  failureCount : Nat := 0
  skippedCount : Nat := 0
  lastError : Option String := none
deriving DecidableEq

namespace Task

/-- Starts a run at `now`, unless one is under way; tells whether it did. -/
def begin (task : Task) (now : Instant) : Bool × Task :=
  if task.status = .running then (false, { task with skippedCount := task.skippedCount + 1 })
  else (true, { task with status := .running, lastRun := some now })

/-- Ends a run, with an error if it failed. -/
def finish (task : Task) (error : Option String) : Task :=
  { task with
    runCount := task.runCount + 1
    failureCount := task.failureCount + (if error.isSome then 1 else 0)
    lastError := error
    status := if error.isSome then .failed else .idle }

/-- The fire after the one for `due`, which came at `now`: the next of the schedule, or, if that is
in the past already, the next after `now`. -/
def following (task : Task) (due now : Instant) : Time.Checked (Option Instant) := do
  match ← task.schedule.next due with
  | some next => if next < now then task.schedule.next now else return some next
  | none => return none

end Task

end Pulse
