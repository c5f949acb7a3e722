import Pulse.Scheduler.Task
import Pulse.Time.Duration

/-!
# The scheduler

The scheduler starts the runs of recurring tasks.  For each task there is a *driver*, which waits
for the next fire of the schedule and then starts a run; it does not wait for the end of the run, so
a slow run delays no fire.  A run that takes longer than `timeout` is given up.

The drivers of one start and the runs that they begin are a *shift*.  A shift that was told to stop
can still be at work when the next one begins.
-/

set_option autoImplicit false

namespace Pulse

open Time (Instant)

/-- Why the scheduler refuses. -/
inductive SchedulerError where
  | duplicateTask (name : String)
  | invalidSchedule (task : String) (error : ScheduleError)
  | alreadyRunning
  | notRunning
deriving DecidableEq, Repr

/-- The error in words. -/
def SchedulerError.message : SchedulerError → String
  | .duplicateTask name => s!"task '{name}' is already registered"
  | .invalidSchedule task error => s!"task '{task}': {error.message}"
  | .alreadyRunning => "scheduler is already running"
  | .notRunning => "scheduler is not running"

/-- The drivers of one start, and the runs that they have begun. -/
structure Shift where
  /-- The drivers stop together with all else. -/
  linked : Bool
  /-- The drivers were told to stop. -/
  stopping : Bool := false
  /-- The number of drivers and runs that have not ended. -/
  alive : Nat
deriving DecidableEq, Repr

/-- Recurring tasks. -/
structure Scheduler where
  tasks : List Task := []
  /-- The milliseconds that a run may take. -/
  timeout : Nat
  /-- When the drivers were started, while they have not been told to stop. -/
  startedAt : Option Instant := none
  lastStartedAt : Option Instant := none
  /-- One for each start so far. -/
  shifts : List Shift := []

namespace Scheduler

/-- Adds a task. -/
def add (scheduler : Scheduler) (name expression : String) (job : Job) :
    Except SchedulerError Scheduler :=
  if scheduler.tasks.any fun task => task.name = name then .error (.duplicateTask name)
  else
    match Schedule.parse expression with
    | .error error => .error (.invalidSchedule name error)
    | .ok schedule => .ok { scheduler with tasks := scheduler.tasks ++ [{ name, schedule, job }] }

/-- The task of a given name. -/
def task? (scheduler : Scheduler) (name : String) : Option Task :=
  scheduler.tasks.find? fun task => task.name = name

/-- Changes a task, given by its place. -/
def update (scheduler : Scheduler) (i : Nat) (change : Task → Task) : Scheduler :=
  { scheduler with tasks := scheduler.tasks.modify i change }

/-- Changes a shift, given by its number. -/
def updateShift (scheduler : Scheduler) (n : Nat) (change : Shift → Shift) : Scheduler :=
  { scheduler with shifts := scheduler.shifts.modify n change }

/-- The drivers have been started and not been told to stop. -/
def isRunning (scheduler : Scheduler) : Bool :=
  scheduler.startedAt.isSome

/-- The number of tasks in a given status. -/
def countStatus (scheduler : Scheduler) (status : TaskStatus) : Nat :=
  (scheduler.tasks.filter fun task => task.status = status).length

/-- When the scheduler was started, or, if it is not running, when it was started last. -/
def startTime (scheduler : Scheduler) : Option Instant :=
  scheduler.startedAt.or scheduler.lastStartedAt

/-- The state with a shift that has a driver for each task, started at `now`. -/
def start (scheduler : Scheduler) (linked : Bool) (now : Instant) :
    Except SchedulerError Scheduler :=
  if scheduler.isRunning then .error .alreadyRunning
  else
    .ok { scheduler with
      startedAt := some now
      lastStartedAt := some now
      shifts := scheduler.shifts ++ [{ linked, alive := scheduler.tasks.length }] }

/-- Tells the drivers of the last shift to stop, and gives back the number of the shift. -/
def stop (scheduler : Scheduler) : Except SchedulerError (Nat × Scheduler) :=
  if scheduler.isRunning then
    let n := scheduler.shifts.length - 1
    let told := scheduler.updateShift n fun shift => { shift with stopping := true }
    .ok (n, { told with startedAt := none })
  else .error .notRunning

/-- The drivers of a shift are to stop. -/
def isStopping (scheduler : Scheduler) (n : Nat) (cancelled : Bool) : Bool :=
  scheduler.shifts[n]?.any fun shift => shift.stopping || (shift.linked && cancelled)

/-- All drivers and runs of a shift have ended. -/
def isOver (scheduler : Scheduler) (n : Nat) : Bool :=
  scheduler.shifts[n]?.all fun shift => shift.alive = 0

/-- The state after the beginning of a run in a shift. -/
def beginProcess (scheduler : Scheduler) (n : Nat) : Scheduler :=
  scheduler.updateShift n fun shift => { shift with alive := shift.alive + 1 }

/-- The state after the end of a driver or a run of a shift. -/
def endProcess (scheduler : Scheduler) (n : Nat) : Scheduler :=
  scheduler.updateShift n fun shift => { shift with alive := shift.alive - 1 }

/-- A driver of a shift starts a run of its task at `now`, unless one is under way; tells whether it
did. -/
def fire (scheduler : Scheduler) (n i : Nat) (now : Instant) : Bool × Scheduler :=
  match scheduler.tasks[i]? with
  | none => (false, scheduler)
  | some task =>
    let (begun, task) := task.begin now
    let fired := scheduler.update i fun _ => task
    (begun, if begun then fired.beginProcess n else fired)

/-- The state without fires to come. -/
def clearFires (scheduler : Scheduler) : Scheduler :=
  { scheduler with tasks := scheduler.tasks.map fun task => { task with nextRun := none } }

/-- The error of a run that was given up. -/
def timeoutMessage (scheduler : Scheduler) : String :=
  s!"timed out after {Time.durationText scheduler.timeout}"

/-- The error of a run, by what came of its job; `none` if the job was given up. -/
def runError (scheduler : Scheduler) : Option (Except String Unit) → Option String
  | some (.ok ()) => none
  | some (.error e) => some e
  | none => some scheduler.timeoutMessage

end Scheduler

end Pulse
