import Pulse.Proofs.Scheduler.Shifts
import Pulse.Proofs.System.Frames
import Pulse.System.Scheduling

/-!
# The scheduler at work, in any order

Drivers, runs and calls to start and stop take turns in any order: a driver does not wait for the
run that it has begun, a run takes as long as it takes, and a shift that was told to stop can still
be at work when the next one begins.  What the tasks show is right all the same.

A `Crew` is a system together with its `Hand`s, which are the drivers and runs that have not ended
and the calls that wait for the end of a shift, and with a book for each task.  A `Move` is what one
of them does until it waits.  What a task is there for can be anything that leaves the scheduler
alone.

* `Action.Onward` — how a driver goes on.
* `Crew.after`, `Crew.afterAll` — the crew after a move, and after moves one after the other.
-/

set_option autoImplicit false

namespace Pulse

open Activity (Meets Progress run_bind)
open Time (Instant)

/-! ## Stretches -/

namespace Action

variable {k i t : Nat} {s : System} {started : List Process}

/-! ### Drivers -/

/-- How a driver goes on from a state: it crashes or ends, or it has set the next fire of its task and
waits for it, if there is one. -/
inductive Onward (k i : Nat) (s : System) (started : List Process) :
    Progress System Process (Option Process) × System × List Process → Prop
  | crashed : Onward k i s started (.crashed, s, started)
  | ended : Onward k i s started (.finished none, s, started)
  | awaits (next : Option Instant) :
    Onward k i s started (.finished (next.map (.driverLoop k i)),
      { s with scheduler := s.scheduler.update i fun task => { task with nextRun := next } },
      started)

theorem Onward.started_eq
    {ending : Progress System Process (Option Process) × System × List Process}
    (h : Onward k i s started ending) : ending.2.2 = started := by
  cases h <;> rfl

theorem onward_beginDriver (k i t : Nat) (s : System) :
    Onward k i s [] ((beginDriver k i).run t s []) := by
  rw [beginDriver, run_state_bind]
  cases s.scheduler.tasks[i]? with
  | none => exact .ended
  | some task =>
    dsimp only
    rw [run_now_bind]
    cases s.moment? t with
    | none => exact .crashed
    | some now =>
      dsimp only
      rw [run_checked_bind]
      cases task.schedule.next now with
      | error _ => exact .crashed
      | ok next =>
        cases next with
        | none => exact .ended
        | some due => exact .awaits (some due)

theorem run_fire (k i t : Nat) (s : System) (started : List Process) :
    (fire k i).run t s started = match s.moment? t with
      | none => (.crashed, s, started)
      | some now => (.finished (), { s with scheduler := (s.scheduler.fire k i now).2 },
          if (s.scheduler.fire k i now).1 then started ++ [.run k i] else started) := by
  rw [fire, run_state_bind, run_now_bind]
  cases s.moment? t with
  | none => rfl
  | some now =>
    dsimp only
    generalize s.scheduler.fire k i now = fired
    obtain ⟨begun, scheduler⟩ := fired
    cases begun <;> rfl

theorem run_proceed_of_stop {due : Instant} (h : driversStop k s = true) (t : Nat) :
    (proceed k i due).run t s [] = (.finished none, s, []) := by
  rw [proceed, run_state_bind, if_pos h]
  rfl

theorem run_proceed_of_none {due : Instant} (h : driversStop k s = false)
    (hnow : s.moment? t = none) : (proceed k i due).run t s [] = (.crashed, s, []) := by
  rw [proceed, run_state_bind, h, if_neg Bool.false_ne_true, run_bind, run_fire, hnow]

theorem onward_proceed {due now : Instant} (h : driversStop k s = false)
    (hnow : s.moment? t = some now) :
    Onward k i { s with scheduler := (s.scheduler.fire k i now).2 }
      (if (s.scheduler.fire k i now).1 then [.run k i] else []) ((proceed k i due).run t s []) := by
  rw [proceed, run_state_bind, h, if_neg Bool.false_ne_true, run_bind, run_fire, hnow]
  dsimp only
  rw [List.nil_append]
  generalize (if (s.scheduler.fire k i now).1 = true then [Process.run k i] else []) = started
  generalize hs : ({ s with scheduler := (s.scheduler.fire k i now).2 } : System) = s'
  rw [run_state_bind]
  cases s'.scheduler.tasks[i]? with
  | none => exact .ended
  | some task =>
    dsimp only
    rw [run_now_bind]
    cases s'.moment? t with
    | none => exact .crashed
    | some now' =>
      dsimp only
      rw [run_checked_bind]
      cases task.following due now' with
      | error _ => exact .crashed
      | ok next => exact .awaits next

/-! ### Calls -/

/-- A call that starts the drivers: nothing happens, or there is a driver for each task. -/
theorem run_startScheduler (linked : Bool) (t : Nat) (s : System) :
    (startScheduler linked).run t s [] =
      if s.scheduler.isRunning then (.finished (.error .alreadyRunning), s, [])
      else
        match s.moment? t with
        | none => (.crashed, s, [])
        | some now =>
          match s.scheduler.start linked now with
          | .error e => (.finished (.error e), s, [])
          | .ok scheduler => (.finished (.ok ()), { s with scheduler },
              (List.range scheduler.tasks.length).map (.driver (scheduler.shifts.length - 1))) := by
  rw [startScheduler, run_state_bind]
  split_ifs with hrunning
  · rfl
  rw [run_state_bind, run_now_bind]
  cases s.moment? t with
  | none => rfl
  | some now =>
    dsimp only
    cases s.scheduler.start linked now with
    | error e => rfl
    | ok scheduler =>
      dsimp only
      rw [run_modifyScheduler_bind, run_bind, run_launchAll]
      rfl

/-- A call that tells the drivers to stop. -/
theorem run_haltScheduler (t : Nat) (s : System) :
    haltScheduler.run t s [] = match s.scheduler.stop with
      | .error e => (.finished (.error e), s, [])
      | .ok (k, scheduler) => (.finished (.ok k), { s with scheduler }, []) := by
  rw [haltScheduler, run_state_bind]
  cases s.scheduler.stop <;> rfl

end Action

/-! ## Hands -/

/-- A driver, a run or a call that has not ended. -/
inductive Hand where
  /-- A driver that starts. -/
  | driver (shift task : Nat)
  /-- A driver that waits for a fire. -/
  | driving (shift task : Nat) (due : Instant) (rest : Action Unit)
  | running (shift task : Nat) (rest : Action (Option (Except String Unit)))
  /-- A call that waits for the end of a shift. -/
  | stopping (shift : Nat)

namespace Hand

/-- The place of a hand. -/
def post : Hand → Post
  | driver k i | driving k i _ _ => .driver k i
  | running k i _ => .run k i
  | stopping k => .call k

theorem post_eq_call_iff {hand : Hand} {k : Nat} : hand.post = .call k ↔ hand = .stopping k := by
  cases hand <;> simp [post]

theorem mem_map_post_call_iff {hands : List Hand} {k : Nat} :
    .call k ∈ hands.map post ↔ .stopping k ∈ hands := by
  simp [post_eq_call_iff]

/-- A process of the scheduler that has not begun; a run does the job of its task. -/
def ofProcess? (job : Task → Action (Except String Unit)) : Process → Option Hand
  | .driver k i => some (.driver k i)
  | .driverLoop k i due => some (.driving k i due (Action.awaitDue k due))
  | .run k i => some (.running k i (Action.attempt job i))
  | _ => none

end Hand

/-- A system whose scheduler is used. -/
structure Crew where
  time : Nat
  system : System
  hands : List Hand
  /-- What has happened to each task. -/
  books : Nat → Book
  /-- The shifts for whose end a call has waited. -/
  settled : List Nat
  /-- A job has crashed. -/
  crashed : Bool

namespace Crew

/-- A step of somebody. -/
inductive Move where
  | tick (ms : Nat)
  /-- Something else happens in the system. -/
  | other (change : System → System) (leaves : ∀ s, (change s).scheduler = s.scheduler)
  | start (linked : Bool)
  | stop
  /-- A driver, a run or a call goes on. -/
  | resume (n : Nat)

/-- A scheduler whose tasks were never fired, in a system. -/
def start (s : System) : Crew where
  time := 0
  system := { s with scheduler := {
    tasks := s.scheduler.tasks.map fun task =>
      { name := task.name, schedule := task.schedule, job := task.job }
    timeout := s.scheduler.timeout } }
  hands := []
  books := fun _ => {}
  settled := []
  crashed := false

/-- The crew without somebody who was at work in a shift. -/
def without (crew : Crew) (k : Nat) : Crew :=
  { crew with system := { crew.system with scheduler := crew.system.scheduler.endProcess k } }

section

variable (job : Task → Action (Except String Unit))

/-- The crew with the processes that were started. -/
def join (crew : Crew) (started : List Process) : Crew :=
  { crew with hands := crew.hands ++ started.filterMap (Hand.ofProcess? job) }

/-- A driver has come to the end of a stretch. -/
def next (crew : Crew) (k : Nat) :
    Progress System Process (Option Process) × System × List Process → Crew
  | (.finished (some process), system, started) =>
    { crew with system }.join job (started ++ [process])
  | (_, system, started) => ({ crew with system }.join job started).without k

/-- What the book of a task shows of a driver whose waiting is over: there is a fire, unless the
driver is to stop, and a run was begun if it has been started. -/
def noteFire (crew : Crew) (k i : Nat) (started : List Process) : Book :=
  let book := crew.books i
  match crew.system.moment? crew.time with
  | some now =>
    if Action.driversStop k crew.system then book
    else
      let fired := book.fire (crew.system.scheduler.runs i)
      if .run k i ∈ started then fired.begin now else fired
  | none => book

/-- The waiting of a driver is over. -/
def proceed (crew : Crew) (k i : Nat) (due : Instant) : Crew :=
  let ending := (Action.proceed k i due).run crew.time crew.system []
  { crew with books := Function.update crew.books i (crew.noteFire k i ending.2.2) }.next job k
    ending

/-- The job of a run has ended. -/
def conclude (crew : Crew) (k i : Nat) (outcome : Option (Except String Unit)) : Crew :=
  let (_, system, _) := (Action.conclude i outcome).run crew.time crew.system []
  { crew with
    system
    books := Function.update crew.books i ((crew.books i).finish outcome) }.without k

/-- A hand goes on until it waits. -/
def work (crew : Crew) : Hand → Crew
  | .driver k i => crew.next job k ((Action.beginDriver k i).run crew.time crew.system [])
  | .driving k i due rest =>
    match rest.run crew.time crew.system [] with
    | (.waiting rest, system, _) =>
      { crew with system, hands := crew.hands ++ [.driving k i due rest] }
    | (.finished (), system, _) => { crew with system }.proceed job k i due
    | (.crashed, system, _) => { crew with system }.without k
  | .running k i rest =>
    match rest.run crew.time crew.system [] with
    | (.waiting rest, system, _) =>
      { crew with system, hands := crew.hands ++ [.running k i rest] }
    | (.finished outcome, system, _) => { crew with system }.conclude k i outcome
    | (.crashed, system, _) => { crew with system, crashed := true }.without k
  | .stopping k =>
    if crew.system.scheduler.isOver k then
      { crew with
        system := { crew.system with scheduler := crew.system.scheduler.clearFires }
        settled := crew.settled ++ [k] }
    else { crew with hands := crew.hands ++ [.stopping k] }

/-- The crew after a move. -/
def after (crew : Crew) : Move → Crew
  | .tick ms => { crew with time := crew.time + ms }
  | .other change _ => { crew with system := change crew.system }
  | .start linked =>
    let (_, system, started) :=
      (Action.startScheduler linked).run crew.time crew.system []
    { crew with system }.join job started
  | .stop =>
    match Action.haltScheduler.run crew.time crew.system [] with
    | (.finished (.ok k), system, _) =>
      { crew with system, hands := crew.hands ++ [.stopping k] }
    | (_, system, _) => { crew with system }
  | .resume n =>
    match crew.hands[n]? with
    | some hand => { crew with hands := crew.hands.eraseIdx n }.work job hand
    | none => crew

/-- The crew after moves, one after the other. -/
def afterAll (crew : Crew) (moves : List Move) : Crew :=
  moves.foldl (after job) crew

end

end Crew

end Pulse
