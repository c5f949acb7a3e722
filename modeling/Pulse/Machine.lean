import Pulse.Activity

/-!
# Virtual time

A `Machine` runs processes on a clock of its own.  The clock stands still while any process has
something to do; then it moves to the next alarm.

* A process is a row of activities: each ends by naming the process that goes on in its place, or
  none.
* `settle` lets all processes run until each waits.
* `advance` moves the clock from alarm to alarm, `leap` at once; `await` moves it until an activity
  of the caller has ended.

A process whose alarm rang first runs first, and processes that were waiting for the state run in
the order in which they came to wait.
-/

set_option autoImplicit false

namespace Pulse

/-- What the processes of a machine do. -/
structure Program (σ π : Type) where
  /-- What a process does, and which process goes on in its place. -/
  body : π → Activity σ π (Option π)
  /-- What the end of a process does to the state, also if it crashed. -/
  epilogue : π → σ → σ

/-- A process that waits. -/
structure Waiting (σ π : Type) where
  process : π
  rest : Activity σ π (Option π)

/-- Processes on a clock of their own. -/
structure Machine (σ π : Type) where
  program : Program σ π
  time : Nat
  state : σ
  waiting : List (Waiting σ π)

/-- How an activity of the caller ended. -/
inductive Ending (α : Type) where
  | value (a : α)
  | crashed
  /-- It waits for something that will never happen. -/
  | stuck

namespace Machine

variable {σ π α : Type}

/-- A machine on which nothing runs, at time zero. -/
def start (program : Program σ π) (state : σ) : Machine σ π :=
  ⟨program, 0, state, []⟩

/-- A bound on what a machine does in one go, beyond all that happens in practice. -/
def patience : Nat := 1000000000

/-- Adds processes that have not begun. -/
def launch (m : Machine σ π) (ps : List π) : Machine σ π :=
  { m with waiting := m.waiting ++ ps.map fun p => ⟨p, m.program.body p⟩ }

/-- Lets a process run until it waits or ends; the processes that it starts come before it. -/
def runProcess (m : Machine σ π) (w : Waiting σ π) : Machine σ π :=
  let (progress, state, started) := w.rest.run m.time m.state []
  let m := { m with state }.launch started
  match progress with
  | .waiting rest => { m with waiting := m.waiting ++ [⟨w.process, rest⟩] }
  | .finished (some p) => m.launch [p]
  | .finished none | .crashed => { m with state := m.program.epilogue w.process m.state }

/-- The process is to run before another one: its alarm rang, and earlier. -/
def Waiting.precedes (t : Nat) (v w : Waiting σ π) : Bool :=
  match v.rest.alarm?, w.rest.alarm? with
  | some a, some b => a ≤ t && (a < b)
  | some a, none => a ≤ t
  | none, _ => false

/-- The process that runs next, and the others in their order. -/
def pick (t : Nat) (s : σ) :
    List (Waiting σ π) → Option (Waiting σ π × List (Waiting σ π))
  | [] => none
  | w :: rest =>
    if w.rest.isReady t s then
      match pick t s rest with
      | some (v, others) =>
        if Waiting.precedes t v w then some (v, w :: others) else some (w, rest)
      | none => some (w, rest)
    else (pick t s rest).map fun (v, others) => (v, w :: others)

/-- Lets one process run, if one is ready. -/
def step? (m : Machine σ π) : Option (Machine σ π) :=
  (pick m.time m.state m.waiting).map fun (w, others) =>
    { m with waiting := others }.runProcess w

/-- Lets processes run until all wait. -/
def settleFor : Nat → Machine σ π → Machine σ π
  | 0, m => m
  | n + 1, m =>
    match m.step? with
    | some m => settleFor n m
    | none => m

/-- Lets processes run until all wait. -/
def settle (m : Machine σ π) : Machine σ π :=
  settleFor patience m

/-- The first alarm that a process waits for. -/
def nextAlarm? (m : Machine σ π) : Option Nat :=
  m.waiting.foldl (fun a w => Activity.earlier a w.rest.alarm?) none

/-- Moves the clock from alarm to alarm up to `target`. -/
def advanceFor (target : Nat) : Nat → Machine σ π → Machine σ π
  | 0, m => m
  | n + 1, m =>
    let m := m.settle
    match m.nextAlarm? with
    | some alarm =>
      if alarm ≤ target then advanceFor target n { m with time := max m.time alarm }
      else { m with time := target }
    | none => { m with time := target }

/-- Lets time pass.  What is due at the end has happened, too. -/
def advance (m : Machine σ π) (ms : Nat) : Machine σ π :=
  (advanceFor (m.time + ms) patience m).settle

/-- Moves the clock at once.  What was due in between happens late. -/
def leap (m : Machine σ π) (ms : Nat) : Machine σ π :=
  { m with time := m.time + ms }.settle

/-- Runs an activity to its end, with all else that happens meanwhile. -/
def awaitFor : Nat → Machine σ π → Activity σ π α → Ending α × Machine σ π
  | 0, m, _ => (.stuck, m)
  | n + 1, m, a =>
    if a.isReady m.time m.state then
      let (progress, state, started) := a.run m.time m.state []
      let m := { m with state }.launch started
      match progress with
      | .finished a => (.value a, m)
      | .crashed => (.crashed, m)
      | .waiting rest => awaitFor n m rest
    else
      match m.step? with
      | some m => awaitFor n m a
      | none =>
        match Activity.earlier m.nextAlarm? a.alarm? with
        | some alarm => awaitFor n { m with time := max m.time alarm } a
        | none => (.stuck, m)

/-- Runs an activity to its end, and then all processes until they wait. -/
def await (m : Machine σ π) (a : Activity σ π α) : Ending α × Machine σ π :=
  let (ending, m) := awaitFor patience m a
  (ending, m.settle)

end Machine

end Pulse
