/-!
# Activities

An `Activity` is something that takes its time: a row of steps over a shared state of type `σ`, with
waiting in between.  Nothing happens between two steps of an activity unless it waits; while it
waits, others change the state and the clock goes on.  The clock counts whole milliseconds.

* `wait` goes on as soon as the state is `ready` or the clock reaches the `alarm`.  An activity that
  is given up while it waits leaves the state as `abandon` says.
* `spawn` starts a process, of which an activity only knows the description, of type `π`.
* `crash` ends an activity because of an error that nobody handles.

`within` gives an activity up at a deadline, and `guarded` does something to the state however an
activity ends.
-/

set_option autoImplicit false

namespace Pulse

/-- Steps over a shared state, with waiting in between. -/
inductive Activity (σ π α : Type) where
  | done (a : α)
  | crash
  /-- Reads the clock and the state. -/
  | look (next : Nat → σ → Activity σ π α)
  /-- Sets the state. -/
  | put (s : σ) (next : Activity σ π α)
  | wait (ready : σ → Bool) (alarm : Option Nat) (abandon : σ → σ) (next : Activity σ π α)
  | spawn (p : π) (next : Activity σ π α)

namespace Activity

variable {σ π α β : Type}

/-- One activity after the other. -/
def bind : Activity σ π α → (α → Activity σ π β) → Activity σ π β
  | done a, f => f a
  | crash, _ => crash
  | look next, f => look fun t s => (next t s).bind f
  | put s next, f => put s (next.bind f)
  | wait ready alarm abandon next, f => wait ready alarm abandon (next.bind f)
  | spawn p next, f => spawn p (next.bind f)

instance : Monad (Activity σ π) where
  pure := done
  bind := bind

/-- The time on the clock. -/
def clock : Activity σ π Nat :=
  look fun t _ => done t

/-- The state. -/
def get : Activity σ π σ :=
  look fun _ s => done s

/-- Changes the state. -/
def modify (change : σ → σ) : Activity σ π Unit :=
  look fun _ s => put (change s) (done ())

/-- Starts a process. -/
def launch (p : π) : Activity σ π Unit :=
  spawn p (done ())

/-- Waits until the clock reaches `t`. -/
def sleepUntil (t : Nat) : Activity σ π Unit :=
  wait (fun _ => false) (some t) id (done ())

/-- Waits for so many milliseconds. -/
def sleep (ms : Nat) : Activity σ π Unit := do
  sleepUntil ((← clock) + ms)

/-- Waits until the state is ready. -/
def waitFor (ready : σ → Bool) : Activity σ π Unit :=
  wait ready none id (done ())

/-- The earlier of two alarms. -/
def earlier : Option Nat → Option Nat → Option Nat
  | some a, some b => some (min a b)
  | some a, none => some a
  | none, b => b

/-- An alarm has gone off. -/
def rang (alarm : Option Nat) (t : Nat) : Bool :=
  alarm.any fun a => a ≤ t

/-- Gives an activity up at a deadline.  What is due by then is still done. -/
def within (deadline : Nat) : Activity σ π α → Activity σ π (Option α)
  | done a => done (some a)
  | crash => crash
  | look next => look fun t s => within deadline (next t s)
  | put s next => put s (within deadline next)
  | wait ready alarm abandon next =>
    wait ready (earlier alarm (some deadline)) abandon <|
      look fun t s =>
        if ready s || rang alarm t then within deadline next
        else put (abandon s) (done none)
  | spawn p next => spawn p (within deadline next)

/-- Changes the state at the end of an activity, also if it crashes or is given up. -/
def guarded (release : σ → σ) : Activity σ π α → Activity σ π α
  | done a => look fun _ s => put (release s) (done a)
  | crash => look fun _ s => put (release s) crash
  | look next => look fun t s => guarded release (next t s)
  | put s next => put s (guarded release next)
  | wait ready alarm abandon next =>
    wait ready alarm (fun s => release (abandon s)) (guarded release next)
  | spawn p next => spawn p (guarded release next)

/-! ## Running -/

/-- How far an activity gets without the clock going on. -/
inductive Progress (σ π α : Type) where
  | finished (a : α)
  | crashed
  /-- It waits, and this is what remains. -/
  | waiting (rest : Activity σ π α)

/-- Runs an activity at time `t` until it has to wait; gives back the state and the processes that
were started, those in `started` before. -/
def run (t : Nat) : Activity σ π α → σ → List π → Progress σ π α × σ × List π
  | done a, s, started => (.finished a, s, started)
  | crash, s, started => (.crashed, s, started)
  | look next, s, started => run t (next t s) s started
  | put s next, _, started => run t next s started
  | wait ready alarm abandon next, s, started =>
    if ready s || rang alarm t then run t next s started
    else (.waiting (wait ready alarm abandon next), s, started)
  | spawn p next, s, started => run t next s (started ++ [p])

/-- The alarm that an activity waits for. -/
def alarm? : Activity σ π α → Option Nat
  | wait _ alarm _ _ => alarm
  | _ => none

/-- The activity does not have to wait any longer. -/
def isReady (t : Nat) (s : σ) : Activity σ π α → Bool
  | wait ready alarm _ _ => ready s || rang alarm t
  | _ => true

end Activity

end Pulse
