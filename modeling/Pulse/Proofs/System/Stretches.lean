import Pulse.Proofs.Activity
import Pulse.System

/-!
# Stretches of the program's steps

What the steps from which the program is made do when they run: reading the state, changing a part
of it, reading the clock.
-/

set_option autoImplicit false

namespace Pulse

open Activity (run_bind)
open Time (Instant)

/-- The moment that the clock of a system shows. -/
def System.moment? (s : System) (t : Nat) : Option Instant :=
  s.origin.add? (Time.Span.ofMillis t)

namespace Action

variable {α β : Type} (t : Nat) (s : System) (started : List Process)

theorem run_state_bind (f : System → Action α) :
    (state >>= f).run t s started = (f s).run t s started :=
  rfl

theorem run_clock_bind (f : Nat → Action α) :
    (Activity.clock >>= f).run t s started = (f t).run t s started :=
  rfl

theorem run_modifyScheduler_bind (change : Scheduler → Scheduler) (f : Unit → Action α) :
    (modifyScheduler change >>= f).run t s started =
      (f ()).run t { s with scheduler := change s.scheduler } started :=
  rfl

theorem run_modifyMonitor_bind (change : Monitor → Monitor) (f : Unit → Action α) :
    (modifyMonitor change >>= f).run t s started =
      (f ()).run t { s with monitor := change s.monitor } started :=
  rfl

theorem run_checked_bind (x : Time.Checked α) (f : α → Action β) :
    (checked x >>= f).run t s started = match x with
      | .ok a => (f a).run t s started
      | .error _ => (.crashed, s, started) := by
  cases x <;> rfl

theorem run_now_bind (f : Instant → Action α) :
    (now >>= f).run t s started = match s.moment? t with
      | some now => (f now).run t s started
      | none => (.crashed, s, started) := by
  show (checked (Time.require (s.moment? t)) >>= f).run t s started = _
  rw [run_checked_bind]
  cases s.moment? t <;> rfl

theorem run_launchAll {ι : Type} (process : ι → Process) (items : List ι) :
    Activity.run t (forIn items PUnit.unit fun i _ => do
        Activity.launch (process i)
        pure (ForInStep.yield PUnit.unit) : Action PUnit) s started =
      (.finished PUnit.unit, s, started ++ items.map process) := by
  induction items generalizing started with
  | nil =>
    rw [List.forIn_nil, List.map_nil, List.append_nil]
    rfl
  | cons i items ih =>
    rw [List.forIn_cons, run_bind, List.map_cons, List.append_cons]
    exact ih (started ++ [process i])

end Action

end Pulse
