import Pulse.Config.Check
import Pulse.Proofs.Activity.Endures
import Pulse.Proofs.Bus.Queues
import Pulse.Proofs.Monitor.Judgement
import Pulse.Proofs.System.Stretches
import Pulse.System.Passing

/-!
# Steps that do not crash

The program crashes where a computation with times leaves the calendar, where a queue is too large
for the machine and where a clock cannot show the next tick.  Whether that happens depends on parts
of the system that its work never touches, and on what the clock shows.

`System.Bearable` says which values of these parts are safe.  What activities rely on, `J`, is
`System.Robust` if it says that the parts are so and if nothing matters to it but these parts and
the tasks.  Then the steps of which the program is made endure, and the rules for them are stated
here for any such `J`.
-/

set_option autoImplicit false

namespace Pulse

open Activity (Endures)
open Time (Instant)

/-! ## Safe values -/

/-- The longest time between two ticks, in seconds, of which the nanoseconds can be written with 64
bits. -/
def maxTick : Nat := 18446744073

/-- Settings with which the monitor does not crash. -/
structure MonitoringSettings.Bearable (m : MonitoringSettings) : Prop where
  grace : Decimal.isNegative m.graceMultiplier = false
  tick : ∀ period, m.tickInterval = some period → period ≠ 0 ∧ period ≤ maxTick

/-- A job that does not crash: it keeps no more days than the calendar has before the year 1970. -/
def Job.Bearable : Job → Prop
  | .retention days => (days : Int) ≤ -Time.firstDay
  | _ => True

namespace System

/-- Nothing in the system makes its work crash. -/
structure Bearable (s : System) : Prop where
  capacity : s.bus.capacity ≤ Bus.maxCapacity
  settings : s.monitor.settings.Bearable
  jobs : ∀ task ∈ s.scheduler.tasks, task.job.Bearable

/-- The clock began to run at `origin` and shows a reading. -/
structure Steady (origin : Instant) (t : Nat) (s : System) : Prop extends s.Bearable where
  origin_eq : s.origin = origin
  reading : ∃ now, s.moment? t = some now ∧ now.IsReading

/-- The parts are the same that decide about crashes. -/
structure Frame (s s' : System) : Prop where
  origin : s'.origin = s.origin := by rfl
  capacity : s'.bus.capacity = s.bus.capacity := by rfl
  settings : s'.monitor.settings = s.monitor.settings := by rfl
  tasks : s'.scheduler.tasks = s.scheduler.tasks := by rfl

theorem Frame.steady {origin : Instant} {t : Nat} {s s' : System} (h : s.Frame s')
    (hs : s.Steady origin t) : s'.Steady origin t where
  capacity := h.capacity.trans_le hs.capacity
  settings := h.settings ▸ hs.settings
  jobs := h.tasks ▸ hs.jobs
  origin_eq := h.origin.trans hs.origin_eq
  reading := by
    obtain ⟨now, hnow, hreading⟩ := hs.reading
    exact ⟨now, by rwa [moment?, h.origin], hreading⟩

/-- A clock does not show readings for much longer than the years in which there are any. -/
theorem Steady.time_le {origin : Instant} {t : Nat} {s : System} (hs : s.Steady origin t)
    (horigin : origin.IsReading) : t ≤ 253402300802000 := by
  obtain ⟨now, hnow, hreading⟩ := hs.reading
  rw [moment?, hs.origin_eq] at hnow
  have hspan : Time.Span.ofMillis t = (t * 1000000 : Int) := rfl
  rw [hspan] at hnow
  have hnanos := (Instant.nanos_of_add?_bounds (by omega) hnow).1
  have horigin := Instant.isReading_iff.1 horigin
  have hday := Instant.isReading_iff.1 hreading
  have hsecond := now.second_lt
  have hnano := now.nano_lt
  simp only [Instant.nanos] at hnanos
  omega

/-- Activities rely on this: the system is steady, and neither the rest of it matters nor who else
is at work. -/
structure Robust (origin : Instant) (J : Nat → System → List Process → Prop) : Prop where
  steady : ∀ {t s ps}, J t s ps → s.Steady origin t
  frame : ∀ {t s s' ps}, J t s ps → s.Frame s' → J t s' ps
  join : ∀ {t s ps} (p), J t s ps → J t s (ps ++ [p])

end System

/-! ## Steps -/

namespace System.Robust

open Pulse.Action

variable {origin : Instant} {J : Nat → System → List Process → Prop}
  (hJ : System.Robust origin J) {t : Nat} {s : System} {ps : List Process}
include hJ

theorem endures_now {Q : Instant → Nat → System → List Process → Prop} (hs : J t s ps)
    (h : ∀ now, s.moment? t = some now → now.IsReading → Q now t s ps) :
    Endures J Q now t s ps := by
  obtain ⟨now, hnow, hreading⟩ := (hJ.steady hs).reading
  refine Endures.bind (Endures.clock (Endures.bind (Endures.get ?_)))
  show Endures _ _ (checked (Time.require (s.moment? t))) t s ps
  rw [hnow]
  exact h now hnow hreading

omit hJ in
theorem endures_checked {α : Type} {Q : α → Nat → System → List Process → Prop}
    {x : Time.Checked α} (hx : ∃ a, x = .ok a) (h : ∀ a, x = .ok a → Q a t s ps) :
    Endures J Q (checked x) t s ps := by
  obtain ⟨a, rfl⟩ := hx
  exact h a rfl

theorem endures_modify {Q : Unit → Nat → System → List Process → Prop} {change : System → System}
    (hs : J t s ps) (hchange : s.Frame (change s)) (h : ∀ s, J t s ps → Q () t s ps) :
    Endures J Q (Activity.modify change) t s ps :=
  Endures.modify (h _ (hJ.frame hs hchange))

theorem endures_modifyMonitor {Q : Unit → Nat → System → List Process → Prop}
    {change : Monitor → Monitor} (hs : J t s ps)
    (hchange : (change s.monitor).settings = s.monitor.settings)
    (h : ∀ s, J t s ps → Q () t s ps) : Endures J Q (modifyMonitor change) t s ps :=
  hJ.endures_modify hs { settings := hchange } h

omit hJ in
theorem endures_sleep {Q : Unit → Nat → System → List Process → Prop} (ms : Nat) (hs : J t s ps)
    (h : ∀ t s ps, J t s ps → Q () t s ps) : Endures J Q (Activity.sleep ms) t s ps :=
  Endures.bind (Endures.clock (Endures.waiting hs fun t s ps hs _ => h t s ps hs))

section

variable {form : Store.Form} {request : Store.Request form}
  {Q : Except StorageError form.Answer → Nat → System → List Process → Prop}

theorem endures_answer (hs : J t s ps) (h : ∀ a t s ps, J t s ps → Q a t s ps) :
    Endures J Q (answer request) t s ps := by
  rw [answer, Endures]
  split
  · exact h _ t s ps hs
  · exact h _ t _ ps (hJ.frame hs {})

theorem endures_ask (hs : J t s ps) (h : ∀ a t s ps, J t s ps → Q a t s ps) :
    Endures J Q (ask request) t s ps := by
  refine Endures.bind (Endures.get ?_)
  show Endures _ _ (if _ then _ else _) t s ps
  split
  · exact Endures.bind (endures_sleep _ hs fun t s ps hs => hJ.endures_answer hs h)
  · exact hJ.endures_answer hs h

end

/-- Queues are used without a crash, since they are not too large. -/
theorem endures_useQueues {α : Type} {use : Bus → α × Bus}
    {Q : α → Nat → System → List Process → Prop} (hs : J t s ps)
    (huse : (use s.bus).2.capacity = s.bus.capacity) (h : ∀ a s, J t s ps → Q a t s ps) :
    Endures J Q (useQueues use) t s ps := by
  have hcapacity := (hJ.steady hs).capacity
  have hbearable : s.bus.overtaxes = false := by
    simp only [Bus.overtaxes, Bool.and_eq_false_imp, decide_eq_false_iff_not, not_lt]
    exact fun _ => hcapacity
  show Endures _ _ (if _ then _ else _) t s ps
  rw [hbearable, if_neg Bool.false_ne_true]
  exact h _ _ (hJ.frame hs { capacity := huse })

end System.Robust

end Pulse
