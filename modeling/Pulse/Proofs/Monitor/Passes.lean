import Pulse.Proofs.System.Frames

/-!
# What a pass does to the monitor

A pass takes the guard of passes, and gives it back however it ends: when its report is kept, when
it crashes, and when whoever makes it is interrupted.  As long as it waits, it leaves the monitor
alone.

* `PassStep`, `HoldsGuard.run` — what a pass under way does to the monitor in a stretch.
* `PassBegin`, `passBegin_run` — what an attempt at a pass does in its first stretch.
-/

set_option autoImplicit false

namespace Pulse

open Activity (Meets Progress)
open Time (Instant)

namespace Action

variable {t : Nat} {s : System} {rest : Action PassOutcome}

theorem storeFree_unmonitored : System.StoreFree System.Unmonitored :=
  fun _ _ _ => rfl

/-- What is left of a pass that has taken the guard and waits. -/
def HoldsGuard (rest : Action PassOutcome) : Prop :=
  ∃ (started : Nat) (looking : Action PassReport),
    rest = Activity.guarded release (looking >>= keepReport started) ∧ looking.Waits ∧
      ∀ t s, looking.Meets System.Unmonitored (fun _ _ _ => True) t s

/-- What comes of a stretch of a pass that has taken the guard. -/
inductive PassStep (monitor : Monitor) : Progress System Process PassOutcome → Monitor → Prop
  | waiting {rest : Action PassOutcome} (h : HoldsGuard rest) :
    PassStep monitor (.waiting rest) monitor
  | completed (report : PassReport) :
    PassStep monitor (.finished (.completed report)) (monitor.record report).leave
  | crashed : PassStep monitor .crashed monitor.leave

/-- What comes of the first stretch of an attempt at a pass. -/
inductive PassBegin (monitor : Monitor) : Progress System Process PassOutcome → Monitor → Prop
  /-- The clock shows no time. -/
  | lost : PassBegin monitor .crashed monitor
  | skipped (h : monitor.passing = true) :
    PassBegin monitor (.finished .skipped) monitor.skip
  | entered {progress : Progress System Process PassOutcome} {monitor' : Monitor}
    (h : monitor.passing = false)
    (hstep : PassStep { monitor with passing := true } progress monitor') :
    PassBegin monitor progress monitor'

/-- Looking for silent servers under the guard. -/
theorem passStep_run {looking : Action PassReport} (started : Nat)
    (h : looking.Meets System.Unmonitored (fun _ _ _ => True) t s) :
    PassStep s.monitor
      ((Activity.guarded release (looking >>= keepReport started)).run t s []).1
      ((Activity.guarded release (looking >>= keepReport started)).run t s []).2.1.monitor := by
  obtain ⟨hmonitor, hrest⟩ := h.run System.Unmonitored.refl
    (fun _ _ _ _ => System.Unmonitored.trans) []
  rw [Activity.run_guarded, Activity.run_bind]
  cases hrun : looking.run t s [] with
  | mk progress ending =>
    obtain ⟨s', launched⟩ := ending
    rw [hrun] at hmonitor hrest
    have hmonitor : s'.monitor = s.monitor := hmonitor
    rw [← hmonitor]
    cases progress with
    | finished report => exact .completed { report with duration := t - started }
    | crashed => exact .crashed
    | waiting rest => exact .waiting ⟨started, rest, rfl, Activity.waits_of_run hrun, hrest⟩

/-- **A pass under way** waits, completes or crashes, and gives the guard back unless it waits. -/
theorem HoldsGuard.run (h : HoldsGuard rest) (t : Nat) (s : System) :
    PassStep s.monitor (rest.run t s []).1 (rest.run t s []).2.1.monitor := by
  obtain ⟨started, looking, rfl, -, hlooking⟩ := h
  exact passStep_run started (hlooking t s)

/-- A pass that is given up gives the guard back. -/
theorem HoldsGuard.giveUp (h : HoldsGuard rest) (s : System) :
    (rest.giveUp s).monitor = s.monitor.leave := by
  obtain ⟨started, looking, rfl, hwaits, hlooking⟩ := h
  have hmonitor : (looking.giveUp s).monitor = s.monitor :=
    Activity.Meets.giveUp hlooking hwaits 0 s
  rw [Activity.giveUp_guarded (hwaits.bind _), Activity.giveUp_bind hwaits]
  exact congrArg Monitor.leave hmonitor

theorem passBegin_runAt (now : Instant) (t : Nat) (s : System) :
    PassBegin s.monitor ((passAt now).run t s []).1 ((passAt now).run t s []).2.1.monitor := by
  rw [passAt, run_state_bind]
  cases hpassing : s.monitor.passing with
  | true =>
    rw [Monitor.enter, if_pos hpassing]
    exact .skipped hpassing
  | false =>
    rw [Monitor.enter, hpassing, if_neg Bool.false_ne_true]
    dsimp only
    rw [run_modifyMonitor_bind, if_pos rfl]
    have hlooking (s : System) : Meets System.Unmonitored (fun _ _ _ => True)
        (scan s.monitor.settings now) t s :=
      storeFree_unmonitored.meets_scan _ now fun _ _ _ => trivial
    exact .entered hpassing (passStep_run t (hlooking { s with
      monitor := { s.monitor with passing := true } }))

/-- **An attempt at a pass** is skipped if a pass is under way, and otherwise takes the guard. -/
theorem passBegin_run (t : Nat) (s : System) :
    PassBegin s.monitor (pass.run t s []).1 (pass.run t s []).2.1.monitor := by
  rw [pass, run_now_bind]
  cases s.moment? t with
  | none => exact .lost
  | some now => exact passBegin_runAt now t s

end Action

end Pulse
