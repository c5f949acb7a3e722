import Pulse.Proofs.System.Frames
import Pulse.System.Scheduling

/-!
# What jobs leave alone

A job reads and changes the store and the monitor, and it can deliver a report.  It never touches
the scheduler that runs it.

* `Action.meets_doJob` — so it is for each job, whatever happens while it waits.
-/

set_option autoImplicit false

namespace Pulse

open Activity (Meets)
open Pulse.System (Unscheduled)
open Time (Date)

theorem storeFree_unscheduled : System.StoreFree Unscheduled :=
  fun _ _ _ => rfl

namespace Action

variable {t : Nat} {s : System}

/-! ## Looking for silent servers -/

theorem meets_pass (t : Nat) (s : System) {Q : PassOutcome → Nat → System → Prop}
    (h : ∀ outcome t s, Q outcome t s) : Meets Unscheduled Q pass t s := by
  refine Meets.bind (meets_now fun now _ => Meets.bind (Meets.get (Meets.bind ?_)))
  refine Meets.modify rfl ?_
  show Meets _ _ (if _ then _ else _) t _
  split
  · refine Meets.guarded (fun _ _ _ _ => Unscheduled.trans) (fun _ _ => rfl) ?_
    refine Meets.bind (Meets.get (Meets.bind (Meets.clock (Meets.bind ?_))))
    refine storeFree_unscheduled.meets_scan _ now fun report t s => ?_
    exact Meets.bind (Meets.clock (Meets.bind (Meets.modify rfl (h _ t _))))
  · exact h _ t _

theorem meets_request (ticket : Nat) {Q : Monitor.Reception → Nat → System → Prop}
    (h : ∀ reception t s, Q reception t s) : Meets Unscheduled Q (request ticket) t s := by
  refine Meets.bind (Meets.get ?_)
  show Meets _ _ (if _ then _ else _) t s
  split
  · exact Meets.bind (Meets.modify rfl (h _ t _))
  · dsimp only
    cases s.monitor.attached with
    | none => exact h _ t s
    | some n => exact Meets.bind (Meets.modify rfl (h _ t _))

theorem meets_check (t : Nat) (s : System)
    {Q : Except MonitorError PassOutcome → Nat → System → Prop}
    (h : ∀ outcome t s, Q outcome t s) : Meets Unscheduled Q check t s := by
  refine Meets.bind (Meets.get (Meets.bind (Meets.modify rfl (Meets.bind ?_))))
  refine meets_request _ fun reception t s => ?_
  cases reception with
  | skipped | refused e => exact h _ t s
  | accepted =>
    show Meets _ _ (awaitAnswer _) t s
    refine Meets.bind fun t s => ⟨rfl, Meets.bind (Meets.get (Meets.bind ?_))⟩
    exact Meets.modify rfl (h _ t _)

theorem meets_checkStatus (t : Nat) (s : System) :
    Meets Unscheduled (fun _ _ _ => True) checkStatus t s := by
  refine Meets.bind (meets_check t s fun outcome t s => ?_)
  cases outcome with
  | ok outcome =>
    cases outcome with
    | skipped => trivial
    | completed report =>
      refine Meets.bind (Meets.pure ?_)
      dsimp only
      split <;> trivial
  | error e =>
    cases e with
    | notRunning =>
      refine Meets.bind (meets_pass t s fun outcome t s => Meets.bind (Meets.pure ?_))
      dsimp only
      split
      · trivial
      · trivial
      · split <;> trivial
    | alreadyRunning | stopped => trivial

/-! ## The other jobs -/

section

variable {R : Nat → System → System → Prop} (hR : System.StoreFree R)
include hR

theorem meets_rows (start stop : Time.Instant) (changes : List Transition)
    (records : List ServerRecord) (t : Nat) (s : System)
    {Q : Except StorageError (Time.Checked (List ServerUptime)) → Nat → System → Prop}
    (h : ∀ rows t s, Q rows t s) :
    Meets R Q (DailyReport.rows ask start stop changes records) t s := by
  induction records generalizing t s Q with
  | nil => exact h _ t s
  | cons record rest ih =>
    refine Meets.bind (hR.meets_ask fun before t s => ?_)
    cases before with
    | error e => exact h _ t s
    | ok before =>
      dsimp only
      cases DailyReport.row start stop changes record before with
      | error e => exact h _ t s
      | ok row =>
        refine Meets.bind (ih t s fun rows t s => ?_)
        cases rows <;> exact h _ t s

theorem meets_build (day : Date) (now : Time.Instant) (t : Nat) (s : System)
    {Q : Time.Checked (Except ReportError DailyReport) → Nat → System → Prop}
    (h : ∀ report t s, Q report t s) : Meets R Q (DailyReport.build ask day now) t s := by
  unfold DailyReport.build
  split
  · exact h _ t s
  · exact h _ t s
  · refine Meets.bind (hR.meets_ask fun changes t s => ?_)
    cases changes with
    | error e => exact h _ t s
    | ok changes =>
      refine Meets.bind (hR.meets_ask fun records t s => ?_)
      cases records with
      | error e => exact h _ t s
      | ok records =>
        refine Meets.bind (meets_rows hR _ _ _ _ t s fun rows t s => ?_)
        split <;> exact h _ t s

end

theorem meets_sendReport (day : Date) (t : Nat) (s : System)
    {Q : Except ReportError DailyReport → Nat → System → Prop} (h : ∀ report t s, Q report t s) :
    Meets Unscheduled Q (sendReport day) t s := by
  refine Meets.bind (Meets.bind (meets_now fun now _ => Meets.bind ?_))
  refine meets_build storeFree_unscheduled day now t s fun report t s => ?_
  refine meets_checked fun report => ?_
  cases report with
  | error e => exact h _ t s
  | ok report =>
    refine Meets.bind (Meets.get ?_)
    cases s.refusal with
    | some code => exact h _ t s
    | none => exact Meets.bind (Meets.modify rfl (h _ t _))

theorem meets_reportYesterday (t : Nat) (s : System) :
    Meets Unscheduled (fun _ _ _ => True) reportYesterday t s := by
  refine Meets.bind (meets_now fun now _ => ?_)
  split
  · trivial
  · refine Meets.bind (meets_sendReport _ t s fun report t s => ?_)
    cases report <;> trivial

theorem meets_applyRetention (days : Nat) (t : Nat) (s : System) :
    Meets Unscheduled (fun _ _ _ => True) (applyRetention days) t s := by
  refine Meets.bind (meets_now fun now _ => Meets.bind (meets_checked fun cutoff => ?_))
  refine Meets.bind (storeFree_unscheduled.meets_ask fun answer t s => ?_)
  cases answer with
  | error e => trivial
  | ok _ =>
    refine Meets.bind (storeFree_unscheduled.meets_ask fun answer t s => ?_)
    cases answer <;> trivial

theorem meets_rehearse (n : Nat) (millis : List Nat) (failures : List (Option String)) (t : Nat)
    (s : System) : Meets Unscheduled (fun _ _ _ => True) (rehearse n millis failures) t s := by
  refine Meets.bind (Meets.bind (Meets.clock (Meets.waiting Unscheduled.refl fun t s => ?_)))
  split <;> trivial

/-- **No job touches the scheduler**, whatever happens while it waits. -/
theorem meets_doJob (n : Nat) (job : Job) (t : Nat) (s : System) :
    Meets Unscheduled (fun _ _ _ => True) (doJob n job) t s := by
  cases job with
  | checkStatus => exact meets_checkStatus t s
  | dailyReport => exact meets_reportYesterday t s
  | retention days => exact meets_applyRetention days t s
  | rehearsal millis failures => exact meets_rehearse n millis failures t s

end Action

end Pulse
