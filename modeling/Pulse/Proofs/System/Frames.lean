import Pulse.Proofs.System.Stretches
import Pulse.System.Passing

/-!
# What passes leave alone

Most of what the program does touches one part of the system only.  `Meets R` says so if `R` allows
changes to this part, and the rules for the steps of the program are stated here for any such `R`.

* `System.StoreFree.meets_scan` — looking for silent servers changes nothing but the store.
-/

set_option autoImplicit false

namespace Pulse

open Activity (Meets)
open Time (Instant)

namespace System

variable {t : Nat} {s s' s'' : System}

/-- A stretch that changes nothing. -/
def Unchanged (_ : Nat) (s s' : System) : Prop :=
  s' = s

theorem Unchanged.refl (t : Nat) (s : System) : Unchanged t s s :=
  rfl

theorem Unchanged.trans (h : Unchanged t s s') (h' : Unchanged t s' s'') : Unchanged t s s'' :=
  Eq.trans h' h

/-- A stretch that leaves the monitor alone. -/
def Unmonitored (_ : Nat) (s s' : System) : Prop :=
  s'.monitor = s.monitor

theorem Unmonitored.refl (t : Nat) (s : System) : Unmonitored t s s :=
  rfl

theorem Unmonitored.trans (h : Unmonitored t s s') (h' : Unmonitored t s' s'') :
    Unmonitored t s s'' :=
  Eq.trans h' h

/-- A stretch that leaves the scheduler alone. -/
def Unscheduled (_ : Nat) (s s' : System) : Prop :=
  s'.scheduler = s.scheduler

theorem Unscheduled.refl (t : Nat) (s : System) : Unscheduled t s s :=
  rfl

theorem Unscheduled.trans (h : Unscheduled t s s') (h' : Unscheduled t s' s'') :
    Unscheduled t s s'' :=
  Eq.trans h' h

end System

variable {R : Nat → System → System → Prop} {t : Nat} {s : System}

namespace Action

theorem meets_now {Q : Instant → Nat → System → Prop}
    (h : ∀ now, s.moment? t = some now → Q now t s) : Meets R Q now t s := by
  refine Meets.bind (Meets.clock (Meets.bind (Meets.get ?_)))
  show Meets _ _ (checked (Time.require (s.moment? t))) t s
  cases hnow : s.moment? t with
  | some now => exact h now hnow
  | none => trivial

theorem meets_checked {α : Type} {Q : α → Nat → System → Prop} {x : Time.Checked α}
    (h : ∀ a, Q a t s) : Meets R Q (checked x) t s := by
  cases x with
  | ok a => exact h a
  | error _ => trivial

end Action

/-! ## The store -/

/-- All changes to the store are allowed. -/
def System.StoreFree (R : Nat → System → System → Prop) : Prop :=
  ∀ t s store, R t s { s with store }

namespace System.StoreFree

open Pulse.Action

variable (hR : System.StoreFree R)
include hR

theorem refl (t : Nat) (s : System) : R t s s :=
  hR t s s.store

section

variable {form : Store.Form} {request : Store.Request form}
  {Q : Except StorageError form.Answer → Nat → System → Prop}

theorem meets_answer (h : ∀ a t s, Q a t s) : Meets R Q (answer request) t s := by
  rw [answer, Meets]
  split
  · exact h _ t s
  · exact ⟨hR t s _, h _ t _⟩

theorem meets_ask (h : ∀ a t s, Q a t s) : Meets R Q (ask request) t s := by
  refine Meets.bind (Meets.get ?_)
  show Meets _ _ (if _ then _ else _) t s
  split
  · refine Meets.bind (Meets.bind (Meets.clock ?_))
    exact Meets.waiting hR.refl fun t s => hR.meets_answer h
  · exact hR.meets_answer h

end

theorem meets_endDemotion (now : Instant) (t' : Nat) (u : Underway)
    {Q : RecordOutcome → Nat → System → Prop} (h : ∀ outcome t s, Q outcome t s) :
    Meets R Q (endDemotion now t' u) t s := by
  show Meets _ _ (if _ then _ else _) t s
  split
  · exact Meets.bind (hR.meets_answer fun a t s => h _ t s)
  · exact h _ t s

theorem meets_checkRecords (settings : MonitoringSettings) (now : Instant) (steps : Nat)
    (todo : List ServerRecord) (underway : List Underway) (report : PassReport) (t : Nat)
    (s : System) {Q : PassReport → Nat → System → Prop} (h : ∀ report t s, Q report t s) :
    Meets R Q (checkRecords settings now steps todo underway report) t s := by
  induction steps generalizing todo underway report t s with
  | zero => exact h report t s
  | succ steps ih =>
    unfold checkRecords
    refine Meets.bind (Meets.clock ?_)
    split
    · next u others _ =>
      refine Meets.bind (Meets.clock (Meets.bind ?_))
      exact hR.meets_endDemotion now t u fun outcome t s => ih todo others _ t s
    · split
      · next record rest =>
        split
        · refine Meets.bind (meets_checked fun verdict => ?_)
          cases verdict with
          | undefined | unchanged => exact ih rest underway _ t s
          | silent seenBefore =>
            exact Meets.bind (Meets.clock (Meets.bind (Meets.get (ih rest _ report t s))))
        · exact Meets.bind (Meets.waiting hR.refl fun t s => ih _ _ _ t s)
      · split
        · exact h report t s
        · exact Meets.bind (Meets.waiting hR.refl fun t s => ih _ _ _ t s)

/-- **Looking for silent servers** changes nothing but the store. -/
theorem meets_scan (settings : MonitoringSettings) (now : Instant)
    {Q : PassReport → Nat → System → Prop} (h : ∀ report t s, Q report t s) :
    Meets R Q (scan settings now) t s := by
  refine Meets.bind (Meets.clock (Meets.bind (Meets.within (fun t s => h _ t s) ?_)))
  refine hR.meets_ask fun answer t s => ?_
  cases answer with
  | error e => exact h _ t s
  | ok records => exact hR.meets_checkRecords settings now _ records [] _ t s h

end System.StoreFree

end Pulse
