import Mathlib.Data.List.Perm.Basic
import Pulse.Monitor

/-!
# Who makes passes, and what came of them

Whoever is at work for a monitor or waits for it has a `Seat`: a caller that makes a pass himself, a
loop, or a caller who requests a pass.  A `Ledger` lists the attempts at passes that have come to
their end, and the requests that have returned.

* `Guarded` — the guard of passes is taken as long as somebody makes a pass, and nobody else does.
* `Counted` — each attempt is counted once, as a pass or as skipped.
-/

set_option autoImplicit false

namespace Pulse

/-! ## Seats and ledgers -/

/-- The place of somebody who is at work for a monitor or waits for it. -/
inductive Seat where
  /-- A caller who makes a pass. -/
  | pass
  /-- A loop between passes. -/
  | idle (n : Nat)
  /-- A loop that makes a pass, for a request or because of a tick. -/
  | turn (n : Nat) (ticket : Option Nat)
  /-- A caller who has not handed in a request. -/
  | early (ticket : Nat)
  /-- A caller who waits for the answer of a loop. -/
  | waiting (ticket n : Nat)
deriving DecidableEq

namespace Seat

/-- Between the taking of the guard and its giving back. -/
def holdsGuard : Seat → Bool
  | pass | turn .. => true
  | _ => false

def isLoop (n : Nat) : Seat → Bool
  | idle k | turn k _ => k = n
  | _ => false

def isCaller (ticket : Nat) : Seat → Bool
  | early t | waiting t _ => t = ticket
  | _ => false

@[simp] theorem isLoop_idle (n : Nat) : (idle n).isLoop n = true :=
  decide_eq_true rfl

@[simp] theorem isLoop_turn (n : Nat) (ticket : Option Nat) : (turn n ticket).isLoop n = true :=
  decide_eq_true rfl

@[simp] theorem isCaller_early (ticket : Nat) : (early ticket).isCaller ticket = true :=
  decide_eq_true rfl

@[simp] theorem isCaller_waiting (ticket n : Nat) :
    (waiting ticket n).isCaller ticket = true :=
  decide_eq_true rfl

end Seat

/-- What a pass is made for. -/
inductive Purpose where
  | caller
  | tick
  | request (ticket : Nat)
deriving DecidableEq

/-- An attempt at a pass that has come to its end. -/
structure Attempt where
  purpose : Purpose
  /-- A pass was under way already, or requested. -/
  found : Bool
  outcome : PassOutcome

/-- What has come of attempts and requests. -/
structure Ledger where
  attempts : List Attempt := []
  returned : List (Nat × Except MonitorError PassOutcome) := []

namespace Ledger

/-- An attempt has come to its end. -/
def note (ledger : Ledger) (attempt : Attempt) : Ledger :=
  { ledger with attempts := ledger.attempts ++ [attempt] }

/-- A request returns to its caller. -/
def give (ledger : Ledger) (ticket : Nat) (result : Except MonitorError PassOutcome) : Ledger :=
  { ledger with returned := ledger.returned ++ [(ticket, result)] }

/-- What came of the attempts for a request. -/
def outcomesOf (ledger : Ledger) (ticket : Nat) : List PassOutcome :=
  (ledger.attempts.filter fun a => a.purpose = .request ticket).map Attempt.outcome

theorem outcomesOf_note_self (ledger : Ledger) (ticket : Nat) (found : Bool)
    (outcome : PassOutcome) :
    (ledger.note ⟨.request ticket, found, outcome⟩).outcomesOf ticket =
      ledger.outcomesOf ticket ++ [outcome] := by
  simp [outcomesOf, note]

theorem outcomesOf_note_of_ne {ledger : Ledger} {attempt : Attempt} {ticket : Nat}
    (h : attempt.purpose ≠ .request ticket) :
    (ledger.note attempt).outcomesOf ticket = ledger.outcomesOf ticket := by
  simp [outcomesOf, note, h]

end Ledger

/-! ## The guard -/

/-- The guard of passes is taken as long as somebody makes a pass, and nobody else makes one then;
`held` tells whether somebody who has no seat at the moment makes one. -/
def Guarded (held passing : Bool) (seats : List Seat) : Prop :=
  seats.countP Seat.holdsGuard + held.toNat = passing.toNat

namespace Guarded

variable {held passing : Bool} {seat : Seat} {seats seats' : List Seat}

theorem perm (h : Guarded held passing seats) (hperm : seats.Perm seats') :
    Guarded held passing seats' := by
  rw [Guarded, ← hperm.countP_eq]
  exact h

theorem cons_iff : Guarded false passing (seat :: seats) ↔
    Guarded seat.holdsGuard passing seats := by
  rw [Guarded, Guarded, List.countP_cons]
  cases seat.holdsGuard <;> rfl

theorem enter (h : Guarded false false seats) : Guarded true true seats :=
  congrArg (· + 1) h

theorem leave (h : Guarded true passing seats) : Guarded false false seats := by
  rw [Guarded] at h ⊢
  cases passing with
  | true => exact Nat.succ.inj h
  | false => exact absurd h (Nat.succ_ne_zero _)

end Guarded

/-! ## The counts -/

/-- Each attempt is counted once: as a pass if it was completed, and as skipped if it found a pass
under way or requested. -/
structure Counted (stats : MonitorStats) (attempts : List Attempt) : Prop where
  passes : stats.passes = attempts.countP fun a => a.outcome ≠ .skipped
  skipped : stats.skipped = attempts.countP fun a => a.outcome = .skipped
  found : ∀ attempt ∈ attempts, attempt.outcome = .skipped ↔ attempt.found = true

namespace Counted

variable {monitor : Monitor} {attempts : List Attempt}

theorem skip (h : Counted monitor.stats attempts) (purpose : Purpose) :
    Counted monitor.skip.stats (attempts ++ [⟨purpose, true, .skipped⟩]) where
  passes := by
    rw [List.countP_append, ← h.passes]
    rfl
  skipped := by
    rw [List.countP_append, ← h.skipped]
    rfl
  found := List.forall_mem_append.2 ⟨h.found, List.forall_mem_singleton.2 (by simp)⟩

theorem record (h : Counted monitor.stats attempts) (purpose : Purpose) (report : PassReport) :
    Counted (monitor.record report).stats
      (attempts ++ [⟨purpose, false, .completed report⟩]) where
  passes := by
    rw [List.countP_append, ← h.passes]
    rfl
  skipped := by
    rw [List.countP_append, ← h.skipped]
    rfl
  found := List.forall_mem_append.2 ⟨h.found, List.forall_mem_singleton.2 (by simp)⟩

end Counted

end Pulse
