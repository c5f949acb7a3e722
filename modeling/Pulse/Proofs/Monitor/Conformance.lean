import Pulse.Proofs.Monitor.Guardroom

/-!
# The machine and the program

A `Guardroom` takes apart what the program does, so that others can come in between.  Put together
again, the pieces change the system as the program does.

* `Guardroom.follows_work` — a stretch of a loop is one of the program's loop.
* `Guardroom.system_check` — a caller who requests a pass and is not disturbed does what the program
  does.
-/

set_option autoImplicit false

namespace Pulse

open Activity (Progress)

/-! ## Loops -/

namespace Guardroom

variable (room : Guardroom)

/-- A pass of a loop, and what the loop does after it. -/
def Hand.endTurn (n : Nat) (ticket due : Option Nat) (rest : Action PassOutcome) :
    Action (Option Process) :=
  match ticket with
  | some ticket =>
    (rest >>= fun outcome => Action.modifyMonitor fun m => m.reply n ticket outcome) >>= fun _ =>
      pure (some (.monitorLoop n due))
  | none => rest >>= fun _ => pure (some (.monitorLoop n due))

/-- What the program has left to do, for a hand of a loop. -/
def Hand.body? : Hand → Option (Action (Option Process))
  | .starting n => some (Action.beginMonitor n)
  | .loop n due => some (Action.monitorLoop n due)
  | .turn n ticket due _ rest => some (endTurn n ticket due rest)
  | _ => none

/-- Hands and system after a stretch of a loop of the program, which ends unless it waits or goes
on. -/
def Follows (n : Nat) (room' : Guardroom) :
    Progress System Process (Option Process) × System × List Process → Prop
  | (.waiting rest, s, _) =>
    room'.system = s ∧ ∃ hand : Hand, room'.hands = room.hands ++ [hand] ∧ hand.body? = some rest
  | (.finished (some process), s, _) =>
    room'.system = s ∧
      ∃ hand, room'.hands = room.hands ++ [hand] ∧ Hand.ofProcess? process = some hand
  | (.finished none, s, _) | (.crashed, s, _) =>
    room'.system = { s with monitor := s.monitor.endLoop n } ∧ room'.hands = room.hands

theorem follows_onTurn (n : Nat) (ticket due : Option Nat) (found : Bool)
    (rest : Action PassOutcome) (s : System) :
    room.Follows n (room.onTurn n ticket due found (rest.run room.time s []))
      ((Hand.endTurn n ticket due rest).run room.time s []) := by
  cases ticket with
  | some ticket =>
    rw [Hand.endTurn, Activity.run_bind, Activity.run_bind]
    obtain ⟨progress, s, started⟩ := rest.run room.time s []
    cases progress with
    | finished outcome => exact ⟨rfl, .loop n due, rfl, rfl⟩
    | crashed => exact ⟨rfl, rfl⟩
    | waiting rest => exact ⟨rfl, .turn n (some ticket) due found rest, rfl, rfl⟩
  | none =>
    rw [Hand.endTurn, Activity.run_bind]
    obtain ⟨progress, s, started⟩ := rest.run room.time s []
    cases progress with
    | finished outcome => exact ⟨rfl, .loop n due, rfl, rfl⟩
    | crashed => exact ⟨rfl, rfl⟩
    | waiting rest => exact ⟨rfl, .turn n none due found rest, rfl, rfl⟩

theorem follows_takeTurn (n : Nat) (due : Option Nat) :
    room.Follows n (room.takeTurn n due)
      ((Action.takeTurn n due).run room.time room.system []) := by
  rw [takeTurn]
  simp only [Action.takeTurn, Action.run_clock_bind, Action.run_state_bind]
  cases Action.turn n due room.time room.system with
  | ends | fails => exact ⟨rfl, rfl⟩
  | waits => exact ⟨rfl, .loop n due, rfl, rfl⟩
  | ticks next => exact room.follows_onTurn n none (some next) _ Action.pass room.system
  | meets ticket =>
    exact (room.withMonitor (room.system.monitor.take n)).follows_onTurn n (some ticket) due _
      Action.pass { room.system with monitor := room.system.monitor.take n }

/-- **A loop at work** does what the program's loop does. -/
theorem follows_work {hand : Hand} {n : Nat} {body : Action (Option Process)}
    (hseat : hand.seat.isLoop n = true) (hbody : hand.body? = some body) :
    room.Follows n (room.work hand) (body.run room.time room.system []) := by
  cases hand with
  | starting k =>
    obtain rfl : k = n := of_decide_eq_true hseat
    cases hbody
    rw [work, Action.run_beginMonitor]
    rcases room.system.monitor.settings.tickInterval with _ | _ | _
    · exact ⟨rfl, .loop k none, rfl, rfl⟩
    · exact ⟨rfl, rfl⟩
    · exact ⟨rfl, .loop k (some room.time), rfl, rfl⟩
  | loop k due =>
    obtain rfl : k = n := of_decide_eq_true hseat
    cases hbody
    rw [work, Action.monitorLoop, Activity.run_bind, Action.awaitTurn, Activity.run]
    split_ifs
    · exact room.follows_takeTurn k due
    · exact ⟨rfl, .loop k due, rfl, rfl⟩
  | turn k ticket due found rest =>
    obtain rfl : k = n := of_decide_eq_true hseat
    cases hbody
    exact room.follows_onTurn k ticket due found rest room.system
  | _ => cases hbody

end Guardroom

/-! ## Requests -/

namespace Action

theorem run_request_bind {α : Type} (ticket t : Nat) (s : System)
    (f : Monitor.Reception → Action α) :
    (request ticket >>= f).run t s [] =
      if s.monitor.passing then (f .skipped).run t { s with monitor := s.monitor.skip } []
      else match s.monitor.attached with
        | none => (f (.refused .notRunning)).run t s []
        | some n => (f (s.monitor.submit n ticket).1).run t
            { s with monitor := (s.monitor.submit n ticket).2 } [] := by
  rw [Activity.run_bind, request, run_state_bind]
  dsimp only
  split_ifs with hpassing
  · rfl
  · cases s.monitor.attached <;> rfl

theorem run_awaitAnswer (ticket t : Nat) (s : System) :
    ((awaitAnswer ticket).run t s []).2.1 = match s.monitor.answer? ticket with
      | none => s
      | some _ => { s with monitor := s.monitor.forget ticket } := by
  unfold awaitAnswer
  rw [Activity.run_bind, Activity.run]
  cases s.monitor.answer? ticket <;> rfl

end Action

namespace Guardroom

variable (room : Guardroom)

section

variable {k : Nat} (hk : k = room.hands.length)
include hk

theorem afterAll_resume_stay (hand : Hand) (count : Nat) :
    (room.stay hand).afterAll (List.replicate (count + 1) (.resume k)) =
      (room.work hand).afterAll (List.replicate count (.resume k)) := by
  subst hk
  have herase : (room.hands ++ [hand]).eraseIdx room.hands.length = room.hands := by
    rw [List.eraseIdx_append_of_length_le (Nat.le_refl _), Nat.sub_self]
    exact List.append_nil _
  have hafter : (room.stay hand).after (.resume room.hands.length) = room.work hand := by
    rw [after, stay]
    dsimp only
    rw [List.getElem?_concat_length, herase]
  exact congrArg (afterAll · _) hafter

theorem afterAll_resume_length (count : Nat) :
    room.afterAll (List.replicate count (.resume k)) = room := by
  induction count with
  | zero => rfl
  | succ count ih =>
    have hafter : room.after (.resume k) = room := by
      rw [after, List.getElem?_eq_none (Nat.le_of_eq hk.symm)]
    exact (congrArg (afterAll · _) hafter).trans ih

end

/-- What is left of a request after it was received. -/
def remaining (ticket : Nat) : Monitor.Reception → Action (Except MonitorError PassOutcome)
  | .skipped => pure (.ok .skipped)
  | .refused e => pure (.error e)
  | .accepted => Action.awaitAnswer ticket

theorem system_asking (ticket : Nat) :
    ((room.stay (.asking ticket)).afterAll
        (List.replicate 4 (.resume room.hands.length))).system =
      ((Action.request ticket >>= remaining ticket).run room.time room.system []).2.1 := by
  rw [afterAll_resume_stay _ rfl, work, Action.run_request_bind]
  cases room.system.monitor.passing with
  | true =>
    rw [if_pos rfl, if_pos rfl, afterAll_resume_length _ (by rfl)]
    rfl
  | false =>
    rw [if_neg Bool.false_ne_true, if_neg Bool.false_ne_true, afterAll_resume_stay _ rfl, work]
    cases room.system.monitor.attached with
    | none =>
      dsimp only
      rw [afterAll_resume_length _ (by rfl)]
      rfl
    | some n =>
      dsimp only
      rw [afterAll_resume_stay _ rfl, work, submit]
      obtain ⟨reception, monitor⟩ := room.system.monitor.submit n ticket
      cases reception with
      | skipped | refused e =>
        dsimp only
        rw [afterAll_resume_length _ (by rfl)]
        rfl
      | accepted =>
        dsimp only
        rw [afterAll_resume_stay _ (by rfl), work, remaining, Action.run_awaitAnswer]
        dsimp only [withMonitor]
        cases monitor.answer? ticket <;> rfl

/-- A caller who requests a pass and is not disturbed does what the program does. -/
theorem system_check :
    (room.afterAll (.check :: List.replicate 4 (.resume room.hands.length))).system =
      (Action.check.run room.time room.system []).2.1 :=
  system_asking (room.withMonitor room.system.monitor.draw.2) room.system.monitor.nextTicket

end Guardroom

end Pulse
