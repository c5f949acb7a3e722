import Pulse.Proofs.Monitor.Guardroom

/-!
# Order among passes and requests

Do passes overlap, is every attempt counted once, and does every caller get his answer?

* `Guardroom.Sound` — what each move keeps.
* `Guardroom.Orderly` — what the callers see of that.
* `Guardroom.afterAll_orderly` — after any moves, everything is in order.
-/

set_option autoImplicit false

namespace Pulse

open Activity (Progress)
open Pulse.Action (HoldsGuard PassBegin PassStep)

namespace Guardroom

variable {room : Guardroom} {held : Bool} {others : List Seat} {n : Nat} {ticket : Nat}

/-- What a hand has in hand is what is left of a pass that holds the guard. -/
def Hand.Proper : Hand → Prop
  | .pass found rest | .turn _ _ _ found rest => found = false ∧ HoldsGuard rest
  | _ => True

/-- What each move keeps.  Somebody who is at work at the moment has no hand; `held` tells whether
he holds the guard, and `others` are the seats of those who have no hand. -/
structure Sound (held : Bool) (others : List Seat) (room : Guardroom) : Prop where
  proper : ∀ hand ∈ room.hands, hand.Proper
  guarded : Guarded held room.system.monitor.passing (room.hands.map Hand.seat)
  counted : Counted room.system.monitor.stats room.ledger.attempts
  ticketed : ∃ fates, Ticketed room.system.monitor (others ++ room.hands.map Hand.seat)
    room.ledger fates

namespace Sound

theorem congr_system (h : room.Sound held others) (system : System)
    (hmonitor : system.monitor = room.system.monitor) :
    Sound held others { room with system } := by
  refine ⟨h.proper, ?_, ?_, ?_⟩
  · show Guarded held system.monitor.passing _
    rw [hmonitor]
    exact h.guarded
  · show Counted system.monitor.stats _
    rw [hmonitor]
    exact h.counted
  · show ∃ fates, Ticketed system.monitor _ _ fates
    rw [hmonitor]
    exact h.ticketed

/-- Somebody takes a seat again. -/
theorem stay (hand : Hand) (h : room.Sound hand.seat.holdsGuard [hand.seat])
    (hhand : hand.Proper) : (room.stay hand).Sound false [] where
  proper := List.forall_mem_append.2 ⟨h.proper, List.forall_mem_singleton.2 hhand⟩
  guarded := by
    rw [Guardroom.stay, List.map_append]
    exact (Guarded.cons_iff.2 h.guarded).perm (List.perm_append_singleton _ _).symm
  counted := h.counted
  ticketed := by
    obtain ⟨fates, hfates⟩ := h.ticketed
    rw [Guardroom.stay, List.map_append]
    exact ⟨fates, hfates.perm (List.perm_append_singleton _ _).symm⟩

end Sound

/-! ### Attempts -/

/-- How an attempt at a pass comes to its end: it is skipped, or, if it holds the guard, completed.
-/
inductive Attempted (monitor : Monitor) : Bool → Bool → PassOutcome → Monitor → Prop
  | skipped : Attempted monitor false true .skipped monitor.skip
  | completed (report : PassReport) :
    Attempted monitor true false (.completed report) (monitor.record report).leave

namespace Attempted

variable {monitor monitor' : Monitor} {found : Bool} {outcome : PassOutcome}

theorem guarded {seats : List Seat} (h : Attempted monitor held found outcome monitor')
    (hguarded : Guarded held monitor.passing seats) : Guarded false monitor'.passing seats := by
  cases h with
  | skipped => exact hguarded
  | completed report => exact hguarded.leave

theorem counted {attempts : List Attempt} (h : Attempted monitor held found outcome monitor')
    (hcounted : Counted monitor.stats attempts) (purpose : Purpose) :
    Counted monitor'.stats (attempts ++ [⟨purpose, found, outcome⟩]) := by
  cases h with
  | skipped => exact hcounted.skip purpose
  | completed report => exact hcounted.record purpose report

theorem ticketed {seats : List Seat} {ledger : Ledger} {fates : Nat → Fate}
    (h : Attempted monitor held found outcome monitor')
    (hticketed : Ticketed monitor seats ledger fates) :
    Ticketed monitor' seats ledger fates := by
  cases h with
  | skipped | completed report =>
    exact hticketed.congr (fun _ => rfl) (fun _ => rfl) (fun _ => rfl) rfl rfl

end Attempted

namespace Sound

variable {monitor' : Monitor} {found : Bool} {outcome : PassOutcome}

/-- The guard is taken. -/
theorem enter (h : room.Sound false others) (hfree : room.system.monitor.passing = false) :
    (room.withMonitor { room.system.monitor with passing := true }).Sound true others where
  proper := h.proper
  guarded := by
    have hguarded := h.guarded
    rw [hfree] at hguarded
    exact hguarded.enter
  counted := h.counted
  ticketed := by
    obtain ⟨fates, hfates⟩ := h.ticketed
    exact ⟨fates, hfates.congr (fun _ => rfl) (fun _ => rfl) (fun _ => rfl) rfl rfl⟩

/-- The guard is given back without a report. -/
theorem leave (h : room.Sound true others) :
    (room.withMonitor room.system.monitor.leave).Sound false others where
  proper := h.proper
  guarded := h.guarded.leave
  counted := h.counted
  ticketed := by
    obtain ⟨fates, hfates⟩ := h.ticketed
    exact ⟨fates, hfates.congr (fun _ => rfl) (fun _ => rfl) (fun _ => rfl) rfl rfl⟩

/-- An attempt that was not made for a request has come to its end. -/
theorem attempted (h : room.Sound held others)
    (hattempted : Attempted room.system.monitor held found outcome monitor') (purpose : Purpose)
    (hpurpose : ∀ ticket, purpose ≠ .request ticket) :
    ((room.withMonitor monitor').note ⟨purpose, found, outcome⟩).Sound false others where
  proper := h.proper
  guarded := hattempted.guarded h.guarded
  counted := hattempted.counted h.counted purpose
  ticketed := by
    obtain ⟨fates, hfates⟩ := h.ticketed
    exact ⟨fates, (hattempted.ticketed hfates).note hpurpose⟩

/-- An attempt for a request has come to its end. -/
theorem replied (h : room.Sound held [.turn n (some ticket)])
    (hattempted : Attempted room.system.monitor held found outcome monitor') :
    ((room.withMonitor (monitor'.reply n ticket outcome)).note
      ⟨.request ticket, found, outcome⟩).Sound false [.idle n] where
  proper := h.proper
  guarded := hattempted.guarded h.guarded
  counted := hattempted.counted h.counted (.request ticket)
  ticketed := by
    obtain ⟨fates, hfates⟩ := h.ticketed
    exact ⟨_, (hattempted.ticketed hfates).reply found outcome⟩

/-- A loop ends. -/
theorem endLoop {seat : Seat} (h : room.Sound false [seat]) (hseat : seat.isLoop n = true) :
    (room.endLoop n).Sound false [] where
  proper := h.proper
  guarded := h.guarded
  counted := h.counted
  ticketed := by
    obtain ⟨fates, hfates⟩ := h.ticketed
    exact ⟨_, hfates.endLoop hseat⟩

end Sound

/-! ## Passes -/

variable {ending : Progress System Process PassOutcome × System × List Process}

/-- A pass of a caller has come to the end of a stretch. -/
theorem sound_onPass_of_step (room : Guardroom) (h : room.Sound true [])
    (hstep : PassStep room.system.monitor ending.1 ending.2.1.monitor) :
    (room.onPass false ending).Sound false [] := by
  obtain ⟨progress, system, started⟩ := ending
  generalize hmonitor : system.monitor = monitor at hstep
  cases hstep with
  | waiting hrest =>
    have hsystem := h.congr_system system hmonitor
    refine Sound.stay (.pass false _)
      ⟨hsystem.proper, hsystem.guarded, hsystem.counted, ?_⟩ ⟨rfl, hrest⟩
    obtain ⟨fates, hfates⟩ := hsystem.ticketed
    exact ⟨fates, Ticketed.cons_pass_iff.2 hfates⟩
  | completed report =>
    exact (h.attempted (.completed report) .caller (by simp)).congr_system system hmonitor
  | crashed => exact h.leave.congr_system system hmonitor

/-- A caller has begun a pass. -/
theorem sound_onPass_of_begin (h : room.Sound false [])
    (hbegin : PassBegin room.system.monitor ending.1 ending.2.1.monitor) :
    (room.onPass room.system.monitor.passing ending).Sound false [] := by
  obtain ⟨progress, system, started⟩ := ending
  generalize hmonitor : system.monitor = monitor at hbegin
  cases hbegin with
  | lost => exact h.congr_system system hmonitor
  | skipped hpassing =>
    rw [hpassing]
    exact (h.attempted .skipped .caller (by simp)).congr_system system hmonitor
  | entered hfree hstep =>
    rw [hfree]
    exact sound_onPass_of_step
      (room.withMonitor { room.system.monitor with passing := true }) (h.enter hfree)
      (hmonitor ▸ hstep)

/-! ### Passes of loops -/

/-- An attempt of a loop has come to its end. -/
theorem sound_onTurn_of_attempted {ticket : Option Nat} (due : Option Nat) {found : Bool}
    {outcome : PassOutcome} {system : System} (started : List Process)
    (h : room.Sound held [.turn n ticket])
    (hattempted : Attempted room.system.monitor held found outcome system.monitor) :
    (room.onTurn n ticket due found (.finished outcome, system, started)).Sound false [] := by
  cases ticket with
  | some ticket =>
    have hreplied := (h.replied hattempted).congr_system
      { system with monitor := system.monitor.reply n ticket outcome } rfl
    exact Sound.stay (.loop n due) hreplied trivial
  | none =>
    have hnoted := (h.attempted hattempted .tick (by simp)).congr_system system rfl
    obtain ⟨fates, hfates⟩ := hnoted.ticketed
    exact Sound.stay (.loop n due)
      ⟨hnoted.proper, hnoted.guarded, hnoted.counted, fates, hfates.endTick⟩ trivial

/-- A pass of a loop has come to the end of a stretch. -/
theorem sound_onTurn_of_step (room : Guardroom) {ticket due : Option Nat}
    (h : room.Sound true [.turn n ticket])
    (hstep : PassStep room.system.monitor ending.1 ending.2.1.monitor) :
    (room.onTurn n ticket due false ending).Sound false [] := by
  obtain ⟨progress, system, started⟩ := ending
  generalize hmonitor : system.monitor = monitor at hstep
  cases hstep with
  | waiting hrest =>
    exact Sound.stay (.turn n ticket due false _) (h.congr_system system hmonitor) ⟨rfl, hrest⟩
  | completed report =>
    exact sound_onTurn_of_attempted due started h (hmonitor ▸ .completed report)
  | crashed =>
    exact Sound.endLoop (h.leave.congr_system system hmonitor) (Seat.isLoop_turn n ticket)

/-- A loop has begun a pass. -/
theorem sound_onTurn_of_begin (room : Guardroom) {ticket due : Option Nat}
    (h : room.Sound false [.turn n ticket])
    (hbegin : PassBegin room.system.monitor ending.1 ending.2.1.monitor) :
    (room.onTurn n ticket due room.system.monitor.passing ending).Sound false [] := by
  obtain ⟨progress, system, started⟩ := ending
  generalize hmonitor : system.monitor = monitor at hbegin
  cases hbegin with
  | lost => exact Sound.endLoop (h.congr_system system hmonitor) (Seat.isLoop_turn n ticket)
  | skipped hpassing =>
    rw [hpassing]
    exact sound_onTurn_of_attempted due started h (hmonitor ▸ .skipped)
  | entered hfree hstep =>
    rw [hfree]
    exact sound_onTurn_of_step
      (room.withMonitor { room.system.monitor with passing := true }) (h.enter hfree)
      (hmonitor ▸ hstep)

/-! ## Loops and requests -/

namespace Sound

theorem startLoop {linked : Bool} {monitor : Monitor} (h : room.Sound false [])
    (hstart : room.system.monitor.startLoop linked = .ok (n, monitor)) :
    (room.withMonitor monitor).Sound false [.idle n] := by
  obtain ⟨fates, hfates⟩ := h.ticketed
  have hticketed := hfates.startLoop hstart
  rw [Monitor.startLoop] at hstart
  split_ifs at hstart
  cases hstart
  exact ⟨h.proper, h.guarded, h.counted, fates, hticketed⟩

theorem stopLoop {monitor : Monitor} (h : room.Sound false [])
    (hstop : room.system.monitor.stopLoop = .ok (n, monitor)) :
    (room.withMonitor monitor).Sound false [] := by
  obtain ⟨fates, hfates⟩ := h.ticketed
  have hticketed := hfates.stopLoop hstop
  rw [Monitor.stopLoop] at hstop
  split at hstop <;> cases hstop
  exact ⟨h.proper, h.guarded, h.counted, fates, hticketed⟩

/-- A request is skipped before a loop gets it. -/
theorem skipRequest (h : room.Sound false [.early ticket]) :
    (((room.withMonitor room.system.monitor.skip).note ⟨.request ticket, true, .skipped⟩).give
      ticket (.ok .skipped)).Sound false [] where
  proper := h.proper
  guarded := h.guarded
  counted := h.counted.skip (.request ticket)
  ticketed := by
    obtain ⟨fates, hfates⟩ := h.ticketed
    have hskipped : Ticketed room.system.monitor.skip _ room.ledger fates :=
      hfates.congr (fun _ => rfl) (fun _ => rfl) (fun _ => rfl) rfl rfl
    refine ⟨_, hskipped.decline rfl fun t => ?_⟩
    split_ifs with heq
    · subst heq
      exact Ledger.outcomesOf_note_self room.ledger t true .skipped
    · rw [List.append_nil]
      exact Ledger.outcomesOf_note_of_ne (by simpa using Ne.symm heq)

/-- A request is refused. -/
theorem refuse (h : room.Sound false [.early ticket]) (e : MonitorError) :
    (room.give ticket (.error e)).Sound false [] where
  proper := h.proper
  guarded := h.guarded
  counted := h.counted
  ticketed := by
    obtain ⟨fates, hfates⟩ := h.ticketed
    refine ⟨_, hfates.decline rfl fun t => ?_⟩
    exact (List.append_nil _).symm.trans (congrArg _ (ite_self _).symm)

theorem submit (h : room.Sound false [.early ticket]) (n : Nat) :
    (room.submit ticket n).Sound false [] := by
  rw [Guardroom.submit, Monitor.submit]
  split_ifs with hfinished hfull
  · exact h.refuse .stopped
  · rw [hfull]
    exact h.skipRequest
  · obtain ⟨fates, hfates⟩ := h.ticketed
    have haccepted := hfates.accept (Bool.not_eq_true _ ▸ hfinished)
      (Option.not_isSome_iff_eq_none.1 hfull)
    exact Sound.stay (.waiting ticket n) ⟨h.proper, h.guarded, h.counted, _, haccepted⟩
      trivial

/-- A request returns with the answer of a loop. -/
theorem collect {answer : Option PassOutcome} (h : room.Sound false [.waiting ticket n])
    (hanswer : room.system.monitor.answer? ticket = some answer) :
    ((room.withMonitor (room.system.monitor.forget ticket)).give ticket
      (Monitor.resultOf answer)).Sound false [] where
  proper := h.proper
  guarded := h.guarded
  counted := h.counted
  ticketed := by
    obtain ⟨fates, hfates⟩ := h.ticketed
    exact ⟨fates, hfates.collect hanswer⟩

theorem forget (h : room.Sound false [.waiting ticket n]) :
    (room.withMonitor (room.system.monitor.forget ticket)).Sound false [] where
  proper := h.proper
  guarded := h.guarded
  counted := h.counted
  ticketed := by
    obtain ⟨fates, hfates⟩ := h.ticketed
    exact ⟨fates, hfates.forget⟩

/-- The waiting of a loop is over. -/
theorem takeTurn (h : room.Sound false [.idle n]) (due : Option Nat) :
    (room.takeTurn n due).Sound false [] := by
  obtain ⟨fates, hfates⟩ := h.ticketed
  rw [Guardroom.takeTurn]
  cases hturn : Action.turn n due room.time room.system with
  | ends | fails => exact h.endLoop (Seat.isLoop_idle n)
  | waits => exact Sound.stay (.loop n due) h trivial
  | ticks next =>
    exact sound_onTurn_of_begin room ⟨h.proper, h.guarded, h.counted, fates, hfates.beginTick⟩
      (Action.passBegin_run _ _)
  | meets ticket =>
    have htaken := hfates.take (Action.request?_of_turn hturn)
    exact sound_onTurn_of_begin (room.withMonitor (room.system.monitor.take n))
      ⟨h.proper, h.guarded, h.counted, _, htaken⟩ (Action.passBegin_run _ _)

end Sound

/-! ## Hands -/

variable {hand : Hand}

/-- Who makes a pass has no ticket. -/
theorem Sound.of_pass (h : room.Sound true [.pass]) : room.Sound true [] := by
  obtain ⟨fates, hfates⟩ := h.ticketed
  exact ⟨h.proper, h.guarded, h.counted, fates, Ticketed.cons_pass_iff.1 hfates⟩

/-- A hand goes on until it waits. -/
theorem Sound.work (h : room.Sound hand.seat.holdsGuard [hand.seat]) (hhand : hand.Proper) :
    (room.work hand).Sound false [] := by
  cases hand with
  | pass found rest =>
    obtain ⟨rfl, hrest⟩ := hhand
    exact sound_onPass_of_step room h.of_pass (hrest.run room.time room.system)
  | starting n =>
    have hgoes (due : Option Nat) : (room.stay (.loop n due)).Sound false [] :=
      Sound.stay (.loop n due) h trivial
    rw [Guardroom.work, Action.run_beginMonitor]
    rcases room.system.monitor.settings.tickInterval with _ | _ | _
    · exact hgoes none
    · exact h.endLoop (Seat.isLoop_idle n)
    · exact hgoes (some room.time)
  | loop n due =>
    have hsystem := ((Action.meets_awaitTurn n due room.time room.system).run
      System.Unchanged.refl (fun _ _ _ _ => System.Unchanged.trans) []).1
    rw [Guardroom.work]
    generalize (Action.awaitTurn n due).run room.time room.system [] = ending at hsystem ⊢
    obtain ⟨progress, system, started⟩ := ending
    obtain rfl : system = room.system := hsystem
    cases progress with
    | finished _ => exact Sound.takeTurn h due
    | crashed | waiting _ => exact Sound.stay (.loop n due) h trivial
  | turn n ticket due found rest =>
    obtain ⟨rfl, hrest⟩ := hhand
    exact sound_onTurn_of_step room h (hrest.run room.time room.system)
  | asking ticket =>
    rw [Guardroom.work]
    split_ifs
    · exact Sound.skipRequest h
    · exact Sound.stay (.finding ticket) h trivial
  | finding ticket =>
    rw [Guardroom.work]
    cases room.system.monitor.attached with
    | none => exact Sound.refuse h .notRunning
    | some n => exact Sound.stay (.sending ticket n) h trivial
  | sending ticket n => exact Sound.submit h n
  | waiting ticket n =>
    rw [Guardroom.work]
    cases hanswer : room.system.monitor.answer? ticket with
    | none => exact Sound.stay (.waiting ticket n) h trivial
    | some answer => exact Sound.collect h hanswer

/-- A caller who waits is interrupted. -/
theorem Sound.interrupt (h : room.Sound hand.seat.holdsGuard [hand.seat])
    (hhand : hand.Proper) : (room.interrupt hand).Sound false [] := by
  cases hand with
  | pass found rest =>
    exact h.of_pass.leave.congr_system _ (hhand.2.giveUp room.system)
  | waiting ticket n => exact Sound.forget h
  | starting _ | loop _ _ | turn _ _ _ _ _ | asking _ | finding _ | sending _ _ =>
    exact Sound.stay _ h hhand

/-! ## Moves -/

theorem sound_start (s : System) : (start s).Sound false [] where
  proper := fun _ hhand => nomatch hhand
  guarded := rfl
  counted := ⟨rfl, rfl, fun _ hattempt => nomatch hattempt⟩
  ticketed := ⟨_, Ticketed.new rfl rfl⟩

/-- A hand leaves its seat. -/
theorem Sound.leaveSeat (h : room.Sound false []) (hhand : room.hands[n]? = some hand) :
    Sound hand.seat.holdsGuard [hand.seat] { room with hands := room.hands.eraseIdx n } ∧
      hand.Proper := by
  have hperm : room.hands.Perm (hand :: room.hands.eraseIdx n) := by
    obtain ⟨hn, rfl⟩ := List.getElem?_eq_some_iff.1 hhand
    exact (List.getElem_cons_eraseIdx_perm hn).symm
  obtain ⟨fates, hfates⟩ := h.ticketed
  refine ⟨⟨?_, ?_, h.counted, fates, hfates.perm (hperm.map Hand.seat)⟩, ?_⟩
  · exact fun other hother => h.proper other (List.mem_of_mem_eraseIdx hother)
  · exact Guarded.cons_iff.1 (h.guarded.perm (hperm.map Hand.seat))
  · exact h.proper hand (List.mem_of_getElem? hhand)

/-- **Each move** keeps order. -/
theorem Sound.after (h : room.Sound false []) (move : Move) : (room.after move).Sound false [] := by
  cases move with
  | tick ms => exact ⟨h.proper, h.guarded, h.counted, h.ticketed⟩
  | other change leaves => exact h.congr_system (change room.system) (leaves room.system)
  | pass => exact sound_onPass_of_begin h (Action.passBegin_run room.time room.system)
  | passAt now => exact sound_onPass_of_begin h (Action.passBegin_runAt now room.time room.system)
  | check =>
    obtain ⟨fates, hfates⟩ := h.ticketed
    exact Sound.stay (.asking room.system.monitor.nextTicket)
      ⟨h.proper, h.guarded, h.counted, fates, hfates.draw⟩ trivial
  | start linked =>
    rw [Guardroom.after, Action.run_startMonitor]
    cases hstart : room.system.monitor.startLoop linked with
    | error e =>
      show (room.join []).Sound false []
      rw [join, List.filterMap_nil, List.append_nil]
      exact h
    | ok started =>
      obtain ⟨n, monitor⟩ := started
      exact Sound.stay (.starting n) (h.startLoop hstart) trivial
  | stop =>
    rw [Guardroom.after, Action.run_haltMonitor]
    cases hstop : room.system.monitor.stopLoop with
    | error e => exact h
    | ok stopped =>
      obtain ⟨n, monitor⟩ := stopped
      exact h.stopLoop hstop
  | resume n =>
    rw [Guardroom.after]
    cases hhand : room.hands[n]? with
    | none => exact h
    | some hand =>
      obtain ⟨hleft, hproper⟩ := h.leaveSeat hhand
      exact hleft.work hproper
  | interrupt n =>
    rw [Guardroom.after]
    cases hhand : room.hands[n]? with
    | none => exact h
    | some hand =>
      obtain ⟨hleft, hproper⟩ := h.leaveSeat hhand
      exact hleft.interrupt hproper

theorem Sound.afterAll (h : room.Sound false []) (moves : List Move) :
    (room.afterAll moves).Sound false [] := by
  induction moves generalizing room with
  | nil => exact h
  | cons move moves ih => exact ih (h.after move)

/-! ## In order -/

/-- No hand is that of a loop: the loop has come to its end, or it was never started. -/
def Unmanned (room : Guardroom) (n : Nat) : Prop :=
  ∀ hand ∈ room.hands, hand.seat.isLoop n = false

instance (room : Guardroom) (n : Nat) : Decidable (room.Unmanned n) :=
  inferInstanceAs (Decidable (∀ hand ∈ room.hands, hand.seat.isLoop n = false))

/-- Passes and requests are in order. -/
structure Orderly (room : Guardroom) : Prop where
  /-- The guard is taken if and only if somebody makes a pass, who is the only one then. -/
  guarded : room.hands.countP (fun hand => hand.seat.holdsGuard) =
    room.system.monitor.passing.toNat
  /-- Whoever makes a pass has taken the guard and gives it back however the pass ends. -/
  underWay : ∀ hand ∈ room.hands, hand.Proper
  /-- Each attempt is counted once, as a pass or as skipped. -/
  passes : room.system.monitor.stats.passes =
    room.ledger.attempts.countP fun a => a.outcome ≠ .skipped
  skipped : room.system.monitor.stats.skipped =
    room.ledger.attempts.countP fun a => a.outcome = .skipped
  /-- It is skipped if and only if a pass was under way already, or requested. -/
  found : ∀ attempt ∈ room.ledger.attempts, attempt.outcome = .skipped ↔ attempt.found = true
  /-- A request is attempted once at most, and if it has returned, with an outcome if and only if it
  was attempted. -/
  attempted (ticket : Nat) : (room.ledger.outcomesOf ticket).length ≤ 1
  returned (ticket : Nat) (result : Except MonitorError PassOutcome) :
    (ticket, result) ∈ room.ledger.returned →
      room.ledger.outcomesOf ticket = result.toOption.toList
  once (ticket : Nat) : room.ledger.returned.countP (fun r => r.1 = ticket) ≤ 1
  /-- A loop is at work in one place until it ends, and then the monitor knows that it has. -/
  manned (n : Nat) : room.hands.countP (fun hand => hand.seat.isLoop n) =
    if room.system.monitor.isFinished n then 0 else 1
  /-- Nobody waits for a loop that has ended: there is an answer, with the outcome if the request
  was attempted and with nothing otherwise. -/
  answered (ticket n : Nat) : .waiting ticket n ∈ room.hands → room.Unmanned n →
    room.system.monitor.answer? ticket = some (room.ledger.outcomesOf ticket).head?
  /-- With this answer the request returns as soon as its caller goes on. -/
  returns (i ticket n : Nat) : room.hands[i]? = some (.waiting ticket n) → room.Unmanned n →
    (room.after (.resume i)).hands = room.hands.eraseIdx i ∧
      (room.after (.resume i)).ledger =
        room.ledger.give ticket (Monitor.resultOf (room.ledger.outcomesOf ticket).head?)

theorem Sound.answer?_of_unmanned (h : room.Sound false []) (hhand : .waiting ticket n ∈ room.hands)
    (hunmanned : room.Unmanned n) :
    room.system.monitor.answer? ticket = some (room.ledger.outcomesOf ticket).head? := by
  obtain ⟨fates, hfates⟩ := h.ticketed
  exact hfates.answered_of_unmanned (List.mem_map_of_mem (f := Hand.seat) hhand)
    (List.forall_mem_map.2 hunmanned)

/-- A caller who waits returns with his answer. -/
theorem after_resume_of_answer? {i : Nat} {answer : Option PassOutcome}
    (hhand : room.hands[i]? = some (.waiting ticket n))
    (hanswer : room.system.monitor.answer? ticket = some answer) :
    room.after (.resume i) =
      (({ room with hands := room.hands.eraseIdx i } : Guardroom).withMonitor
        (room.system.monitor.forget ticket)).give ticket (Monitor.resultOf answer) := by
  rw [Guardroom.after, hhand]
  simp only [work, hanswer]

theorem Sound.orderly (h : room.Sound false []) : room.Orderly := by
  obtain ⟨fates, hfates⟩ := h.ticketed
  exact {
    guarded := by
      have hguarded : (room.hands.map Hand.seat).countP Seat.holdsGuard = _ := h.guarded
      rwa [List.countP_map] at hguarded
    underWay := h.proper
    passes := h.counted.passes
    skipped := h.counted.skipped
    found := h.counted.found
    attempted := hfates.length_outcomesOf_le_one
    returned := fun _ _ => hfates.outcomesOf_of_returned
    once := hfates.countP_returned_le_one
    manned := fun n => by
      have hloop : (room.hands.map Hand.seat).countP (Seat.isLoop n) = _ := hfates.loop n
      rwa [List.countP_map] at hloop
    answered := fun _ _ => h.answer?_of_unmanned
    returns := fun i ticket n hhand hunmanned => by
      have hanswer := h.answer?_of_unmanned (List.mem_of_getElem? hhand) hunmanned
      rw [after_resume_of_answer? hhand hanswer]
      exact ⟨rfl, rfl⟩ }

/-- **The monitor keeps order**, whatever callers and loops do and in whatever order they take
turns: passes never overlap, each attempt at one is counted once, a request that returns was met or
skipped once or failed without an attempt, and no caller waits for a loop that has ended. -/
theorem afterAll_orderly (s : System) (moves : List Move) :
    ((start s).afterAll moves).Orderly :=
  ((sound_start s).afterAll moves).orderly

/-- The store takes half a second to list the records. -/
private def sluggish : System where
  origin := .ofMillis 1728043200000
  store := .volatile
  disturbance := { delays := [("list", 500)] }
  bus := .new 1
  monitor := { settings := {} }
  scheduler := { tasks := [], timeout := 5000 }

/-- A loop is told to stop before it meets the request that somebody has handed in, and it ends. -/
private def dismissal : List Move :=
  [.start false, .resume 0, .check, .resume 1, .resume 1, .resume 1, .stop, .resume 0]

/-- Who waits for a loop that ends without an answer gets to know that. -/
theorem afterAll_orderly_dismissal :
    let room := (start sluggish).afterAll dismissal
    room.hands.map Hand.seat = [.waiting 0 0] ∧ room.system.monitor.isFinished 0 = true ∧
      (room.after (.resume 0)).hands = [] ∧
      (room.after (.resume 0)).ledger = { returned := [(0, .error .stopped)] } := by
  intro room
  have horderly : room.Orderly := afterAll_orderly sluggish dismissal
  have hseats : room.hands.map Hand.seat = [.waiting 0 0] := by decide +kernel
  have hunmanned : room.Unmanned 0 := by decide +kernel
  have hledger : room.ledger = {} := rfl
  have hhand : room.hands = [.waiting 0 0] := rfl
  obtain ⟨hhands, hreturned⟩ :=
    horderly.returns 0 0 0 (congrArg (fun hands => hands[0]?) hhand) hunmanned
  refine ⟨hseats, by decide +kernel, ?_, ?_⟩
  · rw [hhands, hhand]
    rfl
  · rw [hreturned, hledger]
    rfl

/-- A loop meets a request, and a caller makes a pass of his own meanwhile. -/
private def crossing : List Move :=
  [.start false, .resume 0, .check, .resume 1, .resume 1, .resume 1, .resume 0, .pass, .tick 500,
    .resume 1, .resume 0]

example :
    let room := (start sluggish).afterAll crossing
    room.ledger.attempts.map (fun a => (a.purpose, a.found)) =
        [(.caller, true), (.request 0, false)] ∧
      room.ledger.returned.map Prod.fst = [0] ∧
      room.system.monitor.stats = { passes := 1, skipped := 1 } := by
  decide +kernel

end Guardroom

end Pulse
