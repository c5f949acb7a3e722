import Mathlib.Logic.Function.Basic
import Mathlib.Order.Nat
import Pulse.Proofs.Monitor.Loops
import Pulse.Proofs.Monitor.Seats

/-!
# What becomes of a request

A request has a ticket, and each ticket has a `Fate`: it waits for a loop, is met by it, or is
settled.  `Ticketed` says how fates, seats, ledger and the state of a monitor belong together, and
each thing that happens to a request has a lemma that says that they still do.

* `Ticketed.outcomesOf_of_returned` — a request that returned with an outcome was attempted once,
  with this outcome, and one that returned with an error was not attempted.
* `Ticketed.answered_of_unmanned` — when a loop has ended, no caller waits for it without an
  answer.
-/

set_option autoImplicit false

namespace Pulse

/-- What has become of a ticket. -/
inductive Fate where
  /-- Nothing so far. -/
  | open
  | queued (n : Nat)
  | serving (n : Nat)
  /-- The request was met, or it will not be. -/
  | settled (outcome : Option PassOutcome)
deriving DecidableEq

/-- The outcomes that a request with this fate has. -/
def Fate.outcomes : Fate → List PassOutcome
  | settled outcome => outcome.toList
  | _ => []

/-- A change of what becomes of one ticket is none for tickets of which something else has become. -/
theorem update_fates_of_ne {fates : Nat → Fate} {ticket t : Nat} {old new fate : Fate}
    (hold : fates ticket = old) (hne : fate ≠ old) (ht : fates t = fate) :
    Function.update fates ticket new t = fate := by
  have hother : t ≠ ticket := by
    rintro rfl
    exact hne (ht.symm.trans hold)
  rw [Function.update_of_ne hother, ht]

/-! ## Tickets and who holds them -/

/-- Fates, seats, ledger and the state of a monitor belong together. -/
structure Ticketed (monitor : Monitor) (seats : List Seat) (ledger : Ledger) (fates : Nat → Fate) :
    Prop where
  /-- A loop has one seat until it ends. -/
  loop (n : Nat) : seats.countP (Seat.isLoop n) = if monitor.isFinished n then 0 else 1
  idle (n : Nat) : .idle n ∈ seats → monitor.serving? n = none
  turn (n : Nat) (ticket : Option Nat) : .turn n ticket ∈ seats → monitor.serving? n = ticket
  queued (n ticket : Nat) : monitor.request? n = some ticket ↔ fates ticket = .queued n
  serving (n ticket : Nat) : monitor.serving? n = some ticket ↔ fates ticket = .serving n
  ended (n : Nat) : monitor.isFinished n = true →
    monitor.request? n = none ∧ monitor.serving? n = none
  early (ticket : Nat) : .early ticket ∈ seats → fates ticket = .open
  waiting (ticket n : Nat) : .waiting ticket n ∈ seats →
    fates ticket = .queued n ∨ fates ticket = .serving n ∨
      ∃ outcome, (ticket, outcome) ∈ monitor.answers
  answered (ticket : Nat) (outcome : Option PassOutcome) :
    (ticket, outcome) ∈ monitor.answers → fates ticket = .settled outcome
  /-- A request has one caller, to whom it returns at most once. -/
  callers (ticket : Nat) :
    seats.countP (Seat.isCaller ticket) + ledger.returned.countP (fun r => r.1 = ticket) ≤
      if ticket < monitor.nextTicket then 1 else 0
  unused (ticket : Nat) : monitor.nextTicket ≤ ticket → fates ticket = .open
  attempts (ticket : Nat) : ledger.outcomesOf ticket = (fates ticket).outcomes
  returned (ticket : Nat) (result : Except MonitorError PassOutcome) :
    (ticket, result) ∈ ledger.returned → fates ticket = .settled result.toOption

namespace Ticketed

variable {monitor : Monitor} {seats seats' : List Seat} {ledger : Ledger} {fates : Nat → Fate}
  {n ticket : Nat}

theorem new (hloops : monitor.loops = []) (hanswers : monitor.answers = []) :
    Ticketed monitor [] {} fun _ => .open := by
  have hrequest (n : Nat) : monitor.request? n = none := by
    rw [Monitor.request?, hloops]
    rfl
  have hserving (n : Nat) : monitor.serving? n = none := by
    rw [Monitor.serving?, hloops]
    rfl
  have hfinished (n : Nat) : monitor.isFinished n = true := by
    rw [Monitor.isFinished, hloops]
    rfl
  constructor <;> simp [hrequest, hserving, hfinished, hanswers, Ledger.outcomesOf, Fate.outcomes]

theorem perm (h : Ticketed monitor seats ledger fates) (hperm : seats.Perm seats') :
    Ticketed monitor seats' ledger fates where
  __ := h
  loop n := hperm.countP_eq (Seat.isLoop n) ▸ h.loop n
  idle n hn := h.idle n (hperm.mem_iff.2 hn)
  turn n ticket hn := h.turn n ticket (hperm.mem_iff.2 hn)
  early ticket ht := h.early ticket (hperm.mem_iff.2 ht)
  waiting ticket n ht := h.waiting ticket n (hperm.mem_iff.2 ht)
  callers ticket := hperm.countP_eq (Seat.isCaller ticket) ▸ h.callers ticket

/-- What happens to anything else does not matter to requests. -/
theorem congr {monitor' : Monitor} (h : Ticketed monitor seats ledger fates)
    (hrequest : ∀ n, monitor'.request? n = monitor.request? n)
    (hserving : ∀ n, monitor'.serving? n = monitor.serving? n)
    (hfinished : ∀ n, monitor'.isFinished n = monitor.isFinished n)
    (hanswers : monitor'.answers = monitor.answers)
    (hnext : monitor'.nextTicket = monitor.nextTicket) :
    Ticketed monitor' seats ledger fates where
  loop n := hfinished n ▸ h.loop n
  idle n hn := hserving n ▸ h.idle n hn
  turn n ticket hn := hserving n ▸ h.turn n ticket hn
  queued n ticket := hrequest n ▸ h.queued n ticket
  serving n ticket := hserving n ▸ h.serving n ticket
  ended n hn := by
    rw [hrequest, hserving]
    exact h.ended n (hfinished n ▸ hn)
  early := h.early
  waiting := hanswers ▸ h.waiting
  answered := hanswers ▸ h.answered
  callers := hnext ▸ h.callers
  unused := hnext ▸ h.unused
  attempts := h.attempts
  returned := h.returned

/-- A caller who makes a pass has no ticket. -/
theorem cons_pass_iff :
    Ticketed monitor (.pass :: seats) ledger fates ↔ Ticketed monitor seats ledger fates := by
  constructor
  · exact fun h => { h with
      idle := fun n hn => h.idle n (List.mem_cons_of_mem _ hn)
      turn := fun n ticket hn => h.turn n ticket (List.mem_cons_of_mem _ hn)
      early := fun ticket ht => h.early ticket (List.mem_cons_of_mem _ ht)
      waiting := fun ticket n ht => h.waiting ticket n (List.mem_cons_of_mem _ ht) }
  · exact fun h => { h with
      idle := fun n hn => h.idle n (by simpa using hn)
      turn := fun n ticket hn => h.turn n ticket (by simpa using hn)
      early := fun ticket ht => h.early ticket (by simpa using ht)
      waiting := fun ticket n ht => h.waiting ticket n (by simpa using ht) }

/-- Attempts that are not made for a request do not matter to requests. -/
theorem note {attempt : Attempt} (h : Ticketed monitor seats ledger fates)
    (hattempt : ∀ ticket, attempt.purpose ≠ .request ticket) :
    Ticketed monitor seats (ledger.note attempt) fates where
  __ := h
  attempts ticket :=
    (Ledger.outcomesOf_note_of_ne (hattempt ticket)).trans (h.attempts ticket)

/-! ### Who has a seat -/

theorem of_isLoop {seat : Seat} (h : Ticketed monitor (seat :: seats) ledger fates)
    (hseat : seat.isLoop n = true) :
    monitor.isFinished n = false ∧ ∀ other ∈ seats, other.isLoop n = false := by
  have hloop := h.loop n
  rw [List.countP_cons_of_pos hseat] at hloop
  cases hfinished : monitor.isFinished n with
  | true => simp [hfinished] at hloop
  | false =>
    rw [hfinished, if_neg Bool.false_ne_true, Nat.add_eq_right, List.countP_eq_zero] at hloop
    exact ⟨rfl, fun other hother => Bool.not_eq_true _ ▸ hloop other hother⟩

theorem of_isCaller {seat : Seat} (h : Ticketed monitor (seat :: seats) ledger fates)
    (hseat : seat.isCaller ticket = true) :
    ticket < monitor.nextTicket ∧ seats.countP (Seat.isCaller ticket) = 0 := by
  have hcallers := h.callers ticket
  rw [List.countP_cons_of_pos hseat] at hcallers
  split_ifs at hcallers <;> omega

/-- Two seats of loops are those of different loops. -/
theorem ne_of_isLoop {seat other : Seat} {k : Nat}
    (h : Ticketed monitor (seat :: seats) ledger fates) (hseat : seat.isLoop n = true)
    (hother : other ∈ seats) (hk : other.isLoop k = true) : n ≠ k := by
  rintro rfl
  exact Bool.false_ne_true (((h.of_isLoop hseat).2 other hother).symm.trans hk)

/-- Two seats of callers with tickets are those of different tickets. -/
theorem ne_of_isCaller {seat other : Seat} {t : Nat}
    (h : Ticketed monitor (seat :: seats) ledger fates) (hseat : seat.isCaller ticket = true)
    (hother : other ∈ seats) (ht : other.isCaller t = true) : t ≠ ticket := by
  rintro rfl
  exact List.countP_eq_zero.1 (h.of_isCaller hseat).2 other hother ht

/-! ### Loops at work -/

/-- A loop begins to meet a request. -/
theorem take (h : Ticketed monitor (.idle n :: seats) ledger fates)
    (hrequest : monitor.request? n = some ticket) :
    Ticketed (monitor.take n) (.turn n (some ticket) :: seats) ledger
      (Function.update fates ticket (.serving n)) := by
  have hidle : monitor.serving? n = none := h.idle n List.mem_cons_self
  have hfate : fates ticket = .queued n := (h.queued n ticket).1 hrequest
  have hne {k : Nat} {other : Seat} : other ∈ seats → other.isLoop k = true → n ≠ k :=
    h.ne_of_isLoop (Seat.isLoop_idle n)
  exact {
    loop := fun k => by
      rw [Monitor.isFinished_take, ← h.loop k]
      rfl
    idle := fun k hk => by
      have hk : .idle k ∈ seats := by simpa using hk
      rw [Monitor.serving?_take, if_neg (hne hk (decide_eq_true rfl))]
      exact h.idle k (List.mem_cons_of_mem _ hk)
    turn := fun k t hk => by
      rcases List.mem_cons.1 hk with heq | hk
      · cases heq
        rw [Monitor.serving?_take, if_pos rfl, hrequest]
      · rw [Monitor.serving?_take, if_neg (hne hk (decide_eq_true rfl))]
        exact h.turn k t (List.mem_cons_of_mem _ hk)
    queued := fun k t => by
      rw [Monitor.request?_take, Function.update_apply]
      have := h.queued k t
      grind
    serving := fun k t => by
      rw [Monitor.serving?_take, Function.update_apply]
      have := h.serving k t
      have := h.queued k t
      grind
    ended := fun k hk => by
      rw [Monitor.isFinished_take] at hk
      rw [Monitor.request?_take, Monitor.serving?_take]
      have := h.ended k hk
      grind
    early := fun t ht => update_fates_of_ne hfate nofun (h.early t (by simpa using ht))
    waiting := fun t k ht => by
      have := h.waiting t k (by simpa using ht)
      have := h.answered t
      grind [Function.update_apply, Monitor.take, Monitor.updateLoop]
    answered := fun t o ht => update_fates_of_ne hfate nofun (h.answered t o ht)
    callers := h.callers
    unused := fun t ht => update_fates_of_ne hfate nofun (h.unused t ht)
    attempts := fun t => by
      have := h.attempts t
      grind [Function.update_apply, Fate.outcomes]
    returned := fun t r ht => update_fates_of_ne hfate nofun (h.returned t r ht) }

/-- A loop makes a pass because of a tick. -/
theorem beginTick (h : Ticketed monitor (.idle n :: seats) ledger fates) :
    Ticketed monitor (.turn n none :: seats) ledger fates := by
  have hidle : monitor.serving? n = none := h.idle n List.mem_cons_self
  exact { h with
    loop := h.loop
    idle := fun k hk => h.idle k (by simp_all)
    turn := fun k t hk => by
      rcases List.mem_cons.1 hk with heq | hk
      · cases heq
        exact hidle
      · exact h.turn k t (List.mem_cons_of_mem _ hk)
    early := fun t ht => h.early t (by simp_all)
    waiting := fun t k ht => h.waiting t k (by simp_all)
    callers := h.callers }

theorem endTick (h : Ticketed monitor (.turn n none :: seats) ledger fates) :
    Ticketed monitor (.idle n :: seats) ledger fates := by
  have hidle : monitor.serving? n = none := h.turn n none List.mem_cons_self
  exact { h with
    loop := h.loop
    idle := fun k hk => by
      rcases List.mem_cons.1 hk with heq | hk
      · cases heq
        exact hidle
      · exact h.idle k (List.mem_cons_of_mem _ hk)
    turn := fun k t hk => h.turn k t (by simp_all)
    early := fun t ht => h.early t (by simp_all)
    waiting := fun t k ht => h.waiting t k (by simp_all)
    callers := h.callers }

/-- A loop has met a request. -/
theorem reply (h : Ticketed monitor (.turn n (some ticket) :: seats) ledger fates) (found : Bool)
    (outcome : PassOutcome) :
    Ticketed (monitor.reply n ticket outcome) (.idle n :: seats)
      (ledger.note ⟨.request ticket, found, outcome⟩)
      (Function.update fates ticket (.settled (some outcome))) := by
  have hserving : monitor.serving? n = some ticket := h.turn n (some ticket) List.mem_cons_self
  have hfate : fates ticket = .serving n := (h.serving n ticket).1 hserving
  have hne {k : Nat} {other : Seat} : other ∈ seats → other.isLoop k = true → n ≠ k :=
    h.ne_of_isLoop (Seat.isLoop_turn n _)
  have hanswers {t : Nat} {o : Option PassOutcome} :
      (t, o) ∈ (monitor.reply n ticket outcome).answers ↔
        (t, o) ∈ monitor.answers ∨ t = ticket ∧ o = some outcome := by
    simp [Monitor.reply, Monitor.answer, Monitor.updateLoop]
  exact {
    loop := fun k => by
      rw [Monitor.isFinished_reply, ← h.loop k]
      rfl
    idle := fun k hk => by
      rw [Monitor.serving?_reply]
      rcases List.mem_cons.1 hk with heq | hk
      · cases heq
        exact if_pos rfl
      · rw [if_neg (hne hk (decide_eq_true rfl))]
        exact h.idle k (List.mem_cons_of_mem _ hk)
    turn := fun k t hk => by
      have hk : .turn k t ∈ seats := by simpa using hk
      rw [Monitor.serving?_reply, if_neg (hne hk (decide_eq_true rfl))]
      exact h.turn k t (List.mem_cons_of_mem _ hk)
    queued := fun k t => by
      rw [Monitor.request?_reply, Function.update_apply]
      have := h.queued k t
      grind
    serving := fun k t => by
      rw [Monitor.serving?_reply, Function.update_apply]
      have := h.serving k t
      grind
    ended := fun k hk => by
      rw [Monitor.isFinished_reply] at hk
      rw [Monitor.request?_reply, Monitor.serving?_reply]
      have := h.ended k hk
      grind
    early := fun t ht => update_fates_of_ne hfate (by simp) (h.early t (by simpa using ht))
    waiting := fun t k ht => by
      by_cases heq : t = ticket
      · exact .inr (.inr ⟨some outcome, hanswers.2 (.inr ⟨heq, rfl⟩)⟩)
      · rw [Function.update_of_ne heq]
        refine (h.waiting t k (by simpa using ht)).imp_right (.imp_right fun ho => ?_)
        obtain ⟨o, ho⟩ := ho
        exact ⟨o, hanswers.2 (.inl ho)⟩
    answered := fun t o ht => by
      rcases hanswers.1 ht with ht | ⟨rfl, rfl⟩
      · exact update_fates_of_ne hfate (by simp) (h.answered t o ht)
      · exact Function.update_self ..
    callers := h.callers
    unused := fun t ht => update_fates_of_ne hfate (by simp) (h.unused t ht)
    attempts := fun t => by
      rw [Function.update_apply]
      split_ifs with heq
      · subst heq
        rw [Ledger.outcomesOf_note_self, h.attempts, hfate]
        rfl
      · rw [Ledger.outcomesOf_note_of_ne (by simpa using Ne.symm heq)]
        exact h.attempts t
    returned := fun t r ht => update_fates_of_ne hfate (by simp) (h.returned t r ht) }

/-- A loop ends, in whatever it does. -/
theorem endLoop {seat : Seat} (h : Ticketed monitor (seat :: seats) ledger fates)
    (hseat : seat.isLoop n = true) :
    Ticketed (monitor.endLoop n) seats ledger fun ticket =>
      if fates ticket = .queued n ∨ fates ticket = .serving n then .settled none
      else fates ticket := by
  have hne {k : Nat} {other : Seat} : other ∈ seats → other.isLoop k = true → n ≠ k :=
    h.ne_of_isLoop hseat
  obtain ⟨hrunning, hothers⟩ := h.of_isLoop hseat
  have hcaller (t : Nat) : seat.isCaller t = false := by
    cases seat <;> first | rfl | cases hseat
  exact {
    loop := fun k => by
      have := h.loop k
      rw [List.countP_cons] at this
      rw [Monitor.isFinished_endLoop]
      by_cases heq : n = k
      · subst heq
        simp_all
      · have hk : seat.isLoop k = false := by cases seat <;> simp_all [Seat.isLoop]
        simpa [hk, heq] using this
    idle := fun k hk => by
      rw [Monitor.serving?_endLoop, if_neg (hne hk (decide_eq_true rfl))]
      exact h.idle k (List.mem_cons_of_mem _ hk)
    turn := fun k t hk => by
      rw [Monitor.serving?_endLoop, if_neg (hne hk (decide_eq_true rfl))]
      exact h.turn k t (List.mem_cons_of_mem _ hk)
    queued := fun k t => by
      rw [Monitor.request?_endLoop]
      have := h.queued k t
      grind
    serving := fun k t => by
      rw [Monitor.serving?_endLoop]
      have := h.serving k t
      grind
    ended := fun k hk => by
      rw [Monitor.isFinished_endLoop] at hk
      rw [Monitor.request?_endLoop, Monitor.serving?_endLoop]
      have := h.ended k
      grind
    early := fun t ht => by
      have := h.early t (List.mem_cons_of_mem _ ht)
      grind
    waiting := fun t k ht => by
      have := h.waiting t k (List.mem_cons_of_mem _ ht)
      have := h.queued n t
      have := h.serving n t
      simp only [Monitor.mem_answers_endLoop]
      grind
    answered := fun t o ht => by
      rw [Monitor.mem_answers_endLoop] at ht
      have := h.answered t o
      have := h.queued n t
      have := h.serving n t
      grind
    callers := fun t => by
      have := h.callers t
      rwa [List.countP_cons_of_neg (by simp [hcaller])] at this
    unused := fun t ht => by
      have := h.unused t ht
      grind
    attempts := fun t => by
      have := h.attempts t
      grind [Fate.outcomes]
    returned := fun t r ht => by
      have := h.returned t r ht
      grind }

/-! ### Loops that start and stop -/

theorem startLoop (h : Ticketed monitor seats ledger fates) {linked : Bool} {monitor' : Monitor}
    (hstart : monitor.startLoop linked = .ok (n, monitor')) :
    Ticketed monitor' (.idle n :: seats) ledger fates := by
  have hnone : monitor.loops[n]? = none := Monitor.getElem?_of_startLoop hstart
  obtain ⟨-, hanswers, hnext, -⟩ := Monitor.loops_of_startLoop hstart
  exact {
    loop := fun k => by
      have hk := h.loop k
      rw [Monitor.isFinished_startLoop hstart]
      by_cases heq : n = k
      · subst heq
        rw [List.countP_cons_of_pos (Seat.isLoop_idle n), hk, if_pos rfl, Monitor.isFinished,
          hnone]
        rfl
      · rw [List.countP_cons_of_neg (by simpa [Seat.isLoop] using heq), hk, if_neg heq]
    idle := fun k hk => by
      rw [Monitor.serving?_startLoop hstart]
      rcases List.mem_cons.1 hk with heq | hk
      · cases heq
        rw [Monitor.serving?, hnone]
        rfl
      · exact h.idle k hk
    turn := fun k t hk => (Monitor.serving?_startLoop hstart).trans (h.turn k t (by simpa using hk))
    queued := fun k t => Monitor.request?_startLoop hstart ▸ h.queued k t
    serving := fun k t => Monitor.serving?_startLoop hstart ▸ h.serving k t
    ended := fun k hk => by
      rw [Monitor.isFinished_startLoop hstart] at hk
      rw [Monitor.request?_startLoop hstart, Monitor.serving?_startLoop hstart]
      split_ifs at hk
      exact h.ended k hk
    early := fun t ht => h.early t (by simpa using ht)
    waiting := fun t k ht => hanswers ▸ h.waiting t k (by simpa using ht)
    answered := hanswers ▸ h.answered
    callers := hnext ▸ h.callers
    unused := hnext ▸ h.unused
    attempts := h.attempts
    returned := h.returned }

theorem stopLoop (h : Ticketed monitor seats ledger fates) {monitor' : Monitor}
    (hstop : monitor.stopLoop = .ok (n, monitor')) : Ticketed monitor' seats ledger fates := by
  rw [Monitor.stopLoop] at hstop
  split at hstop
  · cases hstop
  · next k _ =>
    cases hstop
    refine h.congr (fun j => ?_) (fun j => ?_) (fun j => ?_) rfl rfl
    · exact Monitor.request?_updateLoop_of_eq _ _ _ _ fun _ => rfl
    · exact Monitor.serving?_updateLoop_of_eq _ _ _ _ fun _ => rfl
    · exact Monitor.isFinished_updateLoop _ _ _ _ fun _ => rfl

/-! ### Callers -/

/-- A caller takes a ticket. -/
theorem draw (h : Ticketed monitor seats ledger fates) :
    Ticketed monitor.draw.2 (.early monitor.nextTicket :: seats) ledger fates where
  loop := h.loop
  idle k hk := h.idle k (by simpa using hk)
  turn k t hk := h.turn k t (by simpa using hk)
  queued := h.queued
  serving := h.serving
  ended := h.ended
  early t ht := by
    rcases List.mem_cons.1 ht with heq | ht
    · cases heq
      exact h.unused _ (Nat.le_refl _)
    · exact h.early t ht
  waiting t k ht := h.waiting t k (by simpa using ht)
  answered := h.answered
  callers t := by
    have hcallers := h.callers t
    show _ ≤ if t < monitor.nextTicket + 1 then 1 else 0
    rw [List.countP_cons]
    by_cases heq : monitor.nextTicket = t
    · have hseat : (Seat.early monitor.nextTicket).isCaller t = true := decide_eq_true heq
      rw [if_neg (by omega)] at hcallers
      rw [hseat, if_pos rfl, if_pos (by omega)]
      omega
    · have hseat : (Seat.early monitor.nextTicket).isCaller t = false := decide_eq_false heq
      rw [hseat, if_neg Bool.false_ne_true]
      refine Nat.le_trans hcallers ?_
      split_ifs <;> omega
  unused t ht := h.unused t (Nat.le_of_succ_le ht)
  attempts := h.attempts
  returned := h.returned

/-- A request is handed to a loop. -/
theorem accept (h : Ticketed monitor (.early ticket :: seats) ledger fates)
    (hrunning : monitor.isFinished n = false) (hnone : monitor.request? n = none) :
    Ticketed (monitor.updateLoop n fun loop => { loop with request := some ticket })
      (.waiting ticket n :: seats) ledger (Function.update fates ticket (.queued n)) := by
  have hfate : fates ticket = .open := h.early ticket List.mem_cons_self
  have hlt : ticket < monitor.nextTicket := (h.of_isCaller (Seat.isCaller_early ticket)).1
  have hne {t : Nat} {other : Seat} : other ∈ seats → other.isCaller t = true → t ≠ ticket :=
    h.ne_of_isCaller (Seat.isCaller_early ticket)
  have hserving (k : Nat) : (monitor.updateLoop n fun loop =>
      { loop with request := some ticket }).serving? k = monitor.serving? k :=
    Monitor.serving?_updateLoop_of_eq _ _ _ _ fun _ => rfl
  have hfinished (k : Nat) : (monitor.updateLoop n fun loop =>
      { loop with request := some ticket }).isFinished k = monitor.isFinished k :=
    Monitor.isFinished_updateLoop _ _ _ _ fun _ => rfl
  exact {
    loop := fun k => by
      rw [hfinished, ← h.loop k]
      rfl
    idle := fun k hk => (hserving k).trans (h.idle k (by simpa using hk))
    turn := fun k t hk => (hserving k).trans (h.turn k t (by simpa using hk))
    queued := fun k t => by
      rw [Monitor.request?_accept hrunning, Function.update_apply]
      have := h.queued k t
      grind
    serving := fun k t => by
      rw [hserving, Function.update_apply]
      have := h.serving k t
      grind
    ended := fun k hk => by
      rw [hfinished] at hk
      rw [Monitor.request?_accept hrunning, hserving, if_neg (by grind)]
      exact h.ended k hk
    early := fun t ht => by
      have ht : .early t ∈ seats := by simpa using ht
      rw [Function.update_of_ne (hne ht (decide_eq_true rfl))]
      exact h.early t (List.mem_cons_of_mem _ ht)
    waiting := fun t k ht => by
      rcases List.mem_cons.1 ht with heq | ht
      · cases heq
        exact .inl (Function.update_self ..)
      · rw [Function.update_of_ne (hne ht (decide_eq_true rfl))]
        exact h.waiting t k (List.mem_cons_of_mem _ ht)
    answered := fun t o ht => update_fates_of_ne hfate nofun (h.answered t o ht)
    callers := h.callers
    unused := fun t ht => by
      rw [Function.update_of_ne (by exact Nat.ne_of_gt (Nat.lt_of_lt_of_le hlt ht))]
      exact h.unused t ht
    attempts := fun t => by
      have := h.attempts t
      grind [Function.update_apply, Fate.outcomes]
    returned := fun t r ht => update_fates_of_ne hfate nofun (h.returned t r ht) }

theorem callers_of_return {seat : Seat} (h : Ticketed monitor (seat :: seats) ledger fates)
    (hseat : ∀ t, seat.isCaller t = decide (ticket = t)) {ledger' : Ledger}
    {result : Except MonitorError PassOutcome}
    (hreturned : ledger'.returned = ledger.returned ++ [(ticket, result)]) (t : Nat) :
    seats.countP (Seat.isCaller t) + ledger'.returned.countP (fun r => r.1 = t) ≤
      if t < monitor.nextTicket then 1 else 0 := by
  have hcallers := h.callers t
  rw [List.countP_cons, hseat] at hcallers
  rw [hreturned, List.countP_append, List.countP_singleton]
  show _ + (_ + if decide (ticket = t) = true then 1 else 0) ≤ _
  omega

/-- A caller is interrupted. -/
theorem forget (h : Ticketed monitor (.waiting ticket n :: seats) ledger fates) :
    Ticketed (monitor.forget ticket) seats ledger fates := by
  have hanswers {t : Nat} {o : Option PassOutcome} :
      (t, o) ∈ (monitor.forget ticket).answers ↔ (t, o) ∈ monitor.answers ∧ t ≠ ticket := by
    simp [Monitor.forget]
  exact { h with
    loop := h.loop
    idle := fun k hk => h.idle k (List.mem_cons_of_mem _ hk)
    turn := fun k t hk => h.turn k t (List.mem_cons_of_mem _ hk)
    early := fun t ht => h.early t (List.mem_cons_of_mem _ ht)
    waiting := fun t k ht => by
      refine (h.waiting t k (List.mem_cons_of_mem _ ht)).imp_right (.imp_right fun ⟨o, ho⟩ => ?_)
      have hne := h.ne_of_isCaller (Seat.isCaller_waiting ticket n) ht (Seat.isCaller_waiting t k)
      exact ⟨o, hanswers.2 ⟨ho, hne⟩⟩
    answered := fun t o ht => h.answered t o (hanswers.1 ht).1
    callers := fun t => by
      have hle := h.callers t
      rw [List.countP_cons] at hle
      exact Nat.le_trans (by omega) hle }

/-- A request returns that was not handed to a loop. -/
theorem decline (h : Ticketed monitor (.early ticket :: seats) ledger fates) {ledger' : Ledger}
    {result : Except MonitorError PassOutcome}
    (hreturned : ledger'.returned = ledger.returned ++ [(ticket, result)])
    (hattempts : ∀ t, ledger'.outcomesOf t =
      ledger.outcomesOf t ++ if t = ticket then result.toOption.toList else []) :
    Ticketed monitor seats ledger'
      (Function.update fates ticket (.settled result.toOption)) := by
  have hfate : fates ticket = .open := h.early ticket List.mem_cons_self
  have hlt : ticket < monitor.nextTicket := (h.of_isCaller (Seat.isCaller_early ticket)).1
  have hne {t : Nat} {other : Seat} : other ∈ seats → other.isCaller t = true → t ≠ ticket :=
    h.ne_of_isCaller (Seat.isCaller_early ticket)
  exact {
    loop := h.loop
    idle := fun k hk => h.idle k (List.mem_cons_of_mem _ hk)
    turn := fun k t hk => h.turn k t (List.mem_cons_of_mem _ hk)
    queued := fun k t => by
      have := h.queued k t
      grind [Function.update_apply]
    serving := fun k t => by
      have := h.serving k t
      grind [Function.update_apply]
    ended := h.ended
    early := fun t ht => by
      rw [Function.update_of_ne (hne ht (decide_eq_true rfl))]
      exact h.early t (List.mem_cons_of_mem _ ht)
    waiting := fun t k ht => by
      rw [Function.update_of_ne (hne ht (decide_eq_true rfl))]
      exact h.waiting t k (List.mem_cons_of_mem _ ht)
    answered := fun t o ht => update_fates_of_ne hfate nofun (h.answered t o ht)
    callers := h.callers_of_return (fun _ => rfl) hreturned
    unused := fun t ht => by
      rw [Function.update_of_ne (by exact Nat.ne_of_gt (Nat.lt_of_lt_of_le hlt ht))]
      exact h.unused t ht
    attempts := fun t => by
      rw [hattempts, h.attempts, Function.update_apply]
      split_ifs with heq
      · rw [heq, hfate]
        rfl
      · exact List.append_nil _
    returned := fun t r ht => by
      rw [hreturned] at ht
      rcases List.mem_append.1 ht with ht | ht
      · exact update_fates_of_ne hfate nofun (h.returned t r ht)
      · cases List.mem_singleton.1 ht
        exact Function.update_self .. }

/-- An answer settles the request. -/
theorem fate_of_answer? (h : Ticketed monitor seats ledger fates) {outcome : Option PassOutcome}
    (hanswer : monitor.answer? ticket = some outcome) : fates ticket = .settled outcome := by
  obtain ⟨⟨t, o⟩, hfind, rfl⟩ := Option.map_eq_some_iff.1 hanswer
  obtain rfl : t = ticket := by simpa using List.find?_some hfind
  exact h.answered t o (List.mem_of_find?_eq_some hfind)

/-- A request returns with the answer of a loop. -/
theorem collect (h : Ticketed monitor (.waiting ticket n :: seats) ledger fates)
    {outcome : Option PassOutcome} (hanswer : monitor.answer? ticket = some outcome) :
    Ticketed (monitor.forget ticket) seats (ledger.give ticket (Monitor.resultOf outcome))
      fates := by
  have hfate := h.fate_of_answer? hanswer
  exact { h.forget with
    callers := h.callers_of_return (fun _ => rfl) rfl
    attempts := h.attempts
    returned := fun t r ht => by
      rcases List.mem_append.1 ht with ht | ht
      · exact h.returned t r ht
      · cases List.mem_singleton.1 ht
        rw [hfate]
        cases outcome <;> rfl }

/-! ### What callers see -/

/-- **A request that has returned** with an outcome was attempted once, with this outcome, and one
that returned with an error was not attempted. -/
theorem outcomesOf_of_returned (h : Ticketed monitor seats ledger fates)
    {result : Except MonitorError PassOutcome} (hreturned : (ticket, result) ∈ ledger.returned) :
    ledger.outcomesOf ticket = result.toOption.toList := by
  rw [h.attempts, h.returned ticket result hreturned]
  rfl

/-- No request is attempted twice, whatever becomes of it. -/
theorem length_outcomesOf_le_one (h : Ticketed monitor seats ledger fates) (ticket : Nat) :
    (ledger.outcomesOf ticket).length ≤ 1 := by
  rw [h.attempts]
  cases fates ticket with
  | settled outcome => exact Option.length_toList_le
  | _ => exact Nat.zero_le 1

theorem countP_returned_le_one (h : Ticketed monitor seats ledger fates) (ticket : Nat) :
    ledger.returned.countP (fun r => r.1 = ticket) ≤ 1 := by
  have hcallers := h.callers ticket
  split_ifs at hcallers <;> omega

/-- A loop that has no seat has ended. -/
theorem isFinished_of_unmanned (h : Ticketed monitor seats ledger fates)
    (hunmanned : ∀ seat ∈ seats, seat.isLoop n = false) : monitor.isFinished n = true := by
  have hloop := h.loop n
  rw [List.countP_eq_zero.2 fun seat hseat => by simp [hunmanned seat hseat]] at hloop
  cases hfinished : monitor.isFinished n with
  | true => rfl
  | false => simp [hfinished] at hloop

/-- **When a loop has ended**, whoever waits for it has an answer, which says whether his request
was attempted and what came of that. -/
theorem answered_of_unmanned (h : Ticketed monitor seats ledger fates)
    (hseat : .waiting ticket n ∈ seats) (hunmanned : ∀ seat ∈ seats, seat.isLoop n = false) :
    monitor.answer? ticket = some (ledger.outcomesOf ticket).head? := by
  obtain ⟨hrequest, hserving⟩ := h.ended n (h.isFinished_of_unmanned hunmanned)
  obtain ⟨outcome, houtcome⟩ : ∃ outcome, monitor.answer? ticket = some outcome := by
    rcases h.waiting ticket n hseat with hfate | hfate | ⟨outcome, hanswer⟩
    · exact nomatch hrequest.symm.trans ((h.queued n ticket).2 hfate)
    · exact nomatch hserving.symm.trans ((h.serving n ticket).2 hfate)
    · refine Option.isSome_iff_exists.1 ?_
      rw [Monitor.answer?, Option.isSome_map, List.find?_isSome]
      exact ⟨_, hanswer, decide_eq_true rfl⟩
  rw [houtcome, h.attempts, h.fate_of_answer? houtcome]
  cases outcome <;> rfl

end Ticketed

end Pulse
