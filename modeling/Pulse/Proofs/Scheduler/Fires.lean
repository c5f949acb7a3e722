import Pulse.Proofs.Scheduler.Accounts
import Pulse.Proofs.Scheduler.Attendance

/-!
# Are the fires that tasks show real?

A task shows its next fire, and the scheduler shows whether it is running.  Both are set in several
places: a driver sets the fire that it waits for, a driver whose schedule is exhausted takes it
back, and a call to stop takes all fires back, but only once everybody in the shift has ended.  A
driver that was told to stop ends without a word.

So there are two ways in which a fire is shown that nobody waits for: a call to stop has not
returned yet, or the drivers were stopped from without, through the token that they are linked to.
In the second case nobody is left who would take the fire back, and the scheduler is `Deserted`: it
shows fires and that it is running, while it has no drivers.

* `Crew.Watchful.after` — what each move keeps, with jobs that crash or not.
* `Crew.afterAll_candid` — in a settled state, what is shown is real unless the scheduler is deserted
  or a call to stop waits.
-/

set_option autoImplicit false

namespace Pulse

open Activity (Meets Progress run_bind)
open Time (Instant)

/-! ## Being deserted -/

namespace Scheduler

variable {scheduler : Scheduler} {k n : Nat} {cancelled : Bool}

theorem isStopping_updateShift {change : Shift → Shift}
    (hstopping : ∀ shift, (change shift).stopping = shift.stopping)
    (hlinked : ∀ shift, (change shift).linked = shift.linked) :
    (scheduler.updateShift k change).isStopping n cancelled = scheduler.isStopping n cancelled := by
  rw [isStopping, isStopping, updateShift, List.getElem?_modify]
  cases scheduler.shifts[n]? with
  | none => rfl
  | some shift => by_cases heq : k = n <;> simp [heq, hstopping, hlinked]

theorem isStopping_of_told (h : scheduler.Told n) : scheduler.isStopping n cancelled = true := by
  obtain ⟨shift, hshift, hstopping⟩ := h
  simp [isStopping, hshift, hstopping]

/-- A fire changes nothing about the other tasks. -/
theorem tasks_fire_of_ne {i j : Nat} {now : Instant} (h : j ≠ i) :
    (scheduler.fire k i now).2.tasks[j]? = scheduler.tasks[j]? := by
  cases htask : scheduler.tasks[i]? with
  | none => rw [fire_of_none htask]
  | some task =>
    by_cases hrunning : task.status = .running
    · rw [fire_of_running htask hrunning]
      simp [update, Ne.symm h]
    · rw [fire_of_idle htask hrunning]
      simp [update, beginProcess, updateShift, Ne.symm h]

end Scheduler

/-- The scheduler is running, and the drivers of the last start are to stop. -/
def System.Deserted (s : System) : Prop :=
  s.scheduler.isRunning = true ∧ Action.driversStop (s.scheduler.shifts.length - 1) s = true

namespace System

variable {s s' : System} {k i : Nat}

/-- It does not matter who is at work. -/
theorem deserted_updateShift {change : Shift → Shift}
    (hstopping : ∀ shift, (change shift).stopping = shift.stopping)
    (hlinked : ∀ shift, (change shift).linked = shift.linked) :
    Deserted { s with scheduler := s.scheduler.updateShift k change } ↔ s.Deserted := by
  simp only [Deserted, Action.driversStop, Scheduler.length_updateShift,
    Scheduler.isStopping_updateShift hstopping hlinked]
  rfl

theorem deserted_endProcess :
    Deserted { s with scheduler := s.scheduler.endProcess k } ↔ s.Deserted :=
  deserted_updateShift (fun _ => rfl) fun _ => rfl

theorem deserted_fire (now : Instant) :
    Deserted { s with scheduler := (s.scheduler.fire k i now).2 } ↔ s.Deserted := by
  cases htask : s.scheduler.tasks[i]? with
  | none => rw [Scheduler.fire_of_none htask]
  | some task =>
    by_cases hrunning : task.status = .running
    · rw [Scheduler.fire_of_running htask hrunning]
      exact Iff.rfl
    · rw [Scheduler.fire_of_idle htask hrunning]
      exact deserted_updateShift (s := { s with scheduler := s.scheduler.update i _ }) (fun _ => rfl)
        fun _ => rfl

/-- A scheduler stays deserted as long as the drivers are not started again and the cancellation is
not taken back. -/
theorem Deserted.mono (h : s.Deserted) (hscheduler : s'.scheduler = s.scheduler)
    (hcancelled : s.cancelled = true → s'.cancelled = true) : s'.Deserted := by
  obtain ⟨hrunning, hstop⟩ := h
  refine ⟨hscheduler ▸ hrunning, ?_⟩
  rw [Action.driversStop, Scheduler.isStopping] at hstop ⊢
  rw [hscheduler]
  cases hshift : s.scheduler.shifts[s.scheduler.shifts.length - 1]? with
  | none => simp [hshift] at hstop
  | some shift =>
    simp only [hshift, Option.any_some, Bool.or_eq_true, Bool.and_eq_true] at hstop ⊢
    exact hstop.imp_right fun ⟨hlinked, hs⟩ => ⟨hlinked, hcancelled hs⟩

end System

/-! ## Waiting for a fire -/

namespace Action

variable {k i t : Nat} {due now : Instant} {rest : Action Unit} {s : System} {task : Task}

/-- What is left of a driver's waiting for a fire: it has not begun, or its alarm was set when the
clock showed `now`. -/
inductive AwaitsDue (k : Nat) (due : Instant) : Action Unit → Prop
  | begins : AwaitsDue k due (awaitDue k due)
  | goesOn (t : Nat) (s : System) (now : Instant) (hnow : s.moment? t = some now) :
    AwaitsDue k due (.wait (driversStop k) (some (t + millisUntil due now)) id (.done ()))

/-- Waiting for a fire changes nothing. -/
theorem AwaitsDue.run (h : AwaitsDue k due rest) (t : Nat) (s : System) :
    rest.run t s [] = (.crashed, s, []) ∨ rest.run t s [] = (.finished (), s, []) ∨
      ∃ rest', AwaitsDue k due rest' ∧ rest.run t s [] = (.waiting rest', s, []) := by
  have hgoes (begun : Nat) (s' : System) (now : Instant) (hnow : s'.moment? begun = some now) :
      Activity.run t (.wait (driversStop k) (some (begun + millisUntil due now)) id (.done ())) s
          [] = (.finished (), s, ([] : List Process)) ∨
        ∃ rest', AwaitsDue k due rest' ∧
          Activity.run t (.wait (driversStop k) (some (begun + millisUntil due now)) id (.done ()))
            s [] = (.waiting rest', s, []) := by
    rw [Activity.run]
    split
    · exact .inl rfl
    · exact .inr ⟨_, .goesOn begun s' now hnow, rfl⟩
  cases h with
  | begins =>
    rw [awaitDue, run_clock_bind, run_now_bind]
    cases hnow : s.moment? t with
    | none => exact .inl rfl
    | some now => exact .inr (hgoes t s now hnow)
  | goesOn begun s' now hnow => exact .inr (hgoes begun s' now hnow)

/-- Who waits for a fire does not have to go on only as long as the drivers are not to stop. -/
theorem AwaitsDue.driversStop_eq_false (h : AwaitsDue k due rest) (hready : rest.isReady t s = false) :
    driversStop k s = false := by
  cases h with
  | begins => cases hready
  | goesOn _ _ _ _ =>
    simp only [Activity.isReady, Bool.or_eq_false_iff] at hready
    exact hready.1

/-- A driver whose task is not there ends after a fire. -/
theorem run_proceed_of_gone (hstop : driversStop k s = false) (hnow : s.moment? t = some now)
    (htask : (s.scheduler.fire k i now).2.tasks[i]? = none) :
    (proceed k i due).run t s [] =
      (.finished none, { s with scheduler := (s.scheduler.fire k i now).2 },
        if (s.scheduler.fire k i now).1 then [.run k i] else []) := by
  rw [proceed, run_state_bind, hstop, if_neg Bool.false_ne_true, run_bind, run_fire, hnow]
  dsimp only
  rw [run_state_bind]
  dsimp only
  rw [htask]
  rfl

/-- A driver chooses the next fire after a fire. -/
theorem run_proceed_of_task (hstop : driversStop k s = false) (hnow : s.moment? t = some now)
    (htask : (s.scheduler.fire k i now).2.tasks[i]? = some task) (due : Instant) :
    (proceed k i due).run t s [] =
      let fired : System := { s with scheduler := (s.scheduler.fire k i now).2 }
      let started := if (s.scheduler.fire k i now).1 then [.run k i] else []
      match task.following due now with
      | .error _ => (.crashed, fired, started)
      | .ok next => (.finished (next.map (.driverLoop k i)),
          { fired with scheduler :=
              fired.scheduler.update i fun task => { task with nextRun := next } }, started) := by
  rw [proceed, run_state_bind, hstop, if_neg Bool.false_ne_true, run_bind, run_fire, hnow]
  dsimp only
  rw [run_state_bind]
  dsimp only
  rw [htask]
  dsimp only
  have hmoment : System.moment? { s with scheduler := (s.scheduler.fire k i now).2 } t = some now :=
    hnow
  rw [run_now_bind, hmoment]
  dsimp only
  rw [run_checked_bind]
  cases task.following due now <;> rfl

end Action

/-! ## Hands -/

namespace Hand

/-- A hand does as it should: a driver waits for its fire, and a run leaves the scheduler alone. -/
def Regular : Hand → Prop
  | .driving k _ due rest => Action.AwaitsDue k due rest
  | .running _ _ rest => ∀ t s, rest.Meets System.Unscheduled (fun _ _ _ => True) t s
  | .driver .. | .stopping _ => True

/-- A driver panics when it goes on: the clock or the schedule leaves the calendar. -/
def panics (t : Nat) (s : System) : Hand → Bool
  | .driver k i =>
    match (Action.beginDriver k i).run t s [] with
    | (.crashed, _) => true
    | _ => false
  | .driving k i due rest =>
    match (rest >>= fun _ => Action.proceed k i due).run t s [] with
    | (.crashed, _) => true
    | _ => false
  | .running .. | .stopping _ => false

/-- A hand has to wait. -/
def isSettled (t : Nat) (s : System) : Hand → Bool
  | .driver .. => false
  | .driving _ _ _ rest => !rest.isReady t s
  | .running _ _ rest => !rest.isReady t s
  | .stopping k => !s.scheduler.isOver k

/-- The hand is a driver. -/
def isDriver : Hand → Bool
  | .driver .. | .driving .. => true
  | .running .. | .stopping _ => false

end Hand

namespace Crew

variable {job : Task → Action (Except String Unit)} {crew : Crew} {hands hands' : List Hand}
  {hand : Hand} {s s' : System} {i k : Nat} {due now : Instant} {task : Task}

/-- A fire that a task shows has a driver that waits for it, or will be taken back by a call to stop,
or the scheduler is deserted. -/
def Backed (s : System) (hands : List Hand) (i : Nat) (due : Instant) : Prop :=
  (∃ k rest, .driving k i due rest ∈ hands) ∨ (∃ k, .stopping k ∈ hands) ∨ s.Deserted

theorem Backed.mono (h : Backed s hands i due) (hhands : ∀ hand ∈ hands, hand ∈ hands')
    (hs : s.Deserted → s'.Deserted) : Backed s' hands' i due := by
  rcases h with ⟨k, rest, hmem⟩ | ⟨k, hmem⟩ | hdeserted
  · exact .inl ⟨k, rest, hhands _ hmem⟩
  · exact .inr (.inl ⟨k, hhands _ hmem⟩)
  · exact .inr (.inr (hs hdeserted))

/-- Only drivers and calls to stop back a fire. -/
theorem Backed.of_cons (h : Backed s (hand :: hands) i due)
    (hdriving : ∀ k rest, hand ≠ .driving k i due rest) (hstopping : ∀ k, hand ≠ .stopping k) :
    Backed s hands i due := by
  rcases h with ⟨k, rest, hmem⟩ | ⟨k, hmem⟩ | hdeserted
  · exact .inl ⟨k, rest, (List.mem_cons.1 hmem).resolve_left fun heq => hdriving k rest heq.symm⟩
  · exact .inr (.inl ⟨k, (List.mem_cons.1 hmem).resolve_left fun heq => hstopping k heq.symm⟩)
  · exact .inr (.inr hdeserted)

/-- What each move keeps. -/
structure Watchful (s : System) (hands : List Hand) : Prop where
  regular : ∀ hand ∈ hands, hand.Regular
  attended : s.scheduler.Attended (hands.map Hand.post)
  shown (i : Nat) (task : Task) (due : Instant) : s.scheduler.tasks[i]? = some task →
    task.nextRun = some due → Backed s hands i due

/-- What holds while a driver goes on: all is well but for the fire that its own task shows. -/
structure Acting (s : System) (k i : Nat) (hands : List Hand) : Prop where
  regular : ∀ hand ∈ hands, hand.Regular
  attended : s.scheduler.Attended (.driver k i :: hands.map Hand.post)
  shown (j : Nat) (task : Task) (due : Instant) : j ≠ i → s.scheduler.tasks[j]? = some task →
    task.nextRun = some due → Backed s hands j due

theorem Watchful.perm (h : Watchful s hands) (hperm : hands.Perm hands') : Watchful s hands' where
  regular hand hhand := h.regular hand (hperm.mem_iff.2 hhand)
  attended := h.attended.perm (hperm.map Hand.post)
  shown i task due htask hnext :=
    (h.shown i task due htask hnext).mono (fun _ hmem => hperm.mem_iff.1 hmem) id

/-- Others change the system, but not the scheduler. -/
theorem Watchful.congr (h : Watchful s hands) (hscheduler : s'.scheduler = s.scheduler)
    (hdeserted : s.Deserted → s'.Deserted) : Watchful s' hands where
  regular := h.regular
  attended := hscheduler ▸ h.attended
  shown i task due htask hnext :=
    (h.shown i task due (hscheduler ▸ htask) hnext).mono (fun _ hmem => hmem) hdeserted

/-- A run ends, after changing tasks but not their fires to come. -/
theorem Watchful.endRun {rest : Action (Option (Except String Unit))} {tasks : List Task}
    (h : Watchful s (.running k i rest :: hands))
    (hnext : ∀ (j : Nat) (task : Task), tasks[j]? = some task →
      ∃ old, s.scheduler.tasks[j]? = some old ∧ task.nextRun = old.nextRun) :
    Watchful { s with scheduler := Scheduler.endProcess { s.scheduler with tasks } k } hands where
  regular := (List.forall_mem_cons.1 h.regular).2
  attended := by
    have hposts : s.scheduler.Attended (.run k i :: hands.map Hand.post) := h.attended
    have hchanged : Scheduler.Attended { s.scheduler with tasks } (.run k i :: hands.map Hand.post) :=
      hposts.congr rfl rfl
    exact hchanged.leave fun _ => rfl
  shown j task due htask hdue := by
    obtain ⟨old, hold, heq⟩ := hnext j task htask
    have hbacked := (h.shown j old due hold (heq ▸ hdue)).of_cons (by simp) (by simp)
    exact hbacked.mono (s := s) (fun _ hmem => hmem) fun hs => System.deserted_endProcess.2 hs

/-! ### One driver -/

/-- A driver goes on. -/
theorem Watchful.acting (h : Watchful s (hand :: hands)) (hpost : hand.post = .driver k i) :
    Acting s k i hands where
  regular other hother := h.regular other (List.mem_cons_of_mem _ hother)
  attended := by simpa [hpost] using h.attended
  shown j task due hne htask hnext := by
    refine (h.shown j task due htask hnext).of_cons ?_ ?_
    · rintro n rest rfl
      simp only [Hand.post, Post.driver.injEq] at hpost
      exact hne hpost.2
    · rintro n rfl
      simp [Hand.post] at hpost

namespace Acting

/-- A driver ends, and the fire that its task shows is backed without it. -/
theorem leave (h : Acting s k i hands)
    (hown : ∀ task due, s.scheduler.tasks[i]? = some task → task.nextRun = some due →
      Backed s hands i due) :
    Watchful { s with scheduler := s.scheduler.endProcess k } hands where
  regular := h.regular
  attended := h.attended.leave fun _ => rfl
  shown j task due htask hnext := by
    refine Backed.mono (s := s) ?_ (fun _ hmem => hmem) System.deserted_endProcess.2
    by_cases heq : j = i
    · exact heq ▸ hown task due (heq ▸ htask) hnext
    · exact h.shown j task due heq htask hnext

/-- A driver that was told to stop ends: a call waits for it, or the scheduler is deserted. -/
theorem leave_of_stop (h : Acting s k i hands) (hstop : Action.driversStop k s = true) :
    Watchful { s with scheduler := s.scheduler.endProcess k } hands := by
  refine h.leave fun task due _ _ => .inr ?_
  rcases h.attended.watched (.driver k i) k List.mem_cons_self (decide_eq_true rfl) with
    ⟨hrunning, hlast⟩ | hcall
  · refine .inr ⟨hrunning, ?_⟩
    rw [← hlast]
    exact hstop
  · refine .inl ⟨k, Hand.mem_map_post_call_iff.1 ?_⟩
    simpa using hcall

/-- A driver fires its task. -/
theorem fire (h : Acting s k i hands) (now : Instant) {started : List Hand}
    (hstarted : ∀ hand ∈ started, hand.Regular)
    (hposts : started.map Hand.post = if (s.scheduler.fire k i now).1 then [.run k i] else []) :
    Acting { s with scheduler := (s.scheduler.fire k i now).2 } k i (hands ++ started) where
  regular := List.forall_mem_append.2 ⟨h.regular, hstarted⟩
  attended := by
    refine (h.attended.fire now).perm ?_
    rw [List.map_append, hposts, ← List.cons_append]
    exact List.perm_append_comm
  shown j task due hne htask hnext := by
    refine Backed.mono (s := s) ?_ (fun _ hmem => List.mem_append_left _ hmem)
      (System.deserted_fire now).2
    rw [Scheduler.tasks_fire_of_ne hne] at htask
    exact h.shown j task due hne htask hnext

theorem shown_setNextRun (h : Acting s k i hands) {next : Option Instant}
    {hands' : List Hand} (hhands : ∀ hand ∈ hands, hand ∈ hands')
    (hown : ∀ due, next = some due → ∃ rest, .driving k i due rest ∈ hands') (j : Nat)
    (task : Task) (due : Instant)
    (htask : (s.scheduler.update i fun task => { task with nextRun := next }).tasks[j]? = some task)
    (hnext : task.nextRun = some due) :
    Backed { s with scheduler := s.scheduler.update i fun task => { task with nextRun := next } }
      hands' j due := by
  obtain ⟨old, hold, rfl⟩ := Scheduler.task_of_update htask
  split_ifs at hnext with heq
  · obtain ⟨rest, hrest⟩ := hown due hnext
    exact .inl ⟨k, rest, heq ▸ hrest⟩
  · exact (h.shown j old due (Ne.symm heq) hold hnext).mono hhands id

/-- A driver sets the next fire of its task and waits for it. -/
theorem await (h : Acting s k i hands) (due : Instant) :
    Watchful
      { s with scheduler := s.scheduler.update i fun task => { task with nextRun := some due } }
      (hands ++ [.driving k i due (Action.awaitDue k due)]) where
  regular := List.forall_mem_append.2
    ⟨h.regular, List.forall_mem_singleton.2 Action.AwaitsDue.begins⟩
  attended := by
    have hperm : (Post.driver k i :: hands.map Hand.post).Perm
        ((hands ++ [Hand.driving k i due (Action.awaitDue k due)]).map Hand.post) := by
      rw [List.map_append]
      exact (List.perm_append_singleton _ _).symm
    exact (h.attended.perm hperm).congr rfl rfl
  shown := h.shown_setNextRun (fun _ hmem => List.mem_append_left _ hmem) fun _ hdue => by
    cases hdue
    exact ⟨_, List.mem_append_right _ List.mem_cons_self⟩

/-- A driver whose schedule is exhausted takes the fire of its task back, and ends. -/
theorem exhaust (h : Acting s k i hands) :
    Watchful
      { s with scheduler :=
          (s.scheduler.update i fun task => { task with nextRun := none }).endProcess k } hands := by
  have hset : Acting
      { s with scheduler := s.scheduler.update i fun task => { task with nextRun := none } } k i
      hands := {
    regular := h.regular
    attended := h.attended.congr rfl rfl
    shown := fun j task due _ => h.shown_setNextRun (fun _ hmem => hmem) (by simp) j task due }
  refine hset.leave fun task due htask hnext => ?_
  exact h.shown_setNextRun (fun _ hmem => hmem) (by simp) i task due htask hnext

end Acting

/-! ### One hand -/

/-- A driver begins. -/
theorem watchful_begin (h : Watchful crew.system (.driver k i :: crew.hands))
    (hpanics : (Hand.driver k i).panics crew.time crew.system = false) :
    Watchful (crew.work job (.driver k i)).system (crew.work job (.driver k i)).hands := by
  have hacting : Acting crew.system k i crew.hands := h.acting rfl
  have hown (task : Task) (due : Instant) (htask : crew.system.scheduler.tasks[i]? = some task)
      (hnext : task.nextRun = some due) : Backed crew.system crew.hands i due :=
    (h.shown i task due htask hnext).of_cons (by simp) (by simp)
  rw [Hand.panics] at hpanics
  rw [work]
  generalize hending : (Action.beginDriver k i).run crew.time crew.system [] = ending
    at hpanics ⊢
  have honward := hending ▸ Action.onward_beginDriver k i crew.time crew.system
  cases honward with
  | crashed => cases hpanics
  | ended => simpa [next, join, without] using hacting.leave hown
  | awaits next =>
    cases next with
    | none => simpa [Crew.next, join, without] using hacting.exhaust
    | some due => simpa [Crew.next, join, Hand.ofProcess?] using hacting.await due

section

variable (hjob : ∀ task t s, Meets System.Unscheduled (fun _ _ _ => True) (job task) t s)
include hjob

/-- The waiting of a driver is over. -/
theorem watchful_proceed (h : Acting crew.system k i crew.hands) {due : Instant}
    (hpanics : ∀ s started, (Action.proceed k i due).run crew.time crew.system [] ≠
      (.crashed, s, started)) :
    Watchful (crew.proceed job k i due).system (crew.proceed job k i due).hands := by
  rw [proceed]
  generalize hbooks : Function.update crew.books i _ = books
  cases hstop : Action.driversStop k crew.system with
  | true =>
    rw [Action.run_proceed_of_stop hstop]
    simpa [next, join, without] using h.leave_of_stop hstop
  | false =>
    cases hnow : crew.system.moment? crew.time with
    | none => exact absurd (Action.run_proceed_of_none hstop hnow) (hpanics _ _)
    | some now =>
      generalize hbegun : (if (crew.system.scheduler.fire k i now).1 then [Process.run k i]
        else []) = begun
      generalize hstarted : begun.filterMap (Hand.ofProcess? job) = started
      have hfired : Acting { crew.system with scheduler := (crew.system.scheduler.fire k i now).2 }
          k i (crew.hands ++ started) := by
        refine h.fire now ?_ ?_
        · intro hand hhand
          subst hstarted hbegun
          split at hhand
          · obtain rfl : hand = .running k i (Action.attempt job i) := by
              simpa [Hand.ofProcess?] using hhand
            exact fun t s => Action.meets_attempt hjob i
          · simp at hhand
        · subst hstarted hbegun
          split <;> simp [Hand.ofProcess?, Hand.post]
      cases htask : (crew.system.scheduler.fire k i now).2.tasks[i]? with
      | none =>
        rw [Action.run_proceed_of_gone hstop hnow htask, hbegun]
        have hleft := hfired.leave fun task due hi => by
          rw [show (crew.system.scheduler.fire k i now).2.tasks[i]? = none from htask] at hi
          cases hi
        simpa [next, join, without, hstarted] using hleft
      | some task =>
        have hrun := Action.run_proceed_of_task hstop hnow htask due
        rw [hbegun] at hrun
        cases hnext : task.following due now with
        | error e =>
          rw [hnext] at hrun
          exact absurd hrun (hpanics _ _)
        | ok next =>
          rw [hnext] at hrun
          rw [hrun]
          cases next with
          | none => simpa [Crew.next, join, without, hstarted] using hfired.exhaust
          | some due =>
            simpa [Crew.next, join, Hand.ofProcess?, hstarted] using hfired.await due

/-- **One hand** goes on until it waits. -/
theorem watchful_work (h : Watchful crew.system (hand :: crew.hands))
    (hpanics : hand.panics crew.time crew.system = false)
    (hcancelled : crew.system.scheduler.isRunning = true → crew.system.cancelled = true →
      (crew.work job hand).system.cancelled = true) :
    Watchful (crew.work job hand).system (crew.work job hand).hands := by
  have hregular : hand.Regular := h.regular hand List.mem_cons_self
  cases hand with
  | driver k i => exact watchful_begin h hpanics
  | driving k i due rest =>
    have hrun := Action.AwaitsDue.run hregular crew.time crew.system
    simp only [Hand.panics, run_bind] at hpanics
    rw [work]
    rcases hrun with hrun | hrun | ⟨rest', hrest', hrun⟩
    · simp [hrun] at hpanics
    · rw [hrun] at hpanics ⊢
      refine watchful_proceed hjob (h.acting rfl) fun s started hcrashed => ?_
      simp [hcrashed] at hpanics
    · rw [hrun]
      have hstays : Watchful crew.system (.driving k i due rest' :: crew.hands) := {
        regular := List.forall_mem_cons.2 ⟨hrest', (List.forall_mem_cons.1 h.regular).2⟩
        attended := h.attended
        shown := fun j task due' htask hnext => by
          rcases h.shown j task due' htask hnext with ⟨n, rest'', hmem⟩ | ⟨n, hmem⟩ | hdeserted
          · rcases List.mem_cons.1 hmem with heq | hmem
            · cases heq
              exact .inl ⟨k, rest', List.mem_cons_self⟩
            · exact .inl ⟨n, rest'', List.mem_cons_of_mem _ hmem⟩
          · exact .inr (.inl ⟨n, by simpa using hmem⟩)
          · exact .inr (.inr hdeserted) }
      exact hstays.perm (List.perm_append_singleton _ _).symm
  | running k i rest =>
    obtain ⟨hs, hrest⟩ := Meets.run System.Unscheduled.refl
      (fun _ _ _ _ => System.Unscheduled.trans) (hregular crew.time crew.system) []
    rw [work] at hcancelled ⊢
    generalize rest.run crew.time crew.system [] = ending at hs hrest hcancelled ⊢
    obtain ⟨progress, s, started⟩ := ending
    have hs : s.scheduler = crew.system.scheduler := hs
    have hstill (hc : crew.system.scheduler.isRunning = true → crew.system.cancelled = true →
        s.cancelled = true) : Watchful s (.running k i rest :: crew.hands) :=
      h.congr hs fun hdeserted => hdeserted.mono hs (hc hdeserted.1)
    cases progress with
    | waiting rest' =>
      have hstays : Watchful s (.running k i rest' :: crew.hands) :=
        have h := hstill hcancelled
        { h with
          regular := List.forall_mem_cons.2 ⟨hrest, (List.forall_mem_cons.1 h.regular).2⟩
          shown := fun j task due htask hnext =>
            ((h.shown j task due htask hnext).of_cons (by simp) (by simp)).mono
              (fun _ hmem => List.mem_cons_of_mem _ hmem) id }
      exact hstays.perm (List.perm_append_singleton _ _).symm
    | finished outcome =>
      refine (hstill hcancelled).endRun fun j task htask => ?_
      obtain ⟨old, hold, rfl⟩ := Scheduler.task_of_update htask
      refine ⟨old, hold, ?_⟩
      split_ifs <;> rfl
    | crashed => exact (hstill hcancelled).endRun fun j task htask => ⟨task, htask, rfl⟩
  | stopping k =>
    rw [work]
    split_ifs with hover
    · exact {
        regular := (List.forall_mem_cons.1 h.regular).2
        attended := h.attended.settle hover
        shown := fun i task due htask hnext => by
          simp only [Scheduler.clearFires, List.getElem?_map, Option.map_eq_some_iff] at htask
          obtain ⟨old, -, rfl⟩ := htask
          cases hnext }
    · exact h.perm (List.perm_append_singleton _ _).symm

end

/-! ## Moves -/

/-- No driver panics, and a cancellation is not taken back while the scheduler is running.  (A new
start may be linked to a new token.) -/
def isSmooth (job : Task → Action (Except String Unit)) (crew : Crew) (move : Move) : Bool :=
  (!crew.system.scheduler.isRunning || !crew.system.cancelled ||
    (crew.after job move).system.cancelled) &&
  match move with
  | .resume n => !crew.hands[n]?.any (Hand.panics crew.time crew.system)
  | _ => true

/-- All moves are smooth, one after the other. -/
def areSmooth (job : Task → Action (Except String Unit)) (crew : Crew) : List Move → Bool
  | [] => true
  | move :: moves => crew.isSmooth job move && (crew.after job move).areSmooth job moves

theorem watchful_start (s : System) : Watchful (start s).system (start s).hands where
  regular := by simp [start]
  attended := Scheduler.Attended.new rfl rfl
  shown i task due htask hnext := by
    simp only [start, List.getElem?_map, Option.map_eq_some_iff] at htask
    obtain ⟨old, -, rfl⟩ := htask
    cases hnext

/-- The drivers of a start have not set a fire yet. -/
theorem watchful_join_drivers (h : Watchful crew.system crew.hands)
    (hidle : crew.system.scheduler.isRunning = false) {linked : Bool} {scheduler : Scheduler}
    (hstart : crew.system.scheduler.start linked now = .ok scheduler) :
    let started := join job { crew with system := { crew.system with scheduler } }
      ((List.range scheduler.tasks.length).map (.driver (scheduler.shifts.length - 1)))
    Watchful started.system started.hands := by
  obtain ⟨htasks, hshifts⟩ := Scheduler.tasks_and_shifts_of_start hstart
  have hdrivers : ((List.range scheduler.tasks.length).map
      (Process.driver (scheduler.shifts.length - 1))).filterMap (Hand.ofProcess? job) =
      (List.range crew.system.scheduler.tasks.length).map
        (.driver crew.system.scheduler.shifts.length) := by
    rw [List.filterMap_map, ← List.filterMap_eq_map, htasks, hshifts, Nat.add_sub_cancel]
    rfl
  intro started
  show Watchful { crew.system with scheduler } (crew.hands ++ List.filterMap _ _)
  rw [hdrivers]
  exact {
    regular := by
      refine List.forall_mem_append.2 ⟨h.regular, fun hand hhand => ?_⟩
      obtain ⟨i, -, rfl⟩ := List.mem_map.1 hhand
      trivial
    attended := by
      rw [List.map_append, List.map_map]
      exact h.attended.start hstart
    shown := fun i task due htask hnext => by
      refine Backed.mono (h.shown i task due (htasks ▸ htask) hnext)
        (fun _ hmem => List.mem_append_left _ hmem) fun hdeserted => ?_
      simp [System.Deserted, hidle] at hdeserted }

section

variable (hjob : ∀ task t s, Meets System.Unscheduled (fun _ _ _ => True) (job task) t s)
include hjob

/-- **Each move** keeps the fires that tasks show backed. -/
theorem Watchful.after (h : Watchful crew.system crew.hands) {move : Move}
    (hsmooth : crew.isSmooth job move = true) :
    Watchful (crew.after job move).system (crew.after job move).hands := by
  obtain ⟨hcancelled, hpanics⟩ := Bool.and_eq_true_iff.1 hsmooth
  have hcancelled : crew.system.scheduler.isRunning = true → crew.system.cancelled = true →
      (crew.after job move).system.cancelled = true := by
    simpa [or_assoc, Decidable.or_iff_not_imp_left] using hcancelled
  cases move with
  | tick ms => exact h
  | other change leaves =>
    exact h.congr (leaves crew.system) fun hdeserted =>
      hdeserted.mono (leaves crew.system) (hcancelled hdeserted.1)
  | start linked =>
    have hnobody : Watchful (crew.join job []).system (crew.join job []).hands := by
      simpa [join] using h
    rw [Crew.after, Action.run_startScheduler]
    split_ifs with hidle
    · exact hnobody
    cases crew.system.moment? crew.time with
    | none => exact hnobody
    | some now =>
      dsimp only
      cases hstart : crew.system.scheduler.start linked now with
      | error e => exact hnobody
      | ok scheduler =>
        exact watchful_join_drivers h (by simpa using hidle) hstart
  | stop =>
    rw [Crew.after, Action.run_haltScheduler]
    cases hstop : crew.system.scheduler.stop with
    | error e => exact h
    | ok stopped =>
      obtain ⟨k, scheduler⟩ := stopped
      exact {
        regular := List.forall_mem_append.2 ⟨h.regular, List.forall_mem_singleton.2 trivial⟩
        attended := by
          rw [List.map_append]
          exact h.attended.stop hstop
        shown := fun i task due _ _ =>
          .inr (.inl ⟨k, List.mem_append_right _ List.mem_cons_self⟩) }
  | resume n =>
    rw [Crew.after] at hcancelled ⊢
    cases hhand : crew.hands[n]? with
    | none => exact h
    | some hand =>
      simp only [hhand] at hpanics hcancelled
      have hperm : crew.hands.Perm (hand :: crew.hands.eraseIdx n) := by
        obtain ⟨hn, rfl⟩ := List.getElem?_eq_some_iff.1 hhand
        exact (List.getElem_cons_eraseIdx_perm hn).symm
      generalize hrest : { crew with hands := crew.hands.eraseIdx n } = rest at hcancelled ⊢
      have hrested : Watchful rest.system (hand :: rest.hands) := hrest ▸ h.perm hperm
      have hcalm : hand.panics rest.time rest.system = false := by
        simpa [← hrest] using hpanics
      refine watchful_work hjob hrested hcalm ?_
      simpa [← hrest] using hcancelled

theorem Watchful.afterAll (h : Watchful crew.system crew.hands) {moves : List Move}
    (hsmooth : crew.areSmooth job moves = true) :
    Watchful (crew.afterAll job moves).system (crew.afterAll job moves).hands := by
  induction moves generalizing crew with
  | nil => exact h
  | cons move moves ih =>
    obtain ⟨hmove, hmoves⟩ := Bool.and_eq_true_iff.1 hsmooth
    exact ih (h.after hjob hmove) hmoves

end

/-! ## What is shown -/

/-- Nobody can go on before the clock does, or somebody calls. -/
def Settled (crew : Crew) : Prop :=
  ∀ hand ∈ crew.hands, hand.isSettled crew.time crew.system = true

/-- A driver of the last start waits for a fire of a task, and is not to stop. -/
def Awaited (crew : Crew) (i : Nat) (due : Instant) : Prop :=
  ∃ k rest, .driving k i due rest ∈ crew.hands ∧ k + 1 = crew.system.scheduler.shifts.length ∧
    Action.AwaitsDue k due rest ∧ rest.isReady crew.time crew.system = false ∧
    Action.driversStop k crew.system = false

/-- What is shown is real. -/
structure Candid (crew : Crew) : Prop where
  nextRun (i : Nat) (task : Task) (due : Instant) :
    crew.system.scheduler.tasks[i]? = some task → task.nextRun = some due → crew.Awaited i due
  running : crew.system.scheduler.isRunning = true →
    Action.driversStop (crew.system.scheduler.shifts.length - 1) crew.system = false

/-- As long as somebody waits for a fire, the scheduler is not deserted. -/
theorem Awaited.not_deserted (h : crew.Awaited i due) : ¬ crew.system.Deserted := by
  obtain ⟨k, rest, -, hlast, -, -, hstop⟩ := h
  intro hdeserted
  have hdeserted := hdeserted.2
  rw [← hlast, Nat.add_sub_cancel, hstop] at hdeserted
  cases hdeserted

/-- Only the token that the drivers are linked to leaves a scheduler deserted. -/
theorem Watchful.deserted_iff (h : Watchful s hands) :
    s.Deserted ↔ s.scheduler.isRunning = true ∧ s.cancelled = true ∧
      ∃ shift, s.scheduler.shifts.getLast? = some shift ∧ shift.linked = true := by
  refine and_congr_right fun hrunning => ?_
  obtain ⟨hpos, htold⟩ := h.attended.running hrunning
  rw [List.getLast?_eq_getElem?, Action.driversStop, Scheduler.isStopping]
  rw [Scheduler.Told] at htold
  cases hshift : s.scheduler.shifts[s.scheduler.shifts.length - 1]? with
  | none => simp
  | some shift =>
    have hstopping : shift.stopping = false := by simpa [hshift] using htold
    simp [hstopping, and_comm]

section

variable (h : Watchful crew.system crew.hands) (hsettled : crew.Settled)
include h hsettled

/-- In a settled state, a driver that waits for a fire is one of the last start and not to stop. -/
theorem Watchful.awaited {rest : Action Unit} (hhand : .driving k i due rest ∈ crew.hands) :
    crew.Awaited i due := by
  have hrest : Action.AwaitsDue k due rest := h.regular _ hhand
  have hready : rest.isReady crew.time crew.system = false := by
    simpa [Hand.isSettled] using hsettled _ hhand
  have hstop := hrest.driversStop_eq_false hready
  have htold : ¬ crew.system.scheduler.Told k := by
    intro htold
    rw [Action.driversStop, Scheduler.isStopping_of_told htold] at hstop
    cases hstop
  obtain ⟨-, hlast⟩ := h.attended.current (List.mem_map_of_mem hhand) (decide_eq_true rfl) htold
  exact ⟨k, rest, hhand, hlast, hrest, hready, hstop⟩

/-- A fire that is shown is awaited, or will be taken back by a call, or the scheduler is deserted. -/
theorem Watchful.awaited_or (htask : crew.system.scheduler.tasks[i]? = some task)
    (hnext : task.nextRun = some due) :
    crew.Awaited i due ∨ (∃ k, .stopping k ∈ crew.hands) ∨ crew.system.Deserted :=
  (h.shown i task due htask hnext).imp_left fun ⟨_, _, hhand⟩ => h.awaited hsettled hhand

/-- A deserted scheduler has no drivers. -/
theorem Watchful.isDriver_eq_false (hdeserted : crew.system.Deserted) (hhand : hand ∈ crew.hands) :
    hand.isDriver = false := by
  cases hand with
  | driver k i => simpa [Hand.isSettled] using hsettled _ hhand
  | driving k i due rest => exact absurd hdeserted (h.awaited hsettled hhand).not_deserted
  | running | stopping => rfl

theorem Watchful.candid_iff (hcalls : ∀ k, .stopping k ∉ crew.hands) :
    crew.Candid ↔ ¬ crew.system.Deserted := by
  constructor
  · intro hcandid ⟨hrunning, hstop⟩
    rw [hcandid.running hrunning] at hstop
    cases hstop
  · intro hdeserted
    exact {
      nextRun := fun i task due htask hnext =>
        (h.awaited_or hsettled htask hnext).resolve_right fun hor =>
          hor.elim (fun ⟨k, hcall⟩ => hcalls k hcall) hdeserted
      running := fun hrunning => by simpa [System.Deserted, hrunning] using hdeserted }

end

/-- **Shown fires.**  Whatever the jobs are, as long as they leave the scheduler alone, and in
whatever order drivers, runs, calls and a cancellation take their turns, in a settled state a task
shows a fire only if a driver waits for it, or a call to stop is about to take it back, or the
scheduler is deserted: its drivers were stopped through the token that they are linked to, and it
shows that it is running all the same.  Then it has no drivers at all.  While no call to stop waits,
what is shown is real exactly if the scheduler is not deserted. -/
theorem afterAll_candid {job : Task → Action (Except String Unit)}
    (hjob : ∀ task t s, Meets System.Unscheduled (fun _ _ _ => True) (job task) t s)
    (s : System) (moves : List Move) (hsmooth : (start s).areSmooth job moves = true)
    (hsettled : ((start s).afterAll job moves).Settled) :
    let crew := (start s).afterAll job moves
    (∀ (i : Nat) (task : Task) (due : Instant), crew.system.scheduler.tasks[i]? = some task →
        task.nextRun = some due →
        crew.Awaited i due ∨ (∃ k, .stopping k ∈ crew.hands) ∨ crew.system.Deserted) ∧
      (crew.system.Deserted ↔ crew.system.scheduler.isRunning = true ∧
        crew.system.cancelled = true ∧
        ∃ shift, crew.system.scheduler.shifts.getLast? = some shift ∧ shift.linked = true) ∧
      (crew.system.Deserted → ∀ hand ∈ crew.hands, hand.isDriver = false) ∧
      ((∀ k, .stopping k ∉ crew.hands) → (crew.Candid ↔ ¬ crew.system.Deserted)) := by
  intro crew
  have h : Watchful crew.system crew.hands := (watchful_start s).afterAll hjob hsmooth
  exact ⟨fun _ _ _ => h.awaited_or hsettled, h.deserted_iff,
    fun hdeserted _ => h.isDriver_eq_false hsettled hdeserted, h.candid_iff hsettled⟩

/-- A task that is due every ten seconds. -/
private def knocking : System where
  origin := .ofMillis 1741953600000
  store := .volatile
  bus := .new 1
  monitor := { settings := {} }
  scheduler :=
    { tasks := [{ name := "knock", schedule := ⟨"@every 10s", .every ⟨10000, by decide, by decide⟩⟩,
                  job := .rehearsal [] [] }]
      timeout := 5000 }

/-- What the tasks of the program do. -/
private def doing (task : Task) : Action (Except String Unit) :=
  Action.doJob task.runCount task.job

/-- One fire, whose run ends at once. -/
private def knock : List Move :=
  [.start true, .resume 0, .resume 0, .tick 10000, .resume 0, .resume 0, .resume 0]

/-- The token is cancelled, and the driver hears of it. -/
private def hush : List Move :=
  [.other (fun s => { s with cancelled := true }) fun _ => rfl, .resume 0]

/-- The next fire is awaited until the token is cancelled. -/
theorem afterAll_candid_knock :
    ((start knocking).afterAll doing knock).Candid ∧
      ((start knocking).afterAll doing (knock ++ hush)).system.Deserted := by
  have hjob (task : Task) : ∀ t s, (doing task).Meets System.Unscheduled (fun _ _ _ => True) t s :=
    Action.meets_doJob task.runCount task.job
  have hknock := afterAll_candid hjob knocking knock (by decide +kernel)
    (by unfold Settled; decide +kernel)
  have hhush := afterAll_candid hjob knocking (knock ++ hush) (by decide +kernel)
    (by unfold Settled; decide +kernel)
  have hcalls (k : Nat) : .stopping k ∉ ((start knocking).afterAll doing knock).hands := by
    have hdrivers : ((start knocking).afterAll doing knock).hands.all Hand.isDriver = true := by
      decide +kernel
    exact fun hcall => Bool.false_ne_true (List.all_eq_true.1 hdrivers _ hcall)
  refine ⟨(hknock.2.2.2 hcalls).2 fun hdeserted => ?_, hhush.2.1.2 ?_⟩
  · have hcancelled : ((start knocking).afterAll doing knock).system.cancelled = false := by
      decide +kernel
    rw [(hknock.2.1.1 hdeserted).2.1] at hcancelled
    cases hcancelled
  · refine ⟨by decide +kernel, by decide +kernel, { linked := true, alive := 0 }, ?_, rfl⟩
    decide +kernel

/-- After the token is cancelled nobody is at work, but the fire is shown and the scheduler shows that
it is running. -/
theorem not_candid_hush :
    let crew := (start knocking).afterAll doing (knock ++ hush)
    crew.hands = [] ∧ (crew.system.scheduler.tasks[0]?.bind Task.nextRun).isSome = true ∧
      crew.system.scheduler.isRunning = true ∧ ¬ crew.Candid := by
  intro crew
  have hrunning : crew.system.scheduler.isRunning = true := by decide +kernel
  refine ⟨List.length_eq_zero_iff.1 (by decide +kernel), by decide +kernel, hrunning, fun h => ?_⟩
  have hstop : Action.driversStop (crew.system.scheduler.shifts.length - 1) crew.system = true := by
    decide +kernel
  rw [h.running hrunning] at hstop
  cases hstop

end Crew

end Pulse
