import Pulse.Proofs.Schedule.Forward
import Pulse.Proofs.Scheduler.Bystanders

/-!
# A driver from fire to fire

A driver waits for a fire of its task, starts a run and chooses the next fire, again and again.  It
may wake late, by any time; while it waits, anything may happen that leaves the schedule of its task
alone, as everything in a crew does (`Crew.Moves.scheduleOf?_eq`).

* `Turn` — what a driver does when its waiting is over, in a single stretch.
* `Drives` — turns of a driver, one after the other, with others in between.
* `Drives.course` — the fires of a driver are chosen as `Schedule.Course` says.
* `drives_punctual` — the driver fires once in each turn, goes forward only, leaves out no fire as
  long as it keeps up, skips what it has missed when it is late, and ends when there is no fire any
  more.
-/

set_option autoImplicit false

namespace Pulse

open Activity (Progress run_bind)
open Schedule (Choice Standing awaited)
open Time (Instant)

/-! ## One turn -/

/-- What a driver does when its waiting is over. -/
structure Turn extends Choice where
  before : System
  after : System
  started : List Process

/-- The driver fires once: a run of its task is started, or, if one is under way, counted as skipped.
The task then shows the fire that the driver has chosen, and the other tasks are left alone. -/
structure Turn.FiresOnce (k i : Nat) (turn : Turn) : Prop where
  fires : ∃ task, turn.before.scheduler.tasks[i]? = some task ∧
    ((task.status ≠ .running ∧ turn.started = [.run k i] ∧
        turn.after.scheduler.tasks[i]? =
          some { task with status := .running, lastRun := some turn.now, nextRun := turn.next }) ∨
      (task.status = .running ∧ turn.started = [] ∧
        turn.after.scheduler.tasks[i]? =
          some { task with skippedCount := task.skippedCount + 1, nextRun := turn.next }))
  others (j : Nat) : j ≠ i → turn.after.scheduler.tasks[j]? = turn.before.scheduler.tasks[j]?

namespace Turn.FiresOnce

variable {k i : Nat} {turn : Turn}

theorem nextRunOf?_after (h : turn.FiresOnce k i) : turn.after.nextRunOf? i = turn.next := by
  obtain ⟨task, -, ⟨-, -, hafter⟩ | ⟨-, -, hafter⟩⟩ := h.fires <;>
    rw [System.nextRunOf?, hafter, Option.map_some, Option.join_some]

theorem scheduleOf?_after (h : turn.FiresOnce k i) :
    turn.after.scheduleOf? i = turn.before.scheduleOf? i := by
  obtain ⟨task, hbefore, ⟨-, -, hafter⟩ | ⟨-, -, hafter⟩⟩ := h.fires <;>
    rw [System.scheduleOf?, System.scheduleOf?, hbefore, hafter, Option.map_some, Option.map_some]

end Turn.FiresOnce

theorem Task.following_begin (task : Task) (due now now' : Instant) :
    (task.begin now').2.following due now = task.following due now := by
  rw [following, following, schedule_begin]

namespace Action

variable {k i t : Nat} {due now start : Instant} {rest : Action Unit} {s s' : System} {task : Task}
  {first next : Option Instant} {started : List Process} {schedule : Schedule}

/-- The state in which a driver leaves the system. -/
def turned (k i : Nat) (now : Instant) (next : Option Instant) (s : System) : System :=
  { s with scheduler :=
    (s.scheduler.fire k i now).2.update i fun task => { task with nextRun := next } }

/-- What a driver goes on with after a fire, in terms of its task before the fire. -/
theorem run_proceed (hgoes : driversStop k s = false) (hnow : s.moment? t = some now)
    (htask : s.scheduler.tasks[i]? = some task) (due : Instant) :
    (proceed k i due).run t s [] =
      let started := if (task.begin now).1 then [.run k i] else []
      match task.following due now with
      | .error _ => (.crashed, { s with scheduler := (s.scheduler.fire k i now).2 }, started)
      | .ok next => (.finished (next.map (.driverLoop k i)), turned k i now next s, started) := by
  rw [run_proceed_of_task hgoes hnow (Scheduler.tasks_fire htask k now),
    Scheduler.fire_fst htask, Task.following_begin]
  rfl

/-- A turn fires once. -/
theorem firesOnce_turned (htask : s.scheduler.tasks[i]? = some task) (due : Instant)
    (next : Option Instant) :
    Turn.FiresOnce k i
      { due, now, next, before := s, after := turned k i now next s
        started := if (task.begin now).1 then [.run k i] else [] } where
  fires := by
    refine ⟨task, htask, ?_⟩
    have hafter := Scheduler.tasks_update_self (Scheduler.tasks_fire htask k now) fun task =>
      { task with nextRun := next }
    by_cases hrunning : task.status = .running
    · rw [Task.begin, if_pos hrunning] at hafter
      exact .inr ⟨hrunning, by simp [Task.begin, hrunning], hafter⟩
    · rw [Task.begin, if_neg hrunning] at hafter
      exact .inl ⟨hrunning, by simp [Task.begin, hrunning], hafter⟩
  others j hj := (Scheduler.tasks_update_of_ne hj _).trans (Scheduler.tasks_fire_of_ne hj)

/-- A driver that does not wait any longer does what comes next. -/
theorem AwaitsDue.run_of_finished {α : Type} {f : Unit → Action α} {a : α}
    {ending : System × List Process} (h : AwaitsDue k due rest)
    (hrun : (rest >>= f).run t s [] = (.finished a, ending)) :
    (f ()).run t s [] = (.finished a, ending) := by
  rw [run_bind] at hrun
  rcases h.run t s with hend | hend | ⟨rest', -, hend⟩
  · rw [hend] at hrun
    cases hrun
  · rwa [hend] at hrun
  · rw [hend] at hrun
    cases hrun

/-- **One turn.**  The driver chooses as it should, and fires once. -/
theorem AwaitsDue.turn (h : AwaitsDue k due rest) (hgoes : driversStop k s = false)
    (hnow : s.moment? t = some now) (hschedule : s.scheduleOf? i = some schedule)
    (hrun : (rest >>= fun _ => proceed k i due).run t s [] =
      (.finished (next.map (.driverLoop k i)), s', started)) :
    schedule.Chooses due now next ∧
      Turn.FiresOnce k i { due, now, next, before := s, after := s', started } := by
  obtain ⟨task, htask, rfl⟩ := Option.map_eq_some_iff.1 hschedule
  have hproceed := h.run_of_finished hrun
  rw [run_proceed hgoes hnow htask] at hproceed
  cases hfollowing : task.following due now with
  | error e =>
    rw [hfollowing] at hproceed
    cases hproceed
  | ok chosen =>
    rw [hfollowing] at hproceed
    obtain ⟨hnext, rfl, rfl⟩ : chosen = next ∧ turned k i now chosen s = s' ∧ _ = started := by
      simp only [Prod.mk.injEq, Progress.finished.injEq] at hproceed
      refine ⟨Option.map_injective (fun due due' heq => ?_) hproceed.1, hproceed.2⟩
      cases heq
      rfl
    subst hnext
    exact ⟨Schedule.following_eq_ok_iff.1 hfollowing, firesOnce_turned htask due chosen⟩

/-- A driver has its turn once its waiting is over, if the schedule can be looked up. -/
theorem run_turn (hover : rest.run t s [] = (.finished (), s, []))
    (hgoes : driversStop k s = false) (hnow : s.moment? t = some now)
    (htask : s.scheduler.tasks[i]? = some task) (hchooses : task.schedule.Chooses due now next) :
    (rest >>= fun _ => proceed k i due).run t s [] =
      (.finished (next.map (.driverLoop k i)), turned k i now next s,
        if (task.begin now).1 then [.run k i] else []) := by
  rw [run_bind, hover]
  dsimp only
  rw [run_proceed hgoes hnow htask, Schedule.following_eq_ok_iff.2 hchooses]

/-- A driver that is to stop does nothing more. -/
theorem AwaitsDue.eq_of_stop {ending : Option Process} (h : AwaitsDue k due rest)
    (hstop : driversStop k s = true)
    (hrun : (rest >>= fun _ => proceed k i due).run t s [] = (.finished ending, s', started)) :
    s' = s := by
  have hproceed := h.run_of_finished hrun
  rw [run_proceed_of_stop hstop] at hproceed
  cases hproceed
  rfl

/-- When a driver starts, it looks the first fire up from its clock. -/
theorem run_beginDriver (hnow : s.moment? t = some start)
    (htask : s.scheduler.tasks[i]? = some task) :
    (beginDriver k i).run t s [] = match task.schedule.next start with
      | .error _ => (.crashed, s, [])
      | .ok none => (.finished none, s, [])
      | .ok (some due) => (.finished (some (.driverLoop k i due)),
          { s with scheduler :=
              s.scheduler.update i fun task => { task with nextRun := some due } }, []) := by
  rw [beginDriver, run_state_bind, htask]
  dsimp only
  rw [run_now_bind, hnow]
  dsimp only
  rw [run_checked_bind]
  cases task.schedule.next start with
  | error e => rfl
  | ok next => cases next <;> rfl

theorem begins_of_run (hnow : s.moment? t = some start) (hschedule : s.scheduleOf? i = some schedule)
    (hrun : (beginDriver k i).run t s [] =
      (.finished (first.map (.driverLoop k i)), s', started)) :
    schedule.next start = .ok first ∧ s'.scheduleOf? i = some schedule ∧
      s'.nextRunOf? i = first.or (s.nextRunOf? i) := by
  obtain ⟨task, htask, rfl⟩ := Option.map_eq_some_iff.1 hschedule
  rw [run_beginDriver hnow htask] at hrun
  cases hnext : task.schedule.next start with
  | error e =>
    rw [hnext] at hrun
    cases hrun
  | ok found =>
    rw [hnext] at hrun
    cases found with
    | none =>
      cases first with
      | none =>
        cases hrun
        exact ⟨rfl, hschedule, rfl⟩
      | some due => cases hrun
    | some due =>
      cases first with
      | none => cases hrun
      | some due' =>
        cases hrun
        refine ⟨rfl, ?_, ?_⟩
        · rw [System.scheduleOf?, Scheduler.tasks_update_self htask, Option.map_some]
        · rw [System.nextRunOf?, Scheduler.tasks_update_self htask, Option.map_some,
            Option.join_some, Option.some_or]

end Action

/-! ## All turns -/

/-- A driver fires again and again while others change the system.  A driver that is to stop ends
without a fire. -/
inductive Drives (others : System → System → Prop) (k i : Nat) :
    Standing → System → List Turn → Standing → System → Prop
  | rest (standing : Standing) (s : System) : Drives others k i standing s [] standing s
  | others {s s' s'' : System} {standing last : Standing} {turns : List Turn}
    (hothers : others s s') (hrest : Drives others k i standing s' turns last s'') :
    Drives others k i standing s turns last s''
  | turn {s s' s'' : System} {t : Nat} {due now : Instant} {next : Option Instant}
    {rest : Action Unit} {started : List Process} {turns : List Turn} {last : Standing}
    (hwaits : Action.AwaitsDue k due rest) (hgoes : Action.driversStop k s = false)
    (hnow : s.moment? t = some now) (hdue : due ≤ now)
    (hrun : (rest >>= fun _ => Action.proceed k i due).run t s [] =
      (.finished (next.map (.driverLoop k i)), s', started))
    (hrest : Drives others k i (.of next) s' turns last s'') :
    Drives others k i (.awaits due) s
      ({ due, now, next, before := s, after := s', started } :: turns) last s''
  | stops {s s' s'' : System} {t : Nat} {due : Instant} {rest : Action Unit}
    {started : List Process} {turns : List Turn} {last : Standing}
    (hwaits : Action.AwaitsDue k due rest) (hstop : Action.driversStop k s = true)
    (hrun : (rest >>= fun _ => Action.proceed k i due).run t s [] = (.finished none, s', started))
    (hrest : Drives others k i (.stopped due) s' turns last s'') :
    Drives others k i (.awaits due) s turns last s''

/-- What a task shows of its driver: the fire that is awaited, and none if there will be none.  Of a
driver that was told to stop nothing is said. -/
def Schedule.Standing.IsShown (i : Nat) (s : System) : Standing → Prop
  | awaits due => s.nextRunOf? i = some due
  | exhausted => s.nextRunOf? i = none
  | stopped _ => True

theorem Schedule.Standing.isShown_of {i : Nat} {s : System} {next : Option Instant}
    (h : s.nextRunOf? i = next) : (Standing.of next).IsShown i s := by
  cases next <;> exact h

theorem Schedule.Standing.IsShown.congr {i : Nat} {s s' : System} {standing : Standing}
    (h : standing.IsShown i s) (hshows : s'.nextRunOf? i = s.nextRunOf? i) :
    standing.IsShown i s' := by
  cases standing with
  | awaits due => exact hshows.trans h
  | exhausted => exact hshows.trans h
  | stopped due => trivial

namespace Drives

variable {others : System → System → Prop} {k i : Nat} {first last : Standing} {s s' : System}
  {turns : List Turn} {schedule : Schedule}

/-- No turn follows once a driver has been told to stop. -/
theorem eq_of_stopped {due : Instant} (h : Drives others k i (.stopped due) s turns last s') :
    turns = [] ∧ last = .stopped due := by
  generalize hfirst : Standing.stopped due = first at h
  induction h with
  | rest => exact ⟨rfl, rfl⟩
  | others _ _ ih => exact ih hfirst
  | turn | stops => cases hfirst

/-- **The turns of a driver** are the course of its schedule, and in each of them it fires once. -/
theorem course (hkeeps : ∀ s s', others s s' → s'.scheduleOf? i = s.scheduleOf? i)
    (h : Drives others k i first s turns last s') (hschedule : s.scheduleOf? i = some schedule) :
    schedule.Course first (turns.map Turn.toChoice) last ∧ (∀ turn ∈ turns, turn.FiresOnce k i) ∧
      s'.scheduleOf? i = some schedule := by
  induction h with
  | rest standing s => exact ⟨.rest standing, List.forall_mem_nil _, hschedule⟩
  | others hothers _ ih => exact ih ((hkeeps _ _ hothers).trans hschedule)
  | turn hwaits hgoes hnow hdue hrun _ ih =>
    obtain ⟨hchooses, hfires⟩ := hwaits.turn hgoes hnow hschedule hrun
    obtain ⟨hcourse, hrest, hend⟩ := ih (hfires.scheduleOf?_after.trans hschedule)
    exact ⟨.chooses hdue hchooses hcourse, List.forall_mem_cons.2 ⟨hfires, hrest⟩, hend⟩
  | stops hwaits hstop hrun hrest ih =>
    cases hwaits.eq_of_stop hstop hrun
    obtain ⟨rfl, rfl⟩ := hrest.eq_of_stopped
    exact ⟨.stops _, List.forall_mem_nil _, (ih hschedule).2.2⟩

/-- The task shows the fire that its driver awaits, as long as the others leave it alone. -/
theorem isShown (hkeeps : ∀ s s', others s s' → s'.scheduleOf? i = s.scheduleOf? i)
    (hshows : ∀ s s', others s s' → s'.nextRunOf? i = s.nextRunOf? i)
    (h : Drives others k i first s turns last s') (hschedule : s.scheduleOf? i = some schedule)
    (hfirst : first.IsShown i s) : last.IsShown i s' := by
  induction h with
  | rest => exact hfirst
  | others hothers _ ih =>
    exact ih ((hkeeps _ _ hothers).trans hschedule) (hfirst.congr (hshows _ _ hothers))
  | turn hwaits hgoes hnow _ hrun _ ih =>
    have hfires := (hwaits.turn hgoes hnow hschedule hrun).2
    exact ih (hfires.scheduleOf?_after.trans hschedule)
      (Standing.isShown_of hfires.nextRunOf?_after)
  | stops hwaits hstop hrun _ ih =>
    cases hwaits.eq_of_stop hstop hrun
    exact ih hschedule trivial

end Drives

/-- A driver has a turn when its alarm has rung. -/
theorem Drives.exists_turn {others : System → System → Prop} {k i t begun : Nat}
    {s s' origin : System} {due now seen : Instant} {next : Option Instant} {schedule : Schedule}
    {turns : List Turn} {last : Standing} (hbegun : origin.moment? begun = some seen)
    (hrang : begun + Action.millisUntil due seen ≤ t) (hgoes : Action.driversStop k s = false)
    (hnow : s.moment? t = some now) (hdue : due ≤ now) (hschedule : s.scheduleOf? i = some schedule)
    (hchooses : schedule.Chooses due now next)
    (hrest : Drives others k i (.of next) (Action.turned k i now next s) turns last s') :
    ∃ turn : Turn, turn.toChoice = ⟨due, now, next⟩ ∧
      Drives others k i (.awaits due) s (turn :: turns) last s' := by
  obtain ⟨task, htask, rfl⟩ := Option.map_eq_some_iff.1 hschedule
  refine ⟨{ due, now, next, before := s, after := Action.turned k i now next s
            started := if (task.begin now).1 then [.run k i] else [] }, rfl, ?_⟩
  refine .turn (.goesOn begun origin seen hbegun) hgoes hnow hdue ?_ hrest
  refine Action.run_turn ?_ hgoes hnow htask hchooses
  rw [Activity.run, if_pos (by simp [Activity.rang, hrang])]
  rfl

/-- The fires for which a driver has waited. -/
def firesOf (turns : List Turn) (last : Standing) : List Instant :=
  awaited (turns.map Turn.toChoice) last

/-- What a driver has done since its clock showed `start`, and what it will do. -/
structure Punctual (others : System → System → Prop) (schedule : Schedule) (k i : Nat)
    (start : Instant) (first : Option Instant) (turns : List Turn) (last : Standing)
    (s s' : System) : Prop where
  /-- The fires that are awaited ascend, from after the start. -/
  ascending : (start :: firesOf turns last).Pairwise (· < ·)
  /-- The first fire is looked up from the start. -/
  begun : schedule.next start = .ok first ∧ (firesOf turns last).head? = first
  /-- In each turn the driver fires once. -/
  firesOnce : ∀ turn ∈ turns, turn.FiresOnce k i
  /-- Each turn is for the fire that is awaited, and chooses the next one, which is not in the
  past. -/
  chosen (n : Nat) (turn : Turn) : turns[n]? = some turn →
    (firesOf turns last)[n]? = some turn.due ∧ (firesOf turns last)[n + 1]? = turn.next ∧
      schedule.Chooses turn.due turn.now turn.next ∧ ∀ u, turn.next = some u → turn.now ≤ u
  /-- As long as no turn is late, the fires are those of the schedule. -/
  inTime (n : Nat) : n ≤ turns.length →
    (∀ turn ∈ turns.take n, schedule.InTime turn.due turn.now) →
    (firesOf turns last)[n]? = schedule.nthFire? start n
  /-- A turn that is late skips what it has missed: nothing is awaited that is after its fire and
  before its clock, and the next fire is looked up from the clock. -/
  late (turn : Turn) (u : Instant) : turn ∈ turns → schedule.next turn.due = .ok (some u) →
    u < turn.now → schedule.next turn.now = .ok turn.next ∧
      ∀ v ∈ firesOf turns last, v ≤ turn.due ∨ turn.now < v
  /-- The driver ends by itself exactly if there was no fire any more when it looked for one last. -/
  exhausted : last = .exhausted ↔ match turns.getLast? with
    | none => schedule.next start = .ok none
    | some turn => schedule.IsOver turn.due turn.now
  /-- The task shows what is awaited, and nothing once the driver has ended by itself.  Since the
  turns end anywhere, this is so at all times.  The others must leave alone what the task shows:
  runs and the drivers of other tasks do, but a call to stop takes back the fires of all tasks when
  it returns.  If the drivers were started again while it waited, this is also the fire for which a
  driver of the new shift waits.  That driver goes on, and its task shows a fire again once the
  driver has chosen the next one. -/
  shown : (∀ s s', others s s' → s'.nextRunOf? i = s.nextRunOf? i) →
    (first = none → s.nextRunOf? i = none) → last.IsShown i s'
  /-- When the waiting is over, the driver has its turn, in a single stretch, unless it is to stop or
  the schedule cannot be looked up. -/
  goesOn (t : Nat) (due now : Instant) (rest : Action Unit) : last = .awaits due →
    s'.moment? t = some now → rest.run t s' [] = (.finished (), s', []) →
    (Action.driversStop k s' = true →
      (rest >>= fun _ => Action.proceed k i due).run t s' [] = (.finished none, s', [])) ∧
    (Action.driversStop k s' = false → ∀ a b, schedule.next due = .ok a → schedule.next now = .ok b →
      ∃ (next : Option Instant) (s'' : System) (started : List Process),
        (rest >>= fun _ => Action.proceed k i due).run t s' [] =
          (.finished (next.map (.driverLoop k i)), s'', started))

/-- **A driver is punctual.**  It starts at any time, for any schedule, and wakes at any readings of
its clock that are not before the fires that it awaits, while anything happens in between that leaves
the schedule of its task alone.  It does not have to be assumed that the readings do not decrease. -/
theorem drives_punctual {others : System → System → Prop} {k i t : Nat} {start : Instant}
    {s s₀ s' : System} {schedule : Schedule} {first : Option Instant} {started : List Process}
    {turns : List Turn} {last : Standing}
    (hkeeps : ∀ s s', others s s' → s'.scheduleOf? i = s.scheduleOf? i)
    (hschedule : s.scheduleOf? i = some schedule) (hstart : s.moment? t = some start)
    (hbegin : (Action.beginDriver k i).run t s [] =
      (.finished (first.map (.driverLoop k i)), s₀, started))
    (hdrives : Drives others k i (.of first) s₀ turns last s') :
    Punctual others schedule k i start first turns last s s' := by
  obtain ⟨hfirst, hschedule₀, hnext₀⟩ := Action.begins_of_run hstart hschedule hbegin
  obtain ⟨hcourse, hfires, hschedule'⟩ := hdrives.course hkeeps hschedule₀
  have hhead : (firesOf turns last).head? = first :=
    hcourse.head?_awaited.trans (Standing.due?_of first)
  have hchoice {n : Nat} {turn : Turn} (h : turns[n]? = some turn) :
      (turns.map Turn.toChoice)[n]? = some turn.toChoice := by
    rw [List.getElem?_map, h, Option.map_some]
  have hmem {turn : Turn} (h : turn ∈ turns) : turn.toChoice ∈ turns.map Turn.toChoice :=
    List.mem_map_of_mem h
  exact {
    ascending := by
      rw [← List.isChain_iff_pairwise, List.isChain_cons]
      refine ⟨fun u hu => ?_, List.isChain_iff_pairwise.2 hcourse.pairwise_awaited⟩
      exact Schedule.lt_of_next (hfirst.trans (congrArg _ (hhead.symm.trans hu)))
    begun := ⟨hfirst, hhead⟩
    firesOnce := hfires
    chosen := fun n turn hturn => by
      have hchooses := (hcourse.chooses_of_mem (hmem (List.mem_of_getElem? hturn))).2
      refine ⟨Schedule.Course.getElem?_awaited_of_choice (hchoice hturn),
        hcourse.getElem?_awaited_succ (hchoice hturn), hchooses, fun u hu => ?_⟩
      exact (hu ▸ hchooses).now_le
    inTime := fun n hn htime => by
      have hstart : schedule.nextFire? start = (Standing.of first).due? := by
        rw [Schedule.nextFire?_eq_of_next hfirst, Standing.due?_of]
      refine hcourse.getElem?_awaited hstart (by simpa using hn) fun choice hin => ?_
      rw [← List.map_take] at hin
      obtain ⟨turn, hturn, rfl⟩ := List.mem_map.1 hin
      exact htime turn hturn
    late := fun turn u hturn hnext hlt => by
      have hchooses := (hcourse.chooses_of_mem (hmem hturn)).2
      have hafter := hchooses.next_eq_of_lt hnext hlt
      refine ⟨hafter, fun v hv => ?_⟩
      refine (hcourse.le_due_or_next_le (hmem hturn) hv).imp_right fun ⟨w, hw, hle⟩ => ?_
      exact (Schedule.lt_of_next (hafter.trans (congrArg _ hw))).trans_le hle
    exhausted := by
      rw [← Standing.due?_eq_none_iff, hcourse.due?_last, List.getLast?_map, Option.map_map,
        Standing.due?_of]
      cases hlast : turns.getLast? with
      | none =>
        rw [hfirst, Except.ok.injEq]
        rfl
      | some turn =>
        exact (hcourse.chooses_of_mem (hmem (List.mem_of_getLast? hlast))).2.eq_none_iff
    shown := fun hshows hfresh => by
      refine hdrives.isShown hkeeps hshows hschedule₀ (Standing.isShown_of ?_)
      rw [hnext₀]
      cases first with
      | none => exact hfresh rfl
      | some due => rfl
    goesOn := fun t due now rest _ hnow hover => by
      obtain ⟨task, htask, rfl⟩ := Option.map_eq_some_iff.1 hschedule'
      refine ⟨fun hstop => ?_, fun hgoes a b hdue hafter => ?_⟩
      · rw [run_bind, hover]
        exact Action.run_proceed_of_stop hstop t
      · obtain ⟨next, hchooses⟩ := Schedule.exists_chooses hdue hafter
        exact ⟨next, _, _, Action.run_turn hover hgoes hnow htask hchooses⟩ }

/-- The start of a day. -/
private def dawn : Instant := .ofDate default

/-- The moment so many seconds after noon. -/
private def sinceMidday (seconds : Nat) (h : seconds < 43200 := by decide) : Instant :=
  { dawn with second := 43200 + seconds, second_lt := by omega, leap := .inl (by decide) }

/-- A task that is due every fifteen seconds. -/
private def tick : Task :=
  { name := "tick", schedule := ⟨"@every 15s", .every ⟨15000, by decide, by decide⟩⟩,
    job := .rehearsal [] [] }

private def ticking : System where
  origin := sinceMidday 0
  store := .volatile
  bus := .new 1
  monitor := { settings := {} }
  scheduler := { tasks := [tick], timeout := 5000 }

/-- The first fire has been set. -/
private def ticked : System :=
  { ticking with scheduler :=
      ticking.scheduler.update 0 fun task => { task with nextRun := some (sinceMidday 15) } }

private def tickedOnce : System :=
  Action.turned 0 0 (sinceMidday 15) (some (sinceMidday 30)) ticked

/-- The run of the first fire has been under way at the second. -/
private def tickedTwice : System :=
  Action.turned 0 0 (sinceMidday 30) (some (sinceMidday 45)) tickedOnce

/-- What the task does. -/
private def ticks (task : Task) : Action (Except String Unit) :=
  Action.doJob task.runCount task.job

/-- The run of the first fire at work. -/
private def ticker : Crew where
  time := 30000
  system := tickedTwice
  hands := [.running 0 0 (Action.attempt ticks 0)]
  books := fun _ => {}
  settled := []
  crashed := false

/-- The run has ended. -/
private def rested : System :=
  (ticker.after ticks (.resume 0)).system

/-- The driver has woken twenty-five seconds late. -/
private def tickedLate : System :=
  Action.turned 0 0 (sinceMidday 70) (some (sinceMidday 85)) rested

/-- One fire starts a run, one is skipped, and one is late, so that the next is that after the
clock. -/
theorem drives_punctual_late :
    ∃ turns, Drives (Crew.Spares ticks 0) 0 0 (.awaits (sinceMidday 15)) ticked turns
        (.awaits (sinceMidday 85)) tickedLate ∧
      firesOf turns (.awaits (sinceMidday 85)) =
        [sinceMidday 15, sinceMidday 30, sinceMidday 45, sinceMidday 85] ∧
      tickedLate.nextRunOf? 0 = some (sinceMidday 85) := by
  have hstart : ticking.moment? 0 = some (sinceMidday 0) := rfl
  have hbegin : (Action.beginDriver 0 0).run 0 ticking [] =
      (.finished ((some (sinceMidday 15)).map (.driverLoop 0 0)), ticked, []) := by
    have hfirst : tick.schedule.next (sinceMidday 0) = .ok (some (sinceMidday 15)) := rfl
    have htask : ticking.scheduler.tasks[0]? = some tick := rfl
    rw [Action.run_beginDriver hstart htask, hfirst]
    rfl
  have hrested : Crew.Spares ticks 0 tickedTwice rested := by
    refine ⟨ticker, .resume 0, rfl, List.forall_mem_singleton.2 ?_, ?_, rfl⟩
    · exact fun t s => Action.meets_attempt (fun task => Action.meets_doJob task.runCount task.job) 0
    · rintro n hand ⟨⟩ ⟨⟩
      trivial
  obtain ⟨third, hthird, hdrives⟩ : ∃ turn : Turn,
      turn.toChoice = ⟨sinceMidday 45, sinceMidday 70, some (sinceMidday 85)⟩ ∧
        Drives (Crew.Spares ticks 0) 0 0 (.awaits (sinceMidday 45)) rested [turn]
          (.awaits (sinceMidday 85)) tickedLate := by
    have hbegun : tickedTwice.moment? 30000 = some (sinceMidday 30) := rfl
    have hnow : rested.moment? 70000 = some (sinceMidday 70) := rfl
    have hchooses : tick.schedule.Chooses (sinceMidday 45) (sinceMidday 70)
        (some (sinceMidday 85)) := .late (u := sinceMidday 60) rfl (by decide) rfl
    exact Drives.exists_turn hbegun (by decide) rfl hnow (by decide)
      (hrested.moves.scheduleOf?_eq 0) hchooses (.rest _ _)
  obtain ⟨second, hsecond, hdrives⟩ : ∃ turn : Turn,
      turn.toChoice = ⟨sinceMidday 30, sinceMidday 30, some (sinceMidday 45)⟩ ∧
        Drives (Crew.Spares ticks 0) 0 0 (.awaits (sinceMidday 30)) tickedOnce [turn, third]
          (.awaits (sinceMidday 85)) tickedLate := by
    have hbegun : tickedOnce.moment? 15000 = some (sinceMidday 15) := rfl
    have hnow : tickedOnce.moment? 30000 = some (sinceMidday 30) := rfl
    have hchooses : tick.schedule.Chooses (sinceMidday 30) (sinceMidday 30)
        (some (sinceMidday 45)) := .inTime rfl (by decide)
    exact Drives.exists_turn hbegun (by decide) rfl hnow (by decide) rfl hchooses
      (.others hrested hdrives)
  obtain ⟨first, hfirst, hdrives⟩ : ∃ turn : Turn,
      turn.toChoice = ⟨sinceMidday 15, sinceMidday 15, some (sinceMidday 30)⟩ ∧
        Drives (Crew.Spares ticks 0) 0 0 (.awaits (sinceMidday 15)) ticked [turn, second, third]
          (.awaits (sinceMidday 85)) tickedLate := by
    have hbegun : ticked.moment? 0 = some (sinceMidday 0) := rfl
    have hnow : ticked.moment? 15000 = some (sinceMidday 15) := rfl
    have hchooses : tick.schedule.Chooses (sinceMidday 15) (sinceMidday 15)
        (some (sinceMidday 30)) := .inTime rfl (by decide)
    exact Drives.exists_turn hbegun (by decide) rfl hnow (by decide) rfl hchooses hdrives
  have hpunctual := drives_punctual (fun s s' h => h.moves.scheduleOf?_eq 0) rfl hstart hbegin
    hdrives
  refine ⟨_, hdrives, ?_, hpunctual.shown (fun s s' h => h.nextRunOf?_eq) fun h => by cases h⟩
  simp [firesOf, awaited, hfirst, hsecond, hthird, Standing.due?]

end Pulse
