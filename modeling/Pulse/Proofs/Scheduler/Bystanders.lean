import Pulse.Proofs.Scheduler.Fires

/-!
# What others leave of a task

While a driver waits for a fire of its task, others are at work: runs end, other drivers fire, calls
start the drivers or tell them to stop.  None of them changes the schedule of the task, and only
a call to stop, once it has come to its end, and another driver of the same task change the fire that
it shows.

* `Crew.map_after` — a move leaves of each task what a fire and the end of a run leave.
* `Crew.Moves.scheduleOf?_eq`, `Crew.Spares.nextRunOf?_eq` — the schedule and the fire that is shown.
-/

set_option autoImplicit false

namespace Pulse

open Activity (Meets Progress)
open Time (Instant)

/-- The schedule of a task. -/
def System.scheduleOf? (s : System) (i : Nat) : Option Schedule :=
  s.scheduler.tasks[i]?.map Task.schedule

/-- The fire that a task shows. -/
def System.nextRunOf? (s : System) (i : Nat) : Option Instant :=
  (s.scheduler.tasks[i]?.map Task.nextRun).join

theorem Task.schedule_begin (task : Task) (now : Instant) :
    (task.begin now).2.schedule = task.schedule := by
  rw [begin]
  split_ifs <;> rfl

theorem Task.nextRun_begin (task : Task) (now : Instant) :
    (task.begin now).2.nextRun = task.nextRun := by
  rw [begin]
  split_ifs <;> rfl

namespace Scheduler

variable {α : Type} {scheduler : Scheduler} {i j k : Nat} {now : Instant} {task : Task}
  {g : Task → α}

/-- What a fire does to its task. -/
theorem tasks_fire (htask : scheduler.tasks[i]? = some task) (k : Nat) (now : Instant) :
    (scheduler.fire k i now).2.tasks[i]? = some (task.begin now).2 := by
  by_cases hrunning : task.status = .running
  · rw [fire_of_running htask hrunning]
    simp [update, htask, Task.begin, hrunning]
  · rw [fire_of_idle htask hrunning]
    simp [update, beginProcess, updateShift, htask, Task.begin, hrunning]

theorem fire_fst (htask : scheduler.tasks[i]? = some task) (k : Nat) (now : Instant) :
    (scheduler.fire k i now).1 = (task.begin now).1 := by
  rw [fire, htask]

theorem tasks_update_self (htask : scheduler.tasks[i]? = some task) (change : Task → Task) :
    (scheduler.update i change).tasks[i]? = some (change task) := by
  simp [update, htask]

theorem tasks_update_of_ne (h : j ≠ i) (change : Task → Task) :
    (scheduler.update i change).tasks[j]? = scheduler.tasks[j]? := by
  simp [update, h.symm]

/-- What a change leaves of each task. -/
theorem map_update {change : Task → Task} (hchange : ∀ task, g (change task) = g task) :
    (scheduler.update j change).tasks[i]?.map g = scheduler.tasks[i]?.map g := by
  rw [update, List.getElem?_modify]
  cases scheduler.tasks[i]? with
  | none => rfl
  | some task => by_cases heq : j = i <;> simp [heq, hchange]

theorem map_fire (hbegin : ∀ task now, g (task.begin now).2 = g task) :
    (scheduler.fire k j now).2.tasks[i]?.map g = scheduler.tasks[i]?.map g := by
  by_cases heq : i = j
  · subst heq
    cases htask : scheduler.tasks[i]? with
    | none => rw [fire_of_none htask, htask]
    | some task => rw [tasks_fire htask, Option.map_some, Option.map_some, hbegin]
  · rw [tasks_fire_of_ne heq]

end Scheduler

/-- A hand leaves the fire alone that a task shows: it is no driver of the task, nor a call to stop
that has come to its end. -/
def Hand.Spares (s : System) (i : Nat) : Hand → Prop
  | .driver _ j | .driving _ j _ _ => i ≠ j
  | .running .. => True
  | .stopping k => s.scheduler.isOver k = false

namespace Crew

variable {α : Type} {g : Task → α} {job : Task → Action (Except String Unit)} {crew : Crew}
  {hand : Hand} {move : Move} {i j k : Nat}

theorem tasks_next (ending : Progress System Process (Option Process) × System × List Process) :
    (crew.next job k ending).system.scheduler.tasks = ending.2.1.scheduler.tasks := by
  obtain ⟨progress, s, started⟩ := ending
  cases progress with
  | finished process => cases process <;> rfl
  | crashed | waiting => rfl

theorem map_onward {s : System} {started : List Process}
    {ending : Progress System Process (Option Process) × System × List Process}
    (h : Action.Onward k j s started ending)
    (hset : (∀ (task : Task) next, g { task with nextRun := next } = g task) ∨ i ≠ j) :
    ending.2.1.scheduler.tasks[i]?.map g = s.scheduler.tasks[i]?.map g := by
  cases h with
  | crashed | ended => rfl
  | awaits next =>
    rcases hset with hset | hne
    · exact Scheduler.map_update fun task => hset task next
    · exact congrArg _ (Scheduler.tasks_update_of_ne hne _)

section

variable (hbegin : ∀ task now, g (task.begin now).2 = g task)
  (hfinish : ∀ task error, g (Task.finish task error) = g task)
include hbegin hfinish

/-- **What others leave of a task** when they go on. -/
theorem map_work (hregular : hand.Regular)
    (hset : (∀ (task : Task) next, g { task with nextRun := next } = g task) ∨
      hand.Spares crew.system i) :
    (crew.work job hand).system.scheduler.tasks[i]?.map g =
      crew.system.scheduler.tasks[i]?.map g := by
  cases hand with
  | driver k j =>
    rw [work, tasks_next]
    exact map_onward (Action.onward_beginDriver k j _ _) hset
  | driving k j due rest =>
    rw [work]
    rcases Action.AwaitsDue.run hregular crew.time crew.system with hrun | hrun | ⟨rest', -, hrun⟩
    · rw [hrun]
      rfl
    · rw [hrun]
      dsimp only
      rw [proceed, tasks_next]
      dsimp only
      cases hstop : Action.driversStop k crew.system with
      | true => rw [Action.run_proceed_of_stop hstop]
      | false =>
        cases hnow : crew.system.moment? crew.time with
        | none => rw [Action.run_proceed_of_none hstop hnow]
        | some now =>
          rw [map_onward (Action.onward_proceed hstop hnow) hset]
          exact Scheduler.map_fire hbegin
    · rw [hrun]
  | running k j rest =>
    have hs := (Meets.run System.Unscheduled.refl (fun _ _ _ _ => System.Unscheduled.trans)
      (hregular crew.time crew.system) []).1
    rw [work]
    generalize rest.run crew.time crew.system [] = ending at hs ⊢
    obtain ⟨progress, s, started⟩ := ending
    have hs : s.scheduler = crew.system.scheduler := hs
    cases progress with
    | waiting rest' => exact hs ▸ rfl
    | crashed => exact hs ▸ rfl
    | finished outcome =>
      rw [← hs]
      exact Scheduler.map_update fun task => hfinish task _
  | stopping k =>
    rw [work]
    split_ifs with hover
    · rcases hset with hset | hspares
      · simp only [Scheduler.clearFires, List.getElem?_map, Option.map_map]
        cases crew.system.scheduler.tasks[i]? with
        | none => rfl
        | some task => exact congrArg some (hset task none)
      · exact absurd hover (Bool.eq_false_iff.1 hspares)
    · rfl

/-- **What others leave of a task** in a move. -/
theorem map_after (hregular : ∀ hand ∈ crew.hands, hand.Regular)
    (hset : (∀ (task : Task) next, g { task with nextRun := next } = g task) ∨
      ∀ n hand, move = .resume n → crew.hands[n]? = some hand → hand.Spares crew.system i) :
    (crew.after job move).system.scheduler.tasks[i]?.map g =
      crew.system.scheduler.tasks[i]?.map g := by
  cases move with
  | tick ms => rfl
  | other change leaves =>
    show (change crew.system).scheduler.tasks[i]?.map g = _
    rw [leaves]
  | start linked =>
    rw [after, Action.run_startScheduler]
    split_ifs
    · rfl
    cases crew.system.moment? crew.time with
    | none => rfl
    | some now =>
      dsimp only
      cases hstart : crew.system.scheduler.start linked now with
      | error e => rfl
      | ok scheduler =>
        show scheduler.tasks[i]?.map g = _
        rw [(Scheduler.tasks_and_shifts_of_start hstart).1]
  | stop =>
    rw [after, Action.run_haltScheduler]
    cases hstop : crew.system.scheduler.stop with
    | error e => rfl
    | ok stopped =>
      show stopped.2.tasks[i]?.map g = _
      rw [Scheduler.tasks_of_stop hstop]
  | resume n =>
    rw [after]
    cases hhand : crew.hands[n]? with
    | none => rfl
    | some hand =>
      exact map_work hbegin hfinish
        (hregular hand (List.mem_of_getElem? hhand)) (hset.imp_right fun h => h n hand rfl hhand)

end

/-- Somebody moves in a crew whose hands do as they should. -/
def Moves (job : Task → Action (Except String Unit)) (s s' : System) : Prop :=
  ∃ (crew : Crew) (move : Move), crew.system = s ∧ (∀ hand ∈ crew.hands, hand.Regular) ∧
    (crew.after job move).system = s'

/-- Somebody moves who leaves the fire alone that a task shows. -/
def Spares (job : Task → Action (Except String Unit)) (i : Nat) (s s' : System) : Prop :=
  ∃ (crew : Crew) (move : Move), crew.system = s ∧ (∀ hand ∈ crew.hands, hand.Regular) ∧
    (∀ n hand, move = .resume n → crew.hands[n]? = some hand → hand.Spares s i) ∧
    (crew.after job move).system = s'

variable {s s' : System}

theorem Spares.moves (h : Spares job i s s') : Moves job s s' := by
  obtain ⟨crew, move, hs, hregular, -, hs'⟩ := h
  exact ⟨crew, move, hs, hregular, hs'⟩

/-- A move changes no schedule. -/
theorem Moves.scheduleOf?_eq (h : Moves job s s') (i : Nat) :
    s'.scheduleOf? i = s.scheduleOf? i := by
  obtain ⟨crew, move, rfl, hregular, rfl⟩ := h
  exact map_after Task.schedule_begin (fun _ _ => rfl) hregular (.inl fun _ _ => rfl)

theorem Spares.nextRunOf?_eq (h : Spares job i s s') : s'.nextRunOf? i = s.nextRunOf? i := by
  obtain ⟨crew, move, rfl, hregular, hspares, rfl⟩ := h
  exact congrArg Option.join
    (map_after Task.nextRun_begin (fun _ _ => rfl) hregular (.inr hspares))

end Crew

end Pulse
