import Pulse.Proofs.System.Plant

/-!
# Accepted configurations do not crash

A configuration that was accepted, whose tasks have different names and schedules that can be read,
makes a system that works without a crash as long as the clock shows years from 1970 to 9999:
`Plant.afterAll_safe`.  For that three of its numbers must not be too large for the machine, the
clock and the calendar, `Config.Bearable`, which is not checked before a configuration is accepted.
With too many days to keep, the task that deletes old samples crashes in its first run and is left
running for ever: `Plant.not_safe_retention`.
-/

set_option autoImplicit false

namespace Pulse

open Time (Instant)

/-! ## Numbers that can be borne -/

/-- The numbers of a configuration are within what the machine, the clock and the calendar can bear.
-/
structure Config.Bearable (config : Config) : Prop where
  capacity : config.bus.capacity ≤ Bus.maxCapacity
  tick : ∀ period, config.monitoring.tickInterval = some period → period ≤ maxTick
  /-- The days to keep samples are no more than there are before the year 1970. -/
  retention : ∀ days, config.storage.retentionDays? = some days → (days : Int) ≤ -Time.firstDay

theorem MonitoringSettings.bearable {m : MonitoringSettings} (haccepted : m.refusal? = none)
    (htick : ∀ period, m.tickInterval = some period → period ≤ maxTick) : m.Bearable := by
  rw [refusal?] at haccepted
  split_ifs at haccepted with hgrace hzero
  simp only [Bool.or_eq_true, Bool.not_eq_eq_eq_not, Bool.not_true, decide_eq_true_eq, not_or,
    Bool.not_eq_false] at hgrace
  constructor
  · exact Decimal.isNegative_of_pos hgrace.1 hgrace.2
  · rintro period hperiod
    refine ⟨?_, htick period hperiod⟩
    rintro rfl
    exact hzero hperiod

/-! ## Tasks -/

/-- The tasks of a configuration and what they do. -/
def Config.jobs (config : Config) : List (TaskSettings × Job) :=
  config.scheduler.jobs config.storage.retentionDays?

/-- The tasks of a configuration can be scheduled together. -/
structure Config.Schedulable (config : Config) : Prop where
  parses : ∀ entry ∈ config.jobs, (Schedule.parse entry.1.schedule).isOk = true
  distinct : (config.jobs.map fun entry => entry.1.name).Nodup

theorem Scheduler.exists_add {scheduler : Scheduler} {name expression : String} (job : Job)
    (hparses : (Schedule.parse expression).isOk = true)
    (hnew : ∀ task ∈ scheduler.tasks, task.name ≠ name) :
    ∃ scheduler', scheduler.add name expression job = .ok scheduler' := by
  have hany : (scheduler.tasks.any fun task => task.name = name) = false := by
    simpa using hnew
  rw [add, hany, if_neg Bool.false_ne_true]
  cases hschedule : Schedule.parse expression with
  | error e =>
    rw [hschedule] at hparses
    cases hparses
  | ok schedule => exact ⟨_, rfl⟩

theorem Scheduler.tasks_of_add {scheduler scheduler' : Scheduler} {name expression : String}
    {job : Job} (h : scheduler.add name expression job = .ok scheduler') :
    ∃ task, scheduler'.tasks = scheduler.tasks ++ [task] ∧ task.name = name ∧ task.job = job ∧
      task.status = .idle := by
  rw [add] at h
  split_ifs at h
  split at h
  · cases h
  · cases h
    exact ⟨_, rfl, rfl, rfl, rfl⟩

/-- Tasks with different names can be added if their schedules can be read. -/
theorem Scheduler.exists_addAll {jobs : List (TaskSettings × Job)}
    (hparses : ∀ entry ∈ jobs, (Schedule.parse entry.1.schedule).isOk = true)
    (hdistinct : (jobs.map fun entry => entry.1.name).Nodup) (scheduler : Scheduler)
    (hnew : ∀ task ∈ scheduler.tasks, ∀ entry ∈ jobs, task.name ≠ entry.1.name) :
    ∃ scheduler', scheduler.addAll jobs = .ok scheduler' := by
  induction jobs generalizing scheduler with
  | nil => exact ⟨scheduler, rfl⟩
  | cons entry rest ih =>
    obtain ⟨settings, job⟩ := entry
    obtain ⟨hfresh, hdistinct⟩ := List.nodup_cons.1 hdistinct
    obtain ⟨next, hadd⟩ := exists_add job (hparses _ List.mem_cons_self)
      fun task htask => hnew task htask _ List.mem_cons_self
    obtain ⟨added, htasks, hname, -⟩ := tasks_of_add hadd
    rw [addAll, hadd]
    refine ih (fun entry hentry => hparses entry (List.mem_cons_of_mem _ hentry)) hdistinct next ?_
    intro task htask entry hentry
    rw [htasks] at htask
    rcases List.mem_append.1 htask with hold | htask
    · exact hnew task hold entry (List.mem_cons_of_mem _ hentry)
    · obtain rfl := List.mem_singleton.1 htask
      rw [hname]
      exact fun heq => hfresh (List.mem_map.2 ⟨entry, hentry, heq.symm⟩)

/-- The tasks of a scheduler to which tasks were added. -/
theorem Scheduler.tasks_of_addAll {scheduler scheduler' : Scheduler}
    {jobs : List (TaskSettings × Job)} (h : scheduler.addAll jobs = .ok scheduler') {task : Task}
    (htask : task ∈ scheduler'.tasks) :
    task ∈ scheduler.tasks ∨ (task.job ∈ jobs.map Prod.snd ∧ task.status = .idle) := by
  induction jobs generalizing scheduler with
  | nil =>
    cases h
    exact .inl htask
  | cons entry rest ih =>
    obtain ⟨settings, job⟩ := entry
    rw [addAll] at h
    cases hadd : scheduler.add settings.name settings.schedule job with
    | error e =>
      rw [hadd] at h
      cases h
    | ok next =>
      rw [hadd] at h
      obtain ⟨added, htasks, -, hjob, hidle⟩ := tasks_of_add hadd
      rcases ih h with hold | ⟨hlater, hstatus⟩
      · rw [htasks] at hold
        rcases List.mem_append.1 hold with hold | hnew
        · exact .inl hold
        · obtain rfl := List.mem_singleton.1 hnew
          exact .inr ⟨hjob ▸ List.mem_cons_self, hidle⟩
      · exact .inr ⟨List.mem_cons_of_mem _ hlater, hstatus⟩

theorem SchedulerSettings.bearable_of_mem_jobs {settings : SchedulerSettings}
    {retentionDays : Option Nat}
    (hretention : ∀ days, retentionDays = some days → (days : Int) ≤ -Time.firstDay) {job : Job}
    (h : job ∈ (settings.jobs retentionDays).map Prod.snd) : job.Bearable := by
  rcases retentionDays with _ | days
  · simp only [jobs, Option.map_none, Option.toList_none, List.append_nil, List.map_cons,
      List.map_nil, List.mem_cons, List.not_mem_nil, or_false] at h
    rcases h with rfl | rfl <;> trivial
  · simp only [jobs, Option.map_some, Option.toList_some, List.cons_append, List.nil_append,
      List.map_cons, List.map_nil, List.mem_cons, List.not_mem_nil, or_false] at h
    rcases h with rfl | rfl | rfl
    · trivial
    · trivial
    · exact hretention days rfl

/-! ## Systems -/

/-- A configuration of which the tasks can be scheduled makes a system. -/
theorem Config.Schedulable.exists_assemble {config : Config} (h : config.Schedulable)
    (store : Store) (origin : Instant) :
    ∃ scheduler, Scheduler.addAll { timeout := Action.millisOf config.scheduler.taskTimeout }
        config.jobs = .ok scheduler ∧
      config.assemble store origin = .ok {
        origin, store, bus := .new config.bus.capacity, scheduler
        monitor := { settings := config.monitoring } } := by
  obtain ⟨scheduler, hadd⟩ := Scheduler.exists_addAll h.parses h.distinct
    { timeout := Action.millisOf config.scheduler.taskTimeout } (List.forall_mem_nil _)
  refine ⟨scheduler, hadd, ?_⟩
  rw [assemble, ← jobs]
  simp only [hadd]
  rfl

/-- If the configuration was accepted and its numbers can be borne, the system begins in order. -/
theorem Config.exists_sound_start {config : Config} (haccepted : config.refusal? = none)
    (hschedulable : config.Schedulable) (hbearable : config.Bearable) (store : Store)
    {origin : Instant} (horigin : origin.IsReading) :
    ∃ s, config.assemble store origin = .ok s ∧ s.origin = origin ∧
      (Plant.start s).Sound origin [] := by
  obtain ⟨scheduler, hadd, hassemble⟩ := hschedulable.exists_assemble store origin
  have htask (task : Task) (htask : task ∈ scheduler.tasks) :
      task.job.Bearable ∧ task.status = .idle := by
    rcases Scheduler.tasks_of_addAll hadd htask with hold | ⟨hjob, hidle⟩
    · cases hold
    · exact ⟨SchedulerSettings.bearable_of_mem_jobs hbearable.retention hjob, hidle⟩
  simp only [refusal?, Option.or_eq_none_iff] at haccepted
  obtain ⟨-, hmonitoring, -, -⟩ := haccepted
  have hbegun : origin.add? (Time.Span.ofMillis (0 : Nat)) = some origin :=
    (congrArg origin.add? (Int.zero_mul _)).trans horigin.add?_zero
  refine ⟨_, hassemble, rfl, ?_⟩
  exact {
    program := rfl
    safe := rfl
    inOrder := {
      steady := {
        capacity := max_le hbearable.capacity (by decide)
        settings := MonitoringSettings.bearable hmonitoring hbearable.tick
        jobs := fun task h => (htask task h).1
        origin_eq := rfl
        reading := ⟨origin, hbegun, horigin⟩ }
      manned := fun i task h hrunning => by
        have hidle := (htask task (List.mem_of_getElem? h)).2
        rw [hrunning] at hidle
        cases hidle }
    waiting := List.forall_mem_nil _
    errands := List.forall_mem_nil _ }

/-- **A configuration that was accepted does not make the program crash**, as long as its numbers
are bearable and the clock shows years from 1970 to 9999.  Whatever the processes of the system and
the errands do, in whatever order, none of them ever crashes, and of each task that runs there is a
run at work: no task is left running by a run that died. -/
theorem Plant.afterAll_safe {config : Config} (haccepted : config.refusal? = none)
    (hschedulable : config.Schedulable) (hbearable : config.Bearable) (store : Store)
    {origin : Instant} (horigin : origin.IsReading) :
    ∃ s, config.assemble store origin = .ok s ∧ ∀ moves : List Move,
      let plant := (start s).afterAll moves
      (∃ now, s.moment? plant.world.time = some now ∧ now.IsReading) →
        plant.crashed = false ∧
          ∀ (i : Nat) (task : Task), plant.world.state.scheduler.tasks[i]? = some task →
            task.status = .running → ∃ w ∈ plant.world.waiting, ∃ n, w.process = .run n i := by
  obtain ⟨s, hs, rfl, hstart⟩ :=
    Config.exists_sound_start haccepted hschedulable hbearable store horigin
  refine ⟨s, hs, fun moves => ?_⟩
  rintro plant ⟨now, hnow, hreading⟩
  have hsound := hstart.afterAll horigin fun t ht =>
    horigin.exists_add?_between (Int.mul_nonneg (Int.natCast_nonneg t) (by decide))
      (Int.mul_le_mul_of_nonneg_right (Int.ofNat_le.2 ht) (by decide)) hnow hreading
  refine ⟨hsound.safe, fun i task htask hrunning => ?_⟩
  obtain ⟨n, hn⟩ := hsound.inOrder.manned i task htask hrunning
  obtain ⟨w, hw, hprocess⟩ := List.mem_map.1 hn
  exact ⟨w, hw, n, hprocess⟩

theorem Config.eq_of_assemble {α : Type} {config : Config} {store : Store} {origin : Instant}
    {s : System} (hs : config.assemble store origin = .ok s) (view : System → α) {a : α}
    (h : (config.assemble store origin).toOption.map view = some a) : view s = a := by
  rw [hs] at h
  exact Option.some_inj.1 h

namespace Plant

/-- A configuration with which samples are deleted every second that are older than so many days. -/
private def thrifty (days : Nat) : Config where
  servers := [⟨"a", "10.0.0.1", 10⟩]
  storage := .database "pulse.db" days
  monitoring := { graceMultiplier := 1.5, tickInterval := some 1 }
  scheduler :=
    { intervalCheck := ⟨"check", "@every 5s"⟩
      retention := ⟨"retention", "@every 1s"⟩ }

private def opening : Instant := .ofMillis 1741953600000

/-- The start with the pass that it waits for, and a second later the first fire of the last task.
-/
private def firstFire (days : Nat) : List Move :=
  [.call (.start (thrifty days)), .resume 2, .resume 2, .proceed 0, .resume 5, .tick 1000,
    .resume 5]

/-- What the clock shows after moves, the tasks and the processes that are at work. -/
private def view (moves : List Move) (s : System) :
    Option Instant × List TaskStatus × List Process × Bool :=
  let plant := (start s).afterAll moves
  (s.moment? plant.world.time, plant.world.state.scheduler.tasks.map Task.status, plant.processes,
    plant.crashed)

/-- As many days as can be kept at any time: the first run of the last task is at work. -/
theorem afterAll_safe_thrifty :
    ∃ s, (thrifty 96465292).assemble (.durable .empty) opening = .ok s ∧
      let plant := (start s).afterAll (firstFire 96465292)
      plant.world.state.scheduler.tasks.map Task.status = [.idle, .idle, .running] ∧
        plant.crashed = false ∧ ∃ w ∈ plant.world.waiting, ∃ n, w.process = .run n 2 := by
  have haccepted : (thrifty 96465292).refusal? = none :=
    Option.isNone_iff_eq_none.1 (by decide +kernel)
  have hschedulable : (thrifty 96465292).Schedulable := ⟨by decide +kernel, by decide +kernel⟩
  have hbearable : (thrifty 96465292).Bearable := by
    refine ⟨by decide, fun period hperiod => ?_, fun days hdays => ?_⟩
    · cases hperiod
      decide
    · cases hdays
      decide
  have hreading : opening.IsReading := by decide
  obtain ⟨s, hs, hsafe⟩ := afterAll_safe haccepted hschedulable hbearable (.durable .empty) hreading
  have hview := Config.eq_of_assemble hs (view (firstFire 96465292))
    (a := (some (.ofMillis 1741953601000), [.idle, .idle, .running],
      [.consumer 0, .consumer 1, .monitorLoop 0 (some 0), .driver 0 0, .driver 0 1, .run 0 2,
        .driverLoop 0 2 (.ofMillis 1741953602000)], false)) (by decide +kernel)
  simp only [view, Prod.mk.injEq] at hview
  obtain ⟨hclock, hstatus, -⟩ := hview
  obtain ⟨hsound, hmanned⟩ := hsafe (firstFire 96465292) ⟨_, hclock, by decide⟩
  have hthird := (List.getElem?_map ..).symm.trans (congrArg (fun statuses => statuses[2]?) hstatus)
  obtain ⟨task, htask, hrunning⟩ := Option.map_eq_some_iff.1 hthird
  exact ⟨s, hs, hstatus, hsound, hmanned 2 task htask hrunning⟩

/-- **Too many days to keep**: with a configuration that was accepted, the first run of a task
crashes, and the task is left running although nobody is at work on it. -/
theorem not_safe_retention :
    (thrifty 4294967295).refusal? = none ∧ (thrifty 4294967295).Schedulable ∧
      ∃ s, (thrifty 4294967295).assemble (.durable .empty) opening = .ok s ∧
        let plant := (start s).afterAll (firstFire 4294967295 ++ [.resume 5])
        s.moment? plant.world.time = some (.ofMillis 1741953601000) ∧ plant.crashed = true ∧
          plant.world.state.scheduler.tasks.map Task.status = [.idle, .idle, .running] ∧
          ∀ n, .run n 2 ∉ plant.processes := by
  have haccepted : (thrifty 4294967295).refusal? = none :=
    Option.isNone_iff_eq_none.1 (by decide +kernel)
  have hschedulable : (thrifty 4294967295).Schedulable := ⟨by decide +kernel, by decide +kernel⟩
  obtain ⟨_, -, hs⟩ := hschedulable.exists_assemble (.durable .empty) opening
  have hview := Config.eq_of_assemble hs (view (firstFire 4294967295 ++ [.resume 5]))
    (a := (some (.ofMillis 1741953601000), [.idle, .idle, .running],
      [.consumer 0, .consumer 1, .monitorLoop 0 (some 0), .driver 0 0, .driver 0 1,
        .driverLoop 0 2 (.ofMillis 1741953602000)], true)) (by decide +kernel)
  simp only [view, Prod.mk.injEq] at hview
  obtain ⟨hclock, hstatus, hprocesses, hcrashed⟩ := hview
  refine ⟨haccepted, hschedulable, _, hs, hclock, hcrashed, hstatus, fun n hn => ?_⟩
  rw [hprocesses] at hn
  simp at hn

/-- With queues that are too large the start crashes. -/
example :
    let config : Config := { thrifty 30 with bus := { capacity := Bus.maxCapacity + 1 } }
    config.refusal?.isNone ∧
      (config.assemble (.durable .empty) opening).toOption.map (fun s =>
        ((start s).afterAll [.call (.start config)]).crashed) = some true := by
  decide +kernel

/-- With ticks that are too far apart a late tick crashes. -/
example :
    let config : Config := { thrifty 30 with monitoring := { tickInterval := some (2 ^ 63) } }
    config.refusal?.isNone ∧
      (config.assemble (.durable .empty) opening).toOption.map (fun s =>
        ((start s).afterAll [.call (.startMonitor true), .resume 0, .tick 6, .resume 0]).crashed) =
          some true := by
  decide +kernel

end Plant

end Pulse
