import Pulse.Proofs.System.Endurance
import Pulse.System.Lifecycle
import Pulse.System.Serving

/-!
# No run dies

A task that runs waits for the end of its run; should the run die, the task would run for ever.
`System.InOrder` says that the system is steady and that every task that runs is *manned*: there is
a run of it among the processes at work.  Each process of the program relies on this and keeps it,
and none crashes: `Process.endures_body`.  So does whatever is asked of the system from outside,
each an `Errand`: `Errand.endures_action`.
-/

set_option autoImplicit false

namespace Pulse

open Activity (Endures)
open Time (Instant)

theorem Task.status_finish (task : Task) (error : Option String) :
    (task.finish error).status ≠ .running := by
  rw [finish]
  dsimp only
  split_ifs <;> decide

namespace System

/-- The system is steady, and of every task that runs there is a run among the processes at work,
`own` and `ps`. -/
structure InOrder (origin : Instant) (own : List Process) (t : Nat) (s : System)
    (ps : List Process) : Prop where
  steady : s.Steady origin t
  manned (i : Nat) (task : Task) : s.scheduler.tasks[i]? = some task → task.status = .running →
    ∃ n, .run n i ∈ own ++ ps

namespace InOrder

variable {origin : Instant} {own own' : List Process} {t : Nat} {s : System} {ps ps' : List Process}

theorem mono (h : s.InOrder origin own t ps) (hsub : own ++ ps ⊆ own' ++ ps') :
    s.InOrder origin own' t ps' where
  steady := h.steady
  manned i task htask hrunning := by
    obtain ⟨n, hn⟩ := h.manned i task htask hrunning
    exact ⟨n, hsub hn⟩

/-- Tasks may change, if there are runs for those that run then. -/
theorem withTasks (h : s.InOrder origin own t ps) (scheduler : Scheduler)
    (htasks : ∀ (i : Nat) (task : Task), scheduler.tasks[i]? = some task →
      ∃ old, s.scheduler.tasks[i]? = some old ∧ task.job = old.job ∧
        (task.status = .running → (old.status = .running → ∃ n, .run n i ∈ own ++ ps) →
          ∃ n, .run n i ∈ own' ++ ps')) :
    System.InOrder origin own' t { s with scheduler } ps' where
  steady :=
    { h.steady with
      jobs := fun task htask => by
        obtain ⟨i, hi⟩ := List.mem_iff_getElem?.1 htask
        obtain ⟨old, hold, hjob, -⟩ := htasks i task hi
        exact hjob ▸ h.steady.jobs old (List.mem_of_getElem? hold) }
  manned i task htask hrunning := by
    obtain ⟨old, hold, -, hmanned⟩ := htasks i task htask
    exact hmanned hrunning (h.manned i old hold)

/-- A task may change in other ways than to start or to do another job. -/
theorem update (h : s.InOrder origin own t ps) (i : Nat) {change : Task → Task}
    (hjob : ∀ task, (change task).job = task.job)
    (hstatus : ∀ task, (change task).status = .running → task.status = .running) :
    System.InOrder origin own t { s with scheduler := s.scheduler.update i change } ps := by
  refine h.withTasks _ fun j task htask => ?_
  obtain ⟨old, hold, rfl⟩ := Scheduler.task_of_update htask
  refine ⟨old, hold, ?_, fun hrunning hmanned => hmanned ?_⟩
  · split_ifs
    · exact hjob old
    · rfl
  · split_ifs at hrunning
    · exact hstatus old hrunning
    · exact hrunning

end InOrder

theorem robust_inOrder (origin : Instant) (own : List Process) :
    Robust origin (InOrder origin own) where
  steady h := h.steady
  frame h hframe :=
    { steady := hframe.steady h.steady
      manned := hframe.tasks ▸ h.manned }
  join p h := h.mono (by
    rw [← List.append_assoc]
    exact List.subset_append_left ..)

end System

namespace Action

open Pulse.System (InOrder)

variable {origin : Instant} {own : List Process} {t : Nat} {s : System} {ps : List Process}

/-! ## Runs -/

/-- **A run keeps the books of its task when it ends**, so that the task does not run any longer. -/
theorem endures_runTask (n i : Nat) (hs : s.InOrder origin [.run n i] t ps) :
    Endures (InOrder origin [.run n i]) (fun _ t s ps => s.InOrder origin [] t ps) (runTask n i) t s
      ps := by
  have hJ := System.robust_inOrder origin [.run n i]
  refine Endures.bind (hJ.endures_attempt i hs fun outcome t s ps hs => ?_)
  refine Endures.bind (Endures.modify (hs.withTasks _ fun j task htask => ?_))
  obtain ⟨old, hold, rfl⟩ := Scheduler.task_of_update htask
  refine ⟨old, hold, by split_ifs <;> rfl, fun hrunning hmanned => ?_⟩
  split_ifs at hrunning with hi
  · exact absurd hrunning (old.status_finish _)
  · obtain ⟨m, hm⟩ := hmanned hrunning
    rcases List.mem_cons.1 hm with heq | hm
    · cases heq
      exact absurd rfl hi
    · exact ⟨m, hm⟩

/-! ## Drivers -/

/-- The next fire can be looked up from a moment that has a second after it. -/
theorem exists_next {now later : Instant} (h : now.add? Time.Span.second = some later)
    (schedule : Schedule) : ∃ next, schedule.next now = .ok next := by
  rw [Schedule.next]
  cases schedule.rule with
  | every period => exact ⟨_, rfl⟩
  | calendar cron =>
    rw [Instant.add, h]
    exact ⟨_, rfl⟩

theorem exists_following {due now later later' : Instant}
    (hdue : due.add? Time.Span.second = some later)
    (hnow : now.add? Time.Span.second = some later') (task : Task) :
    ∃ next, task.following due now = .ok next := by
  obtain ⟨next, hnext⟩ := exists_next hdue task.schedule
  rw [Task.following, hnext]
  cases next with
  | none => exact ⟨_, rfl⟩
  | some next =>
    by_cases hlt : next < now
    · obtain ⟨next', hnext'⟩ := exists_next hnow task.schedule
      exact ⟨next', (if_pos hlt).trans hnext'⟩
    · exact ⟨some next, if_neg hlt⟩

/-- A fire for which a driver has waited is not far ahead of the clock, so there is a second after
it. -/
theorem exists_add?_of_rang {s' : System} {t' : Nat} {due now : Instant}
    (hs : s.Steady origin t) (hs' : s'.Steady origin t') (hnow : s.moment? t = some now)
    (hrang : Activity.rang (some (t + millisUntil due now)) t' = true) :
    ∃ later, due.add? Time.Span.second = some later := by
  obtain ⟨now', hnow', hreading⟩ := hs'.reading
  rw [System.moment?, hs.origin_eq] at hnow
  rw [System.moment?, hs'.origin_eq] at hnow'
  have hspan (t : Nat) : Time.Span.ofMillis t = (t * 1000000 : Int) := rfl
  rw [hspan] at hnow hnow'
  have hbegun := (Instant.nanos_of_add?_bounds (by omega) hnow).2
  have hover := (Instant.nanos_of_add?_bounds (by omega) hnow').1
  have hwait : t + millisUntil due now ≤ t' := by simpa [Activity.rang] using hrang
  have hround (d : Int) : d ≤ ((d + 1000000 - 1) / 1000000).toNat * 1000000 := by omega
  have hlong : @LE.le Int _ (due.since now) (millisUntil due now * 1000000) := hround _
  have hsince := Instant.le_since now due
  have hday := Instant.isReading_iff.1 hreading
  have hsecond := now'.second_lt
  have hnano := now'.nano_lt
  have hnear : due.nanos ≤ now'.nanos + 2000000000 := by omega
  refine Instant.exists_add? (by decide) ?_
  show due.nanos + 1000000000 < Instant.endNanos
  simp only [Instant.endNanos, Time.lastDay, Instant.nanos] at hnear ⊢
  omega

theorem endures_awaitFire (n i : Nat) (next : Option Instant)
    {Q : Option Process → Nat → System → List Process → Prop} (hs : s.InOrder origin own t ps)
    (h : ∀ next s, s.InOrder origin own t ps → Q next t s ps) :
    Endures (InOrder origin own) Q (awaitFire n i next) t s ps :=
  Endures.bind (Endures.modify (h _ _ (hs.update i (fun _ => rfl) fun _ => id)))

theorem endures_beginDriver (n i : Nat)
    {Q : Option Process → Nat → System → List Process → Prop} (hs : s.InOrder origin own t ps)
    (h : ∀ next s, s.InOrder origin own t ps → Q next t s ps) :
    Endures (InOrder origin own) Q (beginDriver n i) t s ps := by
  refine Endures.bind (Endures.get ?_)
  cases s.scheduler.tasks[i]? with
  | none => exact h _ s hs
  | some task =>
    refine Endures.bind ((System.robust_inOrder origin own).endures_now hs fun now _ hreading => ?_)
    obtain ⟨later, hlater⟩ := hreading.exists_add?_second
    have hnext := exists_next hlater task.schedule
    refine Endures.bind (System.Robust.endures_checked hnext fun next _ => ?_)
    cases next with
    | none => exact h _ s hs
    | some due => exact endures_awaitFire n i (some due) hs h

/-- A run that a driver starts is at work from then on. -/
theorem endures_fire (n i : Nat) {Q : Unit → Nat → System → List Process → Prop}
    (hs : s.InOrder origin own t ps) (h : ∀ s ps, s.InOrder origin own t ps → Q () t s ps) :
    Endures (InOrder origin own) Q (fire n i) t s ps := by
  refine Endures.bind (Endures.get (Endures.bind ?_))
  refine (System.robust_inOrder origin own).endures_now hs fun now _ _ => ?_
  cases htask : s.scheduler.tasks[i]? with
  | none =>
    rw [Scheduler.fire_of_none htask]
    exact h s ps hs
  | some task =>
    by_cases hrunning : task.status = .running
    · rw [Scheduler.fire_of_running htask hrunning]
      refine h _ ps (hs.withTasks _ fun j task' htask' => ?_)
      obtain ⟨old, hold, rfl⟩ := Scheduler.task_of_update htask'
      by_cases hi : i = j
      · subst hi
        obtain rfl := Option.some_inj.1 (htask.symm.trans hold)
        rw [if_pos rfl]
        exact ⟨task, hold, rfl, fun _ hmanned => hmanned hrunning⟩
      · rw [if_neg hi]
        exact ⟨old, hold, rfl, fun hrunning hmanned => hmanned hrunning⟩
    · rw [Scheduler.fire_of_idle htask hrunning]
      refine h _ _ (hs.withTasks _ fun j task' htask' => ?_)
      obtain ⟨old, hold, rfl⟩ := Scheduler.task_of_update htask'
      by_cases hi : i = j
      · subst hi
        obtain rfl := Option.some_inj.1 (htask.symm.trans hold)
        rw [if_pos rfl]
        exact ⟨task, hold, rfl, fun _ _ => ⟨n, by simp⟩⟩
      · rw [if_neg hi]
        refine ⟨old, hold, rfl, fun hrunning hmanned => ?_⟩
        obtain ⟨m, hm⟩ := hmanned hrunning
        exact ⟨m, by rw [← List.append_assoc]; exact List.mem_append_left _ hm⟩

theorem endures_proceed (n i : Nat) {due : Instant}
    {Q : Option Process → Nat → System → List Process → Prop} (hs : s.InOrder origin own t ps)
    (hdue : driversStop n s = true ∨ ∃ later, due.add? Time.Span.second = some later)
    (h : ∀ next s ps, s.InOrder origin own t ps → Q next t s ps) :
    Endures (InOrder origin own) Q (proceed n i due) t s ps := by
  refine Endures.bind (Endures.get ?_)
  show Endures _ _ (if _ then _ else _) t s ps
  split_ifs with hstop
  · exact h _ s ps hs
  · obtain ⟨later, hlater⟩ := hdue.resolve_left hstop
    refine Endures.bind (endures_fire n i hs fun s ps hs => Endures.bind (Endures.get ?_))
    cases s.scheduler.tasks[i]? with
    | none => exact h _ s ps hs
    | some task =>
      refine Endures.bind ((System.robust_inOrder origin own).endures_now hs ?_)
      intro now _ hreading
      obtain ⟨later', hlater'⟩ := hreading.exists_add?_second
      have hnext := exists_following hlater hlater' task
      refine Endures.bind (System.Robust.endures_checked hnext fun next _ => ?_)
      exact endures_awaitFire n i next hs fun next s hs => h next s ps hs

/-- **A driver does not crash**, whatever the schedule of its task is. -/
theorem endures_drive (n i : Nat) (due : Instant)
    {Q : Option Process → Nat → System → List Process → Prop} (hs : s.InOrder origin own t ps)
    (h : ∀ next t s ps, s.InOrder origin own t ps → Q next t s ps) :
    Endures (InOrder origin own) Q (drive n i due) t s ps := by
  have hJ := System.robust_inOrder origin own
  refine Endures.bind (Endures.bind (Endures.clock (Endures.bind ?_)))
  refine hJ.endures_now hs fun now hnow _ => Endures.waiting hs fun t' s' ps' hs' hgo => ?_
  refine endures_proceed n i hs' ?_ fun next s ps hs => h next t' s ps hs
  rcases Bool.or_eq_true_iff.1 hgo with hstop | hrang
  · exact .inl hstop
  · exact .inr (exists_add?_of_rang hs.steady hs'.steady hnow hrang)

/-! ## Starting and stopping -/

theorem endures_launchAll {J : Nat → System → List Process → Prop} (hJ : System.Robust origin J)
    {ι : Type} (process : ι → Process) (items : List ι)
    {Q : PUnit → Nat → System → List Process → Prop} (hs : J t s ps)
    (h : ∀ ps, J t s ps → Q PUnit.unit t s ps) :
    Endures J Q (forIn items PUnit.unit fun i _ => do
      Activity.launch (process i)
      pure (ForInStep.yield PUnit.unit)) t s ps := by
  induction items generalizing ps with
  | nil => exact h ps hs
  | cons i items ih =>
    rw [List.forIn_cons]
    exact Endures.bind (Endures.bind (Endures.launch (ih (hJ.join _ hs))))

theorem endures_startScheduler (linked : Bool)
    {Q : Except SchedulerError Unit → Nat → System → List Process → Prop}
    (hs : s.InOrder origin own t ps)
    (h : ∀ result s ps, s.InOrder origin own t ps → Q result t s ps) :
    Endures (InOrder origin own) Q (startScheduler linked) t s ps := by
  have hJ := System.robust_inOrder origin own
  refine Endures.bind (Endures.get ?_)
  show Endures _ _ (if _ then _ else _) t s ps
  split
  · exact h _ s ps hs
  · refine Endures.bind (Endures.get (Endures.bind (hJ.endures_now hs fun now _ _ => ?_)))
    cases hstart : s.scheduler.start linked now with
    | error e => exact h _ s ps hs
    | ok scheduler =>
      have htasks := (Scheduler.tasks_and_shifts_of_start hstart).1
      refine Endures.bind (hJ.endures_modify hs { tasks := htasks } fun s hs => Endures.bind ?_)
      exact endures_launchAll hJ _ _ hs fun ps hs => h _ s ps hs

theorem endures_stopScheduler {Q : Except SchedulerError Unit → Nat → System → List Process → Prop}
    (hs : s.InOrder origin own t ps)
    (h : ∀ result t s ps, s.InOrder origin own t ps → Q result t s ps) :
    Endures (InOrder origin own) Q stopScheduler t s ps := by
  have hJ := System.robust_inOrder origin own
  refine Endures.bind (Endures.bind (Endures.get ?_))
  cases hstop : s.scheduler.stop with
  | error e => exact h _ t s ps hs
  | ok result =>
    obtain ⟨n, scheduler⟩ := result
    have htasks := Scheduler.tasks_of_stop hstop
    refine Endures.bind (hJ.endures_modify hs { tasks := htasks } fun s hs => ?_)
    refine Endures.bind (Endures.waiting hs fun t s ps hs _ => Endures.bind ?_)
    refine Endures.modify (h _ t _ ps (hs.withTasks _ fun i task htask => ?_))
    obtain ⟨old, hold, rfl⟩ := Option.map_eq_some_iff.1 ((List.getElem?_map ..).symm.trans htask)
    exact ⟨old, hold, rfl, fun hrunning hmanned => hmanned hrunning⟩

end Action

namespace System.Robust

open Pulse.Action

variable {origin : Instant} {J : Nat → System → List Process → Prop}
  (hJ : System.Robust origin J) {t : Nat} {s : System} {ps : List Process}
include hJ

theorem endures_registerAll (servers : List ServerSettings)
    {Q : Except StartError Unit → Nat → System → List Process → Prop} (hs : J t s ps)
    (h : ∀ result t s ps, J t s ps → Q result t s ps) :
    Endures J Q (registerAll servers) t s ps := by
  induction servers generalizing t s ps with
  | nil => exact h _ t s ps hs
  | cons server rest ih =>
    refine Endures.bind (hJ.endures_ask hs fun answer t s ps hs => ?_)
    cases answer with
    | error e => exact h _ t s ps hs
    | ok _ => exact ih hs

theorem endures_startConsumers (timeout : Nat) (consumers : List (String × Handlers))
    {Q : Except StartError Unit → Nat → System → List Process → Prop} (hs : J t s ps)
    (h : ∀ result t s ps, J t s ps → Q result t s ps) :
    Endures J Q (startConsumers timeout consumers) t s ps := by
  induction consumers generalizing t s ps with
  | nil => exact h _ t s ps hs
  | cons consumer rest ih =>
    obtain ⟨queue, handlers⟩ := consumer
    refine Endures.bind (hJ.endures_startConsumer _ _ _ hs fun result t s ps hs => ?_)
    cases result with
    | error e => exact h _ t s ps hs
    | ok n => exact ih hs

theorem endures_startMonitoring {Q : Except StartError Unit → Nat → System → List Process → Prop}
    (hs : J t s ps) (h : ∀ result t s ps, J t s ps → Q result t s ps) :
    Endures J Q startMonitoring t s ps := by
  refine Endures.bind (hJ.endures_startMonitor true hs fun result t s ps hs => ?_)
  cases result with
  | error e => exact h _ t s ps hs
  | ok _ => exact Endures.bind (hJ.endures_check hs fun outcome t s ps hs => h _ t s ps hs)

theorem endures_stopConsumers (consumers : List Consumer)
    {Q : Unit → Nat → System → List Process → Prop} (hs : J t s ps)
    (h : ∀ t s ps, J t s ps → Q () t s ps) : Endures J Q (stopConsumers consumers) t s ps := by
  induction consumers generalizing t s ps with
  | nil => exact h t s ps hs
  | cons consumer rest ih =>
    exact Endures.bind (hJ.endures_stopConsumer _ hs fun stats t s ps hs => ih hs)

/-! ## Requests of operators -/

theorem endures_respondTo (producer : Producer) (request : Api.Request) (route : Api.Route)
    {Q : Api.Response → Nat → System → List Process → Prop} (hs : J t s ps)
    (h : ∀ response t s ps, J t s ps → Q response t s ps) :
    Endures J Q (respondTo producer request route) t s ps := by
  cases route with
  | health => exact Endures.bind (hJ.endures_ask hs fun answer t s ps hs => h _ t s ps hs)
  | servers =>
    refine Endures.bind (hJ.endures_ask hs fun answer t s ps hs => ?_)
    cases answer <;> exact h _ t s ps hs
  | serverStatus escapedId =>
    rw [respondTo]
    cases Text.Percent.decode? escapedId with
    | none => exact h _ t s ps hs
    | some id =>
      refine Endures.bind (hJ.endures_ask hs fun answer t s ps hs => ?_)
      cases answer with
      | error e => exact h _ t s ps hs
      | ok record => cases record <;> exact h _ t s ps hs
  | events =>
    rw [respondTo]
    cases request.event with
    | error e => exact h _ t s ps hs
    | ok event =>
      refine Endures.bind (hJ.endures_publish producer event hs fun result t s ps hs => ?_)
      cases result <;> exact h _ t s ps hs
  | tasks => exact Endures.bind (Endures.get (h _ t s ps hs))
  | scheduler => exact Endures.bind (Endures.get (h _ t s ps hs))

theorem endures_respondPlainly (producer : Producer) (request : Api.Request)
    {Q : Api.Response → Nat → System → List Process → Prop} (hs : J t s ps)
    (h : ∀ response t s ps, J t s ps → Q response t s ps) :
    Endures J Q (respondPlainly producer request) t s ps := by
  rw [respondPlainly]
  cases Api.Route.ofPath? request.path with
  | none => exact h _ t s ps hs
  | some route =>
    show Endures _ _ (if _ then _ else _) t s ps
    split
    · refine Endures.bind (hJ.endures_respondTo producer request route hs ?_)
      exact fun response t s ps hs => h _ t s ps hs
    · exact h _ t s ps hs

theorem endures_respond (shared : Bool) (producer : Producer) (request : Api.Request)
    {Q : Api.Response → Nat → System → List Process → Prop} (hs : J t s ps)
    (h : ∀ response t s ps, J t s ps → Q response t s ps) :
    Endures J Q (respond shared producer request) t s ps := by
  show Endures _ _ (if _ then _ else _) t s ps
  split
  · exact h _ t s ps hs
  · refine Endures.bind (hJ.endures_respondPlainly producer request hs ?_)
    exact fun response t s ps hs => h _ t s ps hs

end System.Robust

/-! ## From start to end -/

namespace Action

open Pulse.System (InOrder)

variable {origin : Instant} {own : List Process} {t : Nat} {s : System} {ps : List Process}

/-- **The start does not crash.** -/
theorem endures_start (config : Config)
    {Q : Except StartError Unit → Nat → System → List Process → Prop}
    (hs : s.InOrder origin own t ps)
    (h : ∀ result t s ps, s.InOrder origin own t ps → Q result t s ps) :
    Endures (InOrder origin own) Q (start config) t s ps := by
  have hJ := System.robust_inOrder origin own
  refine Endures.bind (hJ.endures_registerAll _ hs fun result t s ps hs => ?_)
  cases result with
  | error e => exact h _ t s ps hs
  | ok _ =>
    refine Endures.bind (hJ.endures_startConsumers _ _ hs fun result t s ps hs => ?_)
    cases result with
    | error e => exact h _ t s ps hs
    | ok _ =>
      refine Endures.bind (hJ.endures_startMonitoring hs fun result t s ps hs => ?_)
      cases result with
      | error e => exact h _ t s ps hs
      | ok _ =>
        exact Endures.bind (endures_startScheduler true hs fun result s ps hs => h _ t s ps hs)

/-- **The end does not crash.** -/
theorem endures_shutDown {Q : Except StorageError Unit → Nat → System → List Process → Prop}
    (hs : s.InOrder origin own t ps)
    (h : ∀ result t s ps, s.InOrder origin own t ps → Q result t s ps) :
    Endures (InOrder origin own) Q shutDown t s ps := by
  have hJ := System.robust_inOrder origin own
  refine Endures.bind (endures_stopScheduler hs fun _ t s ps hs => ?_)
  refine Endures.bind (hJ.endures_stopMonitor hs fun _ t s ps hs => Endures.bind (Endures.get ?_))
  refine Endures.bind (hJ.endures_stopConsumers _ hs fun t s ps hs => ?_)
  refine Endures.bind (hJ.endures_modify hs {} fun s hs => ?_)
  exact @System.Robust.endures_ask _ _ hJ _ _ _ .done .close Q hs h

end Action

/-! ## Processes -/

namespace Process

open Pulse.System (InOrder)

variable {origin : Instant} {t : Nat} {s : System} {ps : List Process}

/-- **No process crashes**, and without it the system is in order when it ends. -/
theorem endures_body (horigin : origin.IsReading) (p : Process)
    (hs : s.InOrder origin [p] t ps) :
    Endures (InOrder origin [p]) (fun _ t s ps => s.InOrder origin [] t ps) p.body t s ps := by
  have hJ := System.robust_inOrder origin [p]
  have hdone (hrun : ∀ n i, p ≠ .run n i) (next : Option Process) (t : Nat) (s : System)
      (ps : List Process) (hs : s.InOrder origin [p] t ps) : s.InOrder origin [] t ps := by
    refine { hs with manned := fun i task htask hrunning => ?_ }
    obtain ⟨n, hn⟩ := hs.manned i task htask hrunning
    exact ⟨n, (List.mem_cons.1 hn).resolve_left fun heq => hrun n i heq.symm⟩
  cases p with
  | consumer n => exact hJ.endures_consume n hs (hdone (by simp))
  | monitor n => exact hJ.endures_beginMonitor n hs fun next => hdone (by simp) next t s ps hs
  | monitorLoop n due => exact hJ.endures_monitorLoop horigin n due hs (hdone (by simp))
  | driver n i =>
    exact Action.endures_beginDriver n i hs fun next s hs => hdone (by simp) next t s ps hs
  | driverLoop n i due => exact Action.endures_drive n i due hs (hdone (by simp))
  | run n i => exact Action.endures_runTask n i hs
  | pass number =>
    refine Endures.bind (hJ.endures_pass hs fun outcome t s ps hs => Endures.bind ?_)
    exact hJ.endures_modify hs {} fun s hs => hdone (by simp) none t s ps hs
  | check number =>
    refine Endures.bind (hJ.endures_check hs fun outcome t s ps hs => Endures.bind ?_)
    exact hJ.endures_modify hs {} fun s hs => hdone (by simp) none t s ps hs

/-- The end of a process leaves alone what decides about crashes. -/
theorem frame_epilogue (p : Process) (s : System) : s.Frame (p.epilogue s) := by
  cases p with
  | consumer n => exact { capacity := Bus.capacity_unsubscribe }
  | pass number | check number =>
    rw [epilogue]
    split_ifs <;> exact {}
  | _ => exact {}

end Process

/-! ## Errands -/

/-- What is asked of a system from outside. -/
inductive Errand where
  | start (config : Config)
  | shutDown
  /-- A request of an operator. -/
  | respond (shared : Bool) (producer : Producer) (request : Api.Request)
  | ask {form : Store.Form} (request : Store.Request form)
  | publish (producer : Producer) (event : Event)
  | publishMessage (message : Message)
  | pass
  | check
  | startMonitor (linked : Bool)
  | stopMonitor
  | startScheduler (linked : Bool)
  | stopScheduler

namespace Errand

open Pulse.System (InOrder)

/-- How an errand is done. -/
def action : Errand → Action Unit
  | start config => do let _ ← Action.start config
  | shutDown => do let _ ← Action.shutDown
  | respond shared producer request => do let _ ← Action.respond shared producer request
  | ask request => do let _ ← Action.ask request
  | publish producer event => do let _ ← Action.publish producer event
  | publishMessage message => do let _ ← Action.publishMessage message
  | pass => do let _ ← Action.pass
  | check => do let _ ← Action.check
  | startMonitor linked => do let _ ← Action.startMonitor linked
  | stopMonitor => do let _ ← Action.stopMonitor
  | startScheduler linked => do let _ ← Action.startScheduler linked
  | stopScheduler => do let _ ← Action.stopScheduler

variable {origin : Instant} {t : Nat} {s : System} {ps : List Process}

/-- **No errand crashes**, and the system stays in order. -/
theorem endures_action (errand : Errand) (hs : s.InOrder origin [] t ps) :
    Endures (InOrder origin []) (fun _ t s ps => s.InOrder origin [] t ps) errand.action t s
      ps := by
  have hJ := System.robust_inOrder origin []
  cases errand with
  | start config => exact Endures.bind (Action.endures_start config hs fun _ _ _ _ hs => hs)
  | shutDown => exact Endures.bind (Action.endures_shutDown hs fun _ _ _ _ hs => hs)
  | respond shared producer request =>
    exact Endures.bind (hJ.endures_respond shared producer request hs fun _ _ _ _ hs => hs)
  | ask request => exact Endures.bind (hJ.endures_ask hs fun _ _ _ _ hs => hs)
  | publish producer event =>
    exact Endures.bind (hJ.endures_publish producer event hs fun _ _ _ _ hs => hs)
  | publishMessage message =>
    exact Endures.bind (hJ.endures_publishMessage message hs fun _ _ _ _ hs => hs)
  | pass => exact Endures.bind (hJ.endures_pass hs fun _ _ _ _ hs => hs)
  | check => exact Endures.bind (hJ.endures_check hs fun _ _ _ _ hs => hs)
  | startMonitor linked =>
    exact Endures.bind (hJ.endures_startMonitor linked hs fun _ _ _ _ hs => hs)
  | stopMonitor => exact Endures.bind (hJ.endures_stopMonitor hs fun _ _ _ _ hs => hs)
  | startScheduler linked =>
    exact Endures.bind (Action.endures_startScheduler linked hs fun _ _ _ hs => hs)
  | stopScheduler => exact Endures.bind (Action.endures_stopScheduler hs fun _ _ _ _ hs => hs)

end Errand

end Pulse
