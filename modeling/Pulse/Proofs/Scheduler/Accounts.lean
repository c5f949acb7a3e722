import Pulse.Proofs.Scheduler.Crew
import Pulse.Proofs.Scheduler.Jobs

/-!
# The accounts of the scheduler

What do the tasks show after drivers, runs and calls have taken turns in any order?

* `Crew.Sound` — what each move keeps, as long as no job crashes.
* `Crew.Accounted` — what follows of that: every task shows what its book says, and whoever is at
  work is in the last shift, or a call waits for the end of the shift.
-/

set_option autoImplicit false

namespace Pulse

open Activity (Meets Progress)
open Time (Instant)

/-! ## What hands do to the scheduler -/

namespace Action

variable {t : Nat} {s : System}

theorem meets_awaitDue (k : Nat) (due : Instant) :
    Meets System.Unchanged (fun _ _ _ => True) (awaitDue k due) t s :=
  Meets.bind (Meets.clock (Meets.bind (meets_now fun _ _ =>
    Meets.waiting System.Unchanged.refl fun _ _ => trivial)))

theorem meets_attempt {job : Task → Action (Except String Unit)}
    (hjob : ∀ task t s, Meets System.Unscheduled (fun _ _ _ => True) (job task) t s) (i : Nat) :
    Meets System.Unscheduled (fun _ _ _ => True) (attempt job i) t s := by
  refine Meets.bind (Meets.get ?_)
  dsimp only
  cases s.scheduler.tasks[i]? with
  | none => trivial
  | some task =>
    refine Meets.bind (Meets.clock ?_)
    exact Meets.within (fun _ _ => trivial) (hjob task t s)

end Action

/-- What is left of a hand's work does as it should: who waits changes nothing, and a run leaves the
scheduler alone. -/
def Hand.Proper : Hand → Prop
  | .driving _ _ _ rest =>
    ∀ t s, rest.Meets System.Unchanged (fun _ _ _ => True) t s
  | .running _ _ rest => ∀ t s, rest.Meets System.Unscheduled (fun _ _ _ => True) t s
  | .driver .. | .stopping _ => True

namespace Crew

variable {job : Task → Action (Except String Unit)} {crew : Crew} {hand : Hand} {k i : Nat}

/-- What each move keeps. -/
structure Sound (crew : Crew) : Prop where
  proper : ∀ hand ∈ crew.hands, hand.Proper
  staffed : crew.system.scheduler.Staffed (crew.hands.map Hand.post) crew.books crew.settled

theorem sound_start (s : System) : (start s).Sound where
  proper := fun hand hhand => nomatch hhand
  staffed := by
    refine Scheduler.Staffed.new rfl rfl fun task htask => ?_
    obtain ⟨task, -, rfl⟩ := List.mem_map.1 htask
    exact ⟨Task.balanced_new .., rfl⟩

/-! ## One hand -/

/-- The job of a run has ended. -/
theorem sound_conclude (crew : Crew) (hproper : ∀ hand ∈ crew.hands, hand.Proper)
    (h : crew.system.scheduler.Staffed (.run k i :: crew.hands.map Hand.post) crew.books
      crew.settled) (outcome : Option (Except String Unit)) :
    (crew.conclude k i outcome).Sound where
  proper := hproper
  staffed := h.finish outcome

section

variable (hjob : ∀ task t s, Meets System.Unscheduled (fun _ _ _ => True) (job task) t s)
include hjob

theorem proper_ofProcess {process : Process} (h : Hand.ofProcess? job process = some hand) :
    hand.Proper := by
  cases process with
  | driver k i =>
    cases h
    trivial
  | driverLoop k i due =>
    cases h
    exact fun t s => Action.meets_awaitDue k due
  | run k i =>
    cases h
    exact fun t s => Action.meets_attempt hjob i
  | _ => cases h

theorem proper_join (crew : Crew) (h : ∀ hand ∈ crew.hands, hand.Proper) (started : List Process) :
    ∀ hand ∈ (crew.join job started).hands, hand.Proper := by
  intro hand hhand
  rcases List.mem_append.1 hhand with hhand | hhand
  · exact h hand hhand
  · obtain ⟨process, -, hprocess⟩ := List.mem_filterMap.1 hhand
    exact proper_ofProcess hjob hprocess

/-- A driver goes on. -/
theorem sound_next {s : System} {started : List Process}
    {ending : Progress System Process (Option Process) × System × List Process}
    (hproper : ∀ hand ∈ crew.hands, hand.Proper)
    (h : s.scheduler.Staffed (.driver k i :: (crew.join job started).hands.map Hand.post)
      crew.books crew.settled)
    (honward : Action.Onward k i s started ending) : (crew.next job k ending).Sound := by
  cases honward with
  | crashed | ended => exact ⟨proper_join hjob _ hproper started, h.leave⟩
  | awaits next =>
    cases next with
    | none => exact ⟨proper_join hjob _ hproper started, (h.setNextRun i none).leave⟩
    | some due =>
      refine ⟨proper_join hjob _ hproper _, (h.setNextRun i (some due)).perm ?_⟩
      have hhands : (crew.join job (started ++ [.driverLoop k i due])).hands =
          (crew.join job started).hands ++ [.driving k i due (Action.awaitDue k due)] := by
        simp [join, Hand.ofProcess?]
      show (_ :: _).Perm ((crew.join job (started ++ [.driverLoop k i due])).hands.map Hand.post)
      rw [hhands, List.map_append]
      exact (List.perm_append_singleton _ _).symm

/-- The waiting of a driver is over. -/
theorem sound_proceed (hproper : ∀ hand ∈ crew.hands, hand.Proper)
    (h : crew.system.scheduler.Staffed (.driver k i :: crew.hands.map Hand.post) crew.books
      crew.settled) (due : Instant) : (crew.proceed job k i due).Sound := by
  have hnobody (crew : Crew) : (crew.join job []).hands = crew.hands := List.append_nil _
  suffices hnoted : ∀ ending, (Action.proceed k i due).run crew.time crew.system [] = ending →
      (next job { crew with
        books := Function.update crew.books i (crew.noteFire k i ending.2.2) } k ending).Sound from
    hnoted _ rfl
  intro ending hending
  cases hstop : Action.driversStop k crew.system with
  | true =>
    have hnote : crew.noteFire k i [] = crew.books i := by
      unfold noteFire
      cases crew.system.moment? crew.time <;> simp [hstop]
    rw [Action.run_proceed_of_stop hstop] at hending
    subst hending
    rw [hnote, Function.update_eq_self]
    exact sound_next hjob hproper ((hnobody crew).symm ▸ h) .ended
  | false =>
    cases hnow : crew.system.moment? crew.time with
    | none =>
      have hnote : crew.noteFire k i [] = crew.books i := by
        rw [noteFire, hnow]
      rw [Action.run_proceed_of_none hstop hnow] at hending
      subst hending
      rw [hnote, Function.update_eq_self]
      exact sound_next hjob hproper ((hnobody crew).symm ▸ h) .crashed
    | some now =>
      have honward : Action.Onward k i _ _ ending :=
        hending ▸ Action.onward_proceed hstop hnow
      have hnote : crew.noteFire k i ending.2.2 = if (crew.system.scheduler.fire k i now).1
          then ((crew.books i).fire (crew.system.scheduler.runs i)).begin now
          else (crew.books i).fire (crew.system.scheduler.runs i) := by
        rw [honward.started_eq, noteFire, hnow, hstop]
        cases (crew.system.scheduler.fire k i now).1 <;> simp
      rw [hnote]
      refine sound_next hjob hproper ((h.fire now).perm ?_) honward
      cases (crew.system.scheduler.fire k i now).1 with
      | false => simp [join]
      | true =>
        simp only [if_true, join, Hand.ofProcess?, List.filterMap_cons, List.filterMap_nil,
          List.map_append, List.map_cons, List.map_nil, Hand.post, List.singleton_append]
        exact (List.Perm.swap _ _ _).trans
          ((List.perm_append_singleton _ _).symm.cons (Post.driver k i))

/-- A hand goes on until it waits. -/
theorem sound_work (hproper : ∀ hand ∈ crew.hands, hand.Proper) (hhand : hand.Proper)
    (h : crew.system.scheduler.Staffed (hand.post :: crew.hands.map Hand.post) crew.books
      crew.settled) (hcrash : (crew.work job hand).crashed = false) :
    (crew.work job hand).Sound := by
  have hstays (hand : Hand) {s : System} (hhand : hand.Proper)
      (h : s.scheduler.Staffed (hand.post :: crew.hands.map Hand.post) crew.books crew.settled) :
      Sound { crew with system := s, hands := crew.hands ++ [hand] } := by
    refine ⟨List.forall_mem_append.2 ⟨hproper, List.forall_mem_singleton.2 hhand⟩, h.perm ?_⟩
    rw [List.map_append]
    exact (List.perm_append_singleton _ _).symm
  cases hand with
  | driver k i =>
    refine sound_next hjob hproper ?_ (Action.onward_beginDriver k i crew.time crew.system)
    rw [join, List.filterMap_nil, List.append_nil]
    exact h
  | driving k i due rest =>
    obtain ⟨hs, hrest⟩ := Meets.run System.Unchanged.refl (fun _ _ _ _ => System.Unchanged.trans)
      (hhand crew.time crew.system) []
    rw [work] at hcrash ⊢
    generalize rest.run crew.time crew.system [] = ending at hs hrest hcrash ⊢
    obtain ⟨progress, s, started⟩ := ending
    obtain rfl : s = crew.system := hs
    cases progress with
    | waiting rest => exact hstays (.driving k i due rest) hrest h
    | finished _ => exact sound_proceed hjob hproper h due
    | crashed => exact ⟨hproper, h.leave⟩
  | running k i rest =>
    obtain ⟨hs, hrest⟩ := Meets.run System.Unscheduled.refl
      (fun _ _ _ _ => System.Unscheduled.trans) (hhand crew.time crew.system) []
    rw [work] at hcrash ⊢
    generalize rest.run crew.time crew.system [] = ending at hs hrest hcrash ⊢
    obtain ⟨progress, s, started⟩ := ending
    have hs : s.scheduler = crew.system.scheduler := hs
    rw [← hs] at h
    cases progress with
    | waiting rest => exact hstays (.running k i rest) hrest h
    | finished outcome => exact sound_conclude { crew with system := s } hproper h outcome
    | crashed => cases hcrash
  | stopping k =>
    rw [work] at hcrash ⊢
    dsimp only
    split_ifs with hover
    · exact ⟨hproper, h.settle hover⟩
    · exact hstays (.stopping k) hhand h

end

/-! ## Moves -/

section

theorem crashed_next (crew : Crew) (k : Nat)
    (ending : Progress System Process (Option Process) × System × List Process) :
    (crew.next job k ending).crashed = crew.crashed := by
  obtain ⟨progress, s, started⟩ := ending
  cases progress with
  | finished process => cases process <;> rfl
  | crashed | waiting _ => rfl

/-- A crash is not forgotten. -/
theorem crashed_work (crew : Crew) (h : (crew.work job hand).crashed = false) :
    crew.crashed = false := by
  cases hand with
  | driver k i =>
    rw [work, crashed_next] at h
    exact h
  | driving k i due rest =>
    rw [work] at h
    split at h
    · exact h
    · rw [proceed, crashed_next] at h
      exact h
    · exact h
  | running k i rest =>
    rw [work] at h
    split at h
    · exact h
    · exact h
    · cases h
  | stopping k =>
    rw [work] at h
    split at h <;> exact h

theorem crashed_after {move : Move} (h : (crew.after job move).crashed = false) :
    crew.crashed = false := by
  cases move with
  | tick _ | other _ _ | start _ => exact h
  | stop =>
    rw [after] at h
    split at h <;> exact h
  | resume n =>
    rw [after] at h
    split at h
    · next hand _ => exact crashed_work { crew with hands := crew.hands.eraseIdx n } h
    · exact h

theorem crashed_afterAll {moves : List Move} (h : (crew.afterAll job moves).crashed = false) :
    crew.crashed = false := by
  induction moves generalizing crew with
  | nil => exact h
  | cons move moves ih => exact crashed_after (ih h)

end

section

variable (hjob : ∀ task t s, Meets System.Unscheduled (fun _ _ _ => True) (job task) t s)
include hjob

/-- The drivers of a start. -/
theorem sound_join_drivers (h : crew.Sound) {linked : Bool} {now : Instant}
    {scheduler : Scheduler} (hstart : crew.system.scheduler.start linked now = .ok scheduler) :
    (join job { crew with system := { crew.system with scheduler } }
      ((List.range scheduler.tasks.length).map (.driver (scheduler.shifts.length - 1)))).Sound := by
  refine ⟨proper_join hjob { crew with system := _ } h.proper _, ?_⟩
  have hdrivers : ((List.range scheduler.tasks.length).map
      (Process.driver (scheduler.shifts.length - 1))).filterMap (Hand.ofProcess? job) =
      (List.range scheduler.tasks.length).map (.driver (scheduler.shifts.length - 1)) := by
    rw [List.filterMap_map, ← List.filterMap_eq_map]
    rfl
  obtain ⟨htasks, hshifts⟩ := Scheduler.tasks_and_shifts_of_start hstart
  rw [join, hdrivers, List.map_append, List.map_map, htasks, hshifts, Nat.add_sub_cancel]
  exact h.staffed.start hstart

/-- **Each move** keeps the books balanced and the posts in order, unless a job crashes. -/
theorem Sound.after (h : crew.Sound) {move : Move}
    (hcrash : (crew.after job move).crashed = false) : (crew.after job move).Sound := by
  cases move with
  | tick ms => exact ⟨h.proper, h.staffed⟩
  | other change leaves => exact ⟨h.proper, (leaves crew.system).symm ▸ h.staffed⟩
  | start linked =>
    have hnobody : (crew.join job []).Sound := by
      rw [join, List.filterMap_nil, List.append_nil]
      exact h
    rw [Crew.after, Action.run_startScheduler]
    split_ifs
    · exact hnobody
    · cases crew.system.moment? crew.time with
      | none => exact hnobody
      | some now =>
        dsimp only
        cases hstart : crew.system.scheduler.start linked now with
        | error e => exact hnobody
        | ok scheduler => exact sound_join_drivers hjob h hstart
  | stop =>
    rw [Crew.after, Action.run_haltScheduler]
    cases hstop : crew.system.scheduler.stop with
    | error e => exact ⟨h.proper, h.staffed⟩
    | ok stopped =>
      refine ⟨List.forall_mem_append.2 ⟨h.proper, List.forall_mem_singleton.2 trivial⟩, ?_⟩
      rw [List.map_append]
      exact h.staffed.stop hstop
  | resume n =>
    rw [Crew.after] at hcrash ⊢
    cases hhand : crew.hands[n]? with
    | none => exact ⟨h.proper, h.staffed⟩
    | some hand =>
      rw [hhand] at hcrash
      have hmem : hand ∈ crew.hands := List.mem_of_getElem? hhand
      have hperm : crew.hands.Perm (hand :: crew.hands.eraseIdx n) := by
        obtain ⟨hn, rfl⟩ := List.getElem?_eq_some_iff.1 hhand
        exact (List.getElem_cons_eraseIdx_perm hn).symm
      refine sound_work hjob (fun hand' hhand' => h.proper hand' (List.mem_of_mem_eraseIdx hhand'))
        (h.proper hand hmem) ?_ hcrash
      exact h.staffed.perm (hperm.map Hand.post)

end

/-! ## What tasks show -/

/-- What the tasks show, and who is at work. -/
structure Accounted (crew : Crew) : Prop where
  balanced (i : Nat) (task : Task) : crew.system.scheduler.tasks[i]? = some task →
    task.Balanced crew.system.scheduler.timeout (crew.books i)
      (crew.hands.countP fun hand => hand.post.isRunOf i)
  watched (hand : Hand) (k : Nat) : hand ∈ crew.hands → hand.post.isIn k = true →
    (crew.system.scheduler.isRunning = true ∧ k + 1 = crew.system.scheduler.shifts.length) ∨
      .stopping k ∈ crew.hands

theorem Sound.accounted (h : crew.Sound) : crew.Accounted where
  balanced i task htask := by
    have hbalanced := h.staffed.balanced i task htask
    rwa [List.countP_map] at hbalanced
  watched hand k hhand hin :=
    (h.staffed.watched (List.mem_map_of_mem hhand) hin).imp_right
      Hand.mem_map_post_call_iff.1

/-! ## Any moves -/

theorem afterAll_append (crew : Crew) (moves more : List Move) :
    crew.afterAll job (moves ++ more) = (crew.afterAll job moves).afterAll job more :=
  List.foldl_append

theorem Sound.afterAll
    (hjob : ∀ task t s, Meets System.Unscheduled (fun _ _ _ => True) (job task) t s)
    (h : crew.Sound) {moves : List Move} (hcrash : (crew.afterAll job moves).crashed = false) :
    (crew.afterAll job moves).Sound := by
  induction moves generalizing crew with
  | nil => exact h
  | cons move moves ih => exact ih (h.after hjob (crashed_afterAll hcrash)) hcrash

end Crew

end Pulse
