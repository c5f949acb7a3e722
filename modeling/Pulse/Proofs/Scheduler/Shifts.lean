import Mathlib.Data.List.Perm.Basic
import Mathlib.Logic.Function.Basic
import Mathlib.Order.Nat
import Pulse.Proofs.Scheduler.Book

/-!
# Shifts and who is at work

Who is at work for a scheduler, or waits for it, holds a `Post`: a driver, a run, or a call that
waits for the end of a shift.  `Scheduler.Staffed` says how the posts, the books of the tasks and
the state of the scheduler belong together, and each thing that happens to a scheduler has a lemma
that says that they still do: `Staffed.fire`, `Staffed.finish`, `Staffed.start` and so on.

* `Staffed.watched` — whoever is at work is in the last shift, or somebody waits for its end.
* `Staffed.posts_eq_nil` — once everybody has been waited for, nobody is at work.
-/

set_option autoImplicit false

namespace Pulse

open Time (Instant)

/-- The place of somebody who is at work for a scheduler or waits for it. -/
inductive Post where
  | driver (shift task : Nat)
  | run (shift task : Nat)
  /-- A call that waits for the end of a shift. -/
  | call (shift : Nat)
deriving DecidableEq

namespace Post

/-- The post is at work in a shift. -/
def isIn (k : Nat) : Post → Bool
  | driver shift _ | run shift _ => shift = k
  | call _ => false

/-- The post is a run of a task. -/
def isRunOf (i : Nat) : Post → Bool
  | run _ task => task = i
  | _ => false

end Post

namespace Scheduler

variable {scheduler scheduler' : Scheduler} {posts : List Post} {books : Nat → Book}
  {settled : List Nat} {i j k n : Nat} {task : Task} {shift : Shift} {now : Instant}

/-! ## The scheduler -/

theorem task_of_update {change : Task → Task}
    (h : (scheduler.update i change).tasks[j]? = some task) :
    ∃ old, scheduler.tasks[j]? = some old ∧ task = if i = j then change old else old := by
  rw [update, List.getElem?_modify] at h
  obtain ⟨old, hold, rfl⟩ := Option.map_eq_some_iff.1 h
  exact ⟨old, hold, rfl⟩

theorem shift_of_updateShift {change : Shift → Shift}
    (h : (scheduler.updateShift k change).shifts[n]? = some shift) :
    ∃ old, scheduler.shifts[n]? = some old ∧ shift = if k = n then change old else old := by
  rw [updateShift, List.getElem?_modify] at h
  obtain ⟨old, hold, rfl⟩ := Option.map_eq_some_iff.1 h
  exact ⟨old, hold, rfl⟩

theorem length_updateShift (scheduler : Scheduler) (k : Nat) (change : Shift → Shift) :
    (scheduler.updateShift k change).shifts.length = scheduler.shifts.length :=
  List.length_modify ..

theorem shift_of_append {shifts : List Shift} {new : Shift}
    (h : (shifts ++ [new])[n]? = some shift) :
    shifts[n]? = some shift ∨ (n = shifts.length ∧ shift = new) := by
  rw [List.getElem?_append] at h
  split_ifs at h with hn
  · exact .inl h
  · obtain ⟨hzero, hnew⟩ := List.getElem?_eq_some_iff.1 h
    have hlength : n - shifts.length = 0 := Nat.lt_one_iff.1 hzero
    refine .inr ⟨by omega, ?_⟩
    simpa [hlength] using hnew.symm

theorem tasks_and_shifts_of_start {linked : Bool}
    (h : scheduler.start linked now = .ok scheduler') :
    scheduler'.tasks = scheduler.tasks ∧
      scheduler'.shifts.length = scheduler.shifts.length + 1 := by
  rw [start] at h
  split_ifs at h
  cases h
  exact ⟨rfl, List.length_append⟩

theorem tasks_of_stop (h : scheduler.stop = .ok (n, scheduler')) :
    scheduler'.tasks = scheduler.tasks := by
  rw [stop] at h
  split_ifs at h
  cases h
  rfl

/-! ### Fires -/

/-- The task is there and runs. -/
def runs (scheduler : Scheduler) (i : Nat) : Bool :=
  scheduler.tasks[i]?.any fun task => task.status = .running

theorem fire_of_none (h : scheduler.tasks[i]? = none) :
    scheduler.fire k i now = (false, scheduler) := by
  rw [fire, h]

theorem fire_of_running (h : scheduler.tasks[i]? = some task) (hrunning : task.status = .running) :
    scheduler.fire k i now = (false, scheduler.update i fun _ =>
      { task with skippedCount := task.skippedCount + 1 }) := by
  simp only [fire, h, Task.begin, hrunning, if_true, Bool.false_eq_true, if_false]

theorem fire_of_idle (h : scheduler.tasks[i]? = some task) (hidle : task.status ≠ .running) :
    scheduler.fire k i now = (true, (scheduler.update i fun _ =>
      { task with status := .running, lastRun := some now }).beginProcess k) := by
  simp only [fire, h, Task.begin, hidle, if_true, if_false]

theorem reports_runError (scheduler : Scheduler) (outcome : Option (Except String Unit)) :
    Book.Reports scheduler.timeout outcome (scheduler.runError outcome) := by
  rcases outcome with _ | e | _
  · exact .timedOut
  · exact .failure e
  · exact .success

/-! ### What only calls change -/

/-- Whether the drivers run and how often they were started stays as it is. -/
structure Steady (before after : Scheduler) : Prop where
  startedAt : after.startedAt = before.startedAt
  length_shifts : after.shifts.length = before.shifts.length

namespace Steady

theorem refl (scheduler : Scheduler) : scheduler.Steady scheduler := ⟨rfl, rfl⟩

theorem trans {scheduler'' : Scheduler} (h : scheduler.Steady scheduler')
    (h' : scheduler'.Steady scheduler'') : scheduler.Steady scheduler'' :=
  ⟨h'.startedAt.trans h.startedAt, h'.length_shifts.trans h.length_shifts⟩

end Steady

/-- A shift was told to stop. -/
def Told (scheduler : Scheduler) (k : Nat) : Prop :=
  ∃ shift, scheduler.shifts[k]? = some shift ∧ shift.stopping = true

theorem Told.lt (h : scheduler.Told n) : n < scheduler.shifts.length := by
  obtain ⟨shift, hshift, -⟩ := h
  exact (List.getElem?_eq_some_iff.1 hshift).1

theorem told_updateShift {change : Shift → Shift}
    (hchange : ∀ shift, (change shift).stopping = shift.stopping) :
    (scheduler.updateShift k change).Told n ↔ scheduler.Told n := by
  constructor
  · rintro ⟨shift, hshift, hstopping⟩
    obtain ⟨old, hold, rfl⟩ := shift_of_updateShift hshift
    refine ⟨old, hold, ?_⟩
    split_ifs at hstopping
    · rwa [hchange] at hstopping
    · exact hstopping
  · rintro ⟨shift, hshift, hstopping⟩
    refine ⟨if k = n then change shift else shift, ?_, ?_⟩
    · rw [updateShift, List.getElem?_modify, hshift]
      rfl
    · split_ifs
      · rw [hchange, hstopping]
      · exact hstopping

theorem told_endProcess : (scheduler.endProcess k).Told n ↔ scheduler.Told n :=
  told_updateShift fun _ => rfl

theorem told_beginProcess : (scheduler.beginProcess k).Told n ↔ scheduler.Told n :=
  told_updateShift fun _ => rfl

theorem told_updateShift_stopping (hk : k < scheduler.shifts.length) :
    (scheduler.updateShift k fun shift => { shift with stopping := true }).Told n ↔
      n = k ∨ scheduler.Told n := by
  constructor
  · rintro ⟨shift, hshift, hstopping⟩
    obtain ⟨old, hold, rfl⟩ := shift_of_updateShift hshift
    split_ifs at hstopping with heq
    · exact .inl heq.symm
    · exact .inr ⟨old, hold, hstopping⟩
  · intro hn
    have hlt : n < scheduler.shifts.length := by
      rcases hn with rfl | hn
      · exact hk
      · exact hn.lt
    refine ⟨_, (List.getElem?_modify ..).trans (congrArg _ (List.getElem?_eq_getElem hlt)), ?_⟩
    rcases hn with rfl | ⟨shift, hshift, hstopping⟩
    · show (if n = n then _ else _ : Shift).stopping = true
      rw [if_pos rfl]
    · show (if k = n then _ else _ : Shift).stopping = true
      rw [(List.getElem?_eq_some_iff.1 hshift).2]
      split_ifs
      · rfl
      · exact hstopping

/-- The shift of a start has not been told to stop. -/
theorem told_start {linked : Bool} (h : scheduler.start linked now = .ok scheduler') :
    scheduler'.Told n ↔ scheduler.Told n := by
  rw [start] at h
  split_ifs at h
  cases h
  constructor
  · rintro ⟨shift, hshift, hstopping⟩
    rcases shift_of_append hshift with hold | ⟨-, rfl⟩
    · exact ⟨shift, hold, hstopping⟩
    · cases hstopping
  · intro hn
    have hlt : n < scheduler.shifts.length := hn.lt
    obtain ⟨shift, hshift, hstopping⟩ := hn
    exact ⟨shift, (List.getElem?_append_left hlt).trans hshift, hstopping⟩

/-! ## Posts, books and the scheduler -/

theorem countP_isRunOf_drivers (n i m : Nat) :
    ((List.range m).map (Post.driver n)).countP (Post.isRunOf i) = 0 := by
  rw [List.countP_map]
  exact List.countP_eq_zero.2 fun _ _ => Bool.false_ne_true

theorem countP_isIn_drivers (n k m : Nat) :
    ((List.range m).map (Post.driver n)).countP (Post.isIn k) = if n = k then m else 0 := by
  rw [List.countP_map]
  split_ifs with heq
  · have hall : ∀ i ∈ List.range m, (Post.isIn k ∘ Post.driver n) i = true :=
      fun _ _ => decide_eq_true heq
    rw [List.countP_eq_length.2 hall, List.length_range]
  · exact List.countP_eq_zero.2 fun _ _ hin => heq (of_decide_eq_true hin)

/-- Posts, books and the state of the scheduler belong together. -/
structure Staffed (scheduler : Scheduler) (posts : List Post) (books : Nat → Book)
    (settled : List Nat) : Prop where
  balanced (i : Nat) (task : Task) : scheduler.tasks[i]? = some task →
    task.Balanced scheduler.timeout (books i) (posts.countP (Post.isRunOf i))
  alive (k : Nat) (shift : Shift) : scheduler.shifts[k]? = some shift →
    shift.alive = posts.countP (Post.isIn k)
  present (post : Post) (k : Nat) : post ∈ posts → post.isIn k = true →
    k < scheduler.shifts.length
  /-- Whoever waits for the end of a shift has told it to stop. -/
  called (k : Nat) : .call k ∈ posts → scheduler.Told k
  running : scheduler.isRunning = true →
    0 < scheduler.shifts.length ∧ ¬ scheduler.Told (scheduler.shifts.length - 1)
  /-- Of all shifts, only the last one may not have been told to stop. -/
  told (k : Nat) : k < scheduler.shifts.length → ¬ scheduler.Told k →
    scheduler.isRunning = true ∧ k + 1 = scheduler.shifts.length
  /-- If a shift was told to stop, somebody waits for its end or has done so. -/
  awaited (k : Nat) : scheduler.Told k → .call k ∈ posts ∨ k ∈ settled
  /-- Nobody is at work in a shift whose end was waited for. -/
  ended (k : Nat) : k ∈ settled → scheduler.Told k ∧ posts.countP (Post.isIn k) = 0
  /-- There are fires to come only until the end of the last shift was waited for. -/
  nextRun (i : Nat) (task : Task) : scheduler.tasks[i]? = some task → task.nextRun ≠ none →
    scheduler.isRunning = true ∨ ∃ k, .call k ∈ posts

namespace Staffed

theorem perm {posts' : List Post} (h : scheduler.Staffed posts books settled)
    (hperm : posts.Perm posts') : scheduler.Staffed posts' books settled where
  balanced i task htask := hperm.countP_eq (Post.isRunOf i) ▸ h.balanced i task htask
  alive k shift hshift := hperm.countP_eq (Post.isIn k) ▸ h.alive k shift hshift
  present post k hpost := h.present post k (hperm.mem_iff.2 hpost)
  called k hcall := h.called k (hperm.mem_iff.2 hcall)
  running := h.running
  told := h.told
  awaited k hk := (h.awaited k hk).imp_left hperm.mem_iff.1
  ended k hk := hperm.countP_eq (Post.isIn k) ▸ h.ended k hk
  nextRun i task htask hnext := (h.nextRun i task htask hnext).imp_right
    fun ⟨k, hk⟩ => ⟨k, hperm.mem_iff.1 hk⟩

/-- Whoever is at work is in the last shift, or somebody waits for the end of the shift. -/
theorem watched (h : scheduler.Staffed posts books settled) {post : Post} (hpost : post ∈ posts)
    (hin : post.isIn k = true) :
    (scheduler.isRunning = true ∧ k + 1 = scheduler.shifts.length) ∨ .call k ∈ posts := by
  by_cases htold : scheduler.Told k
  · refine .inr ((h.awaited k htold).resolve_right fun hk => ?_)
    exact List.countP_eq_zero.1 (h.ended k hk).2 post hpost hin
  · exact .inl (h.told k (h.present post k hpost hin) htold)

/-! ### Drivers and runs -/

/-- As long as there is a driver, the scheduler has not come to rest. -/
theorem watched_of_driver (h : scheduler.Staffed (.driver k j :: posts) books settled) :
    scheduler.isRunning = true ∨ ∃ n, .call n ∈ Post.driver k j :: posts :=
  (h.watched List.mem_cons_self (decide_eq_true rfl)).imp And.left fun hcall => ⟨k, hcall⟩

/-- A driver sets the next fire of a task. -/
theorem setNextRun (h : scheduler.Staffed (.driver k j :: posts) books settled) (i : Nat)
    (next : Option Instant) :
    (scheduler.update i fun task => { task with nextRun := next }).Staffed
      (.driver k j :: posts) books settled where
  __ := h
  balanced n task htask := by
    obtain ⟨old, hold, rfl⟩ := task_of_update htask
    have hbalanced := h.balanced n old hold
    split_ifs
    · exact hbalanced.withNextRun next
    · exact hbalanced
  nextRun _ _ _ _ := h.watched_of_driver

/-- Somebody ends, after changing tasks and books as they are balanced then. -/
theorem depart {post : Post} {tasks : List Task} {books' : Nat → Book}
    (h : scheduler.Staffed (post :: posts) books settled)
    (hpost : ∀ n, post.isIn n = decide (k = n))
    (hbalanced : ∀ (i : Nat) (task : Task), tasks[i]? = some task →
      task.Balanced scheduler.timeout (books' i) (posts.countP (Post.isRunOf i)))
    (hnext : ∀ (i : Nat) (task : Task), tasks[i]? = some task →
      ∃ old, scheduler.tasks[i]? = some old ∧ task.nextRun = old.nextRun) :
    (endProcess { scheduler with tasks } k).Staffed posts books' settled := by
  have htold (n : Nat) : (endProcess { scheduler with tasks } k).Told n ↔ scheduler.Told n :=
    told_endProcess
  have hlength : (endProcess { scheduler with tasks } k).shifts.length =
      scheduler.shifts.length := length_updateShift ..
  have hcall {n : Nat} : Post.call n ∈ post :: posts → Post.call n ∈ posts := by
    intro hmem
    refine (List.mem_cons.1 hmem).resolve_left ?_
    rintro rfl
    simpa [Post.isIn] using hpost k
  exact {
    balanced := hbalanced
    alive := fun n shift hshift => by
      obtain ⟨old, hold, rfl⟩ := shift_of_updateShift hshift
      have halive := h.alive n old hold
      rw [List.countP_cons, hpost] at halive
      split_ifs with heq
      · simp [halive, heq]
      · simpa [heq] using halive
    present := fun p n hp hin => by
      rw [hlength]
      exact h.present p n (List.mem_cons_of_mem post hp) hin
    called := fun n hn => (htold n).2 (h.called n (List.mem_cons_of_mem post hn))
    running := fun hrunning => by
      rw [hlength, htold]
      exact h.running hrunning
    told := fun n hn hnot => by
      rw [hlength] at hn ⊢
      exact h.told n hn (mt (htold n).2 hnot)
    awaited := fun n hn => (h.awaited n ((htold n).1 hn)).imp_left hcall
    ended := fun n hn => by
      obtain ⟨hn, hcount⟩ := h.ended n hn
      rw [List.countP_cons] at hcount
      exact ⟨(htold n).2 hn, Nat.eq_zero_of_add_eq_zero_right hcount⟩
    nextRun := fun i task htask hne => by
      obtain ⟨old, hold, heq⟩ := hnext i task htask
      exact (h.nextRun i old hold (heq ▸ hne)).imp_right fun ⟨n, hn⟩ => ⟨n, hcall hn⟩ }

/-- A driver ends. -/
theorem leave (h : scheduler.Staffed (.driver k i :: posts) books settled) :
    (scheduler.endProcess k).Staffed posts books settled :=
  h.depart (fun _ => rfl) h.balanced fun _ task htask => ⟨task, htask, rfl⟩

/-- A run ends. -/
theorem finish (h : scheduler.Staffed (.run k i :: posts) books settled)
    (outcome : Option (Except String Unit)) :
    ((scheduler.update i fun task => task.finish (scheduler.runError outcome)).endProcess k).Staffed
      posts (Function.update books i ((books i).finish outcome)) settled := by
  refine h.depart (fun _ => rfl) (fun j task htask => ?_) fun j task htask => ?_
  · obtain ⟨old, hold, rfl⟩ := task_of_update htask
    have hbalanced := h.balanced j old hold
    rw [List.countP_cons] at hbalanced
    split_ifs with heq
    · subst heq
      rw [Function.update_self]
      simp only [Post.isRunOf, decide_true, if_true] at hbalanced
      exact hbalanced.finish (scheduler.reports_runError outcome)
    · rw [Function.update_of_ne (Ne.symm heq)]
      simpa [Post.isRunOf, heq] using hbalanced
  · obtain ⟨old, hold, rfl⟩ := task_of_update htask
    refine ⟨old, hold, ?_⟩
    split_ifs <;> rfl

/-! ### Fires -/

/-- A fire that is skipped. -/
theorem skip (h : scheduler.Staffed (.driver k j :: posts) books settled)
    (htask : scheduler.tasks[i]? = some task) :
    (scheduler.update i fun _ => { task with skippedCount := task.skippedCount + 1 }).Staffed
      (.driver k j :: posts) (Function.update books i ((books i).fire true)) settled where
  __ := h
  balanced n task' htask' := by
    obtain ⟨old, hold, rfl⟩ := task_of_update htask'
    split_ifs with heq
    · subst heq
      rw [Function.update_self]
      exact (h.balanced i task htask).skip
    · rw [Function.update_of_ne (Ne.symm heq)]
      exact h.balanced n old hold
  nextRun _ _ _ _ := h.watched_of_driver

/-- A fire that begins a run. -/
theorem begin (h : scheduler.Staffed (.driver k j :: posts) books settled)
    (htask : scheduler.tasks[i]? = some task) (hidle : task.status ≠ .running) (now : Instant) :
    ((scheduler.update i fun _ =>
        { task with status := .running, lastRun := some now }).beginProcess k).Staffed
      (.run k i :: .driver k j :: posts)
      (Function.update books i (((books i).fire false).begin now)) settled := by
  generalize hbegun : scheduler.update i _ = begun
  have hshifts : begun.shifts = scheduler.shifts := hbegun ▸ rfl
  have hrunning : (begun.beginProcess k).isRunning = scheduler.isRunning := hbegun ▸ rfl
  have htold (n : Nat) : (begun.beginProcess k).Told n ↔ scheduler.Told n := by
    rw [told_beginProcess, Told, hshifts, Told]
  have hlength : (begun.beginProcess k).shifts.length = scheduler.shifts.length := by
    rw [beginProcess, length_updateShift, hshifts]
  have hin : (Post.driver k j).isIn k = true := decide_eq_true rfl
  have hcall {n : Nat} : Post.call n ∈ Post.run k i :: .driver k j :: posts ↔
      Post.call n ∈ Post.driver k j :: posts := by simp
  exact {
    balanced := fun n task' htask' => by
      subst hbegun
      obtain ⟨old, hold, rfl⟩ := task_of_update htask'
      have hbalanced := h.balanced n old hold
      rw [List.countP_cons]
      split_ifs with heq hrun hrun
      · subst heq
        rw [Function.update_self]
        exact (h.balanced i task htask).start hidle now
      · exact absurd (decide_eq_true heq) hrun
      · exact absurd (of_decide_eq_true hrun) heq
      · rw [Function.update_of_ne (Ne.symm heq)]
        exact hbalanced
    alive := fun n shift hshift => by
      obtain ⟨old, hold, rfl⟩ := shift_of_updateShift hshift
      rw [hshifts] at hold
      have halive := h.alive n old hold
      rw [List.countP_cons, ← halive]
      by_cases heq : k = n <;> simp [Post.isIn, heq]
    present := fun post n hpost hn => by
      rw [hlength]
      rcases List.mem_cons.1 hpost with rfl | hpost
      · obtain rfl : k = n := of_decide_eq_true hn
        exact h.present _ k List.mem_cons_self hin
      · exact h.present post n hpost hn
    called := fun n hn => (htold n).2 (h.called n (hcall.1 hn))
    running := fun hrun => by
      rw [hlength, htold]
      exact h.running (hrunning ▸ hrun)
    told := fun n hn hnot => by
      rw [hlength] at hn ⊢
      rw [hrunning]
      exact h.told n hn (mt (htold n).2 hnot)
    awaited := fun n hn => (h.awaited n ((htold n).1 hn)).imp_left hcall.2
    ended := fun n hn => by
      obtain ⟨hn, hcount⟩ := h.ended n hn
      refine ⟨(htold n).2 hn, ?_⟩
      have hne : k ≠ n := by
        rintro rfl
        exact List.countP_eq_zero.1 hcount _ List.mem_cons_self hin
      rw [List.countP_cons, hcount]
      simp [Post.isIn, hne]
    nextRun := fun _ _ _ _ => by
      rw [hrunning]
      exact h.watched_of_driver.imp_right fun ⟨n, hn⟩ => ⟨n, hcall.2 hn⟩ }

/-- **A fire** begins a run or is skipped. -/
theorem fire (h : scheduler.Staffed (.driver k i :: posts) books settled) (now : Instant) :
    (scheduler.fire k i now).2.Staffed
      ((if (scheduler.fire k i now).1 then [.run k i] else []) ++ .driver k i :: posts)
      (Function.update books i (if (scheduler.fire k i now).1
        then ((books i).fire (scheduler.runs i)).begin now
        else (books i).fire (scheduler.runs i))) settled := by
  cases htask : scheduler.tasks[i]? with
  | none =>
    rw [fire_of_none htask]
    exact { h with
      balanced := fun n task hn => by
        have hne : n ≠ i := by
          rintro rfl
          rw [htask] at hn
          cases hn
        rw [Function.update_of_ne hne]
        exact h.balanced n task hn }
  | some task =>
    by_cases hrunning : task.status = .running
    · have hruns : scheduler.runs i = true := by
        rw [runs, htask]
        exact decide_eq_true hrunning
      rw [fire_of_running htask hrunning, hruns]
      exact h.skip htask
    · have hruns : scheduler.runs i = false := by
        rw [runs, htask]
        exact decide_eq_false hrunning
      rw [fire_of_idle htask hrunning, hruns]
      exact h.begin htask hrunning now

/-! ### Starting and stopping -/

/-- While the scheduler is not running, all shifts have been told to stop. -/
theorem told_of_not_isRunning (h : scheduler.Staffed posts books settled)
    (hidle : scheduler.isRunning = false) (hk : k < scheduler.shifts.length) :
    scheduler.Told k := by
  by_contra hnot
  have hrunning := (h.told k hk hnot).1
  rw [hidle] at hrunning
  cases hrunning

/-- A start adds a shift with a driver for each task. -/
theorem start (h : scheduler.Staffed posts books settled) {linked : Bool}
    (hstart : scheduler.start linked now = .ok scheduler') :
    scheduler'.Staffed
      (posts ++ (List.range scheduler.tasks.length).map (.driver scheduler.shifts.length))
      books settled := by
  have htold {n : Nat} : scheduler'.Told n ↔ scheduler.Told n := told_start hstart
  rw [Scheduler.start] at hstart
  split_ifs at hstart with hidle
  cases hstart
  rw [Bool.not_eq_true] at hidle
  generalize hnew : ({ linked, alive := scheduler.tasks.length } : Shift) = new at htold ⊢
  have hcall {n : Nat} (hn : Post.call n ∈ posts ++
      (List.range scheduler.tasks.length).map (.driver scheduler.shifts.length)) :
      Post.call n ∈ posts := by
    simpa using hn
  have hlength : (scheduler.shifts ++ [new]).length = scheduler.shifts.length + 1 :=
    List.length_append
  exact {
    balanced := fun i task htask => by
      rw [List.countP_append, countP_isRunOf_drivers]
      exact h.balanced i task htask
    alive := fun n shift hshift => by
      rw [List.countP_append, countP_isIn_drivers]
      rcases shift_of_append hshift with hold | ⟨rfl, rfl⟩
      · have hn := (List.getElem?_eq_some_iff.1 hold).1
        rw [if_neg hn.ne', ← h.alive n shift hold]
        rfl
      · have hnobody : posts.countP (Post.isIn scheduler.shifts.length) = 0 :=
          List.countP_eq_zero.2 fun post hpost hin => (h.present post _ hpost hin).ne rfl
        rw [if_pos rfl, hnobody, Nat.zero_add, ← hnew]
    present := fun post n hpost hin => by
      show n < (scheduler.shifts ++ [new]).length
      rw [hlength]
      rcases List.mem_append.1 hpost with hpost | hpost
      · exact (h.present post n hpost hin).trans (Nat.lt_succ_self _)
      · obtain ⟨i, -, rfl⟩ := List.mem_map.1 hpost
        rw [← of_decide_eq_true hin]
        exact Nat.lt_succ_self _
    called := fun n hn => htold.2 (h.called n (hcall hn))
    running := fun _ => by
      show 0 < (scheduler.shifts ++ [new]).length ∧ ¬ Told _ ((scheduler.shifts ++ [new]).length - 1)
      rw [hlength]
      exact ⟨Nat.succ_pos _, fun hlast => (htold.1 hlast).lt.ne rfl⟩
    told := fun n hn hnot => by
      refine ⟨rfl, ?_⟩
      have hn : n < (scheduler.shifts ++ [new]).length := hn
      show n + 1 = (scheduler.shifts ++ [new]).length
      rw [hlength] at hn ⊢
      by_contra hne
      exact hnot (htold.2 (h.told_of_not_isRunning hidle (by omega)))
    awaited := fun n hn =>
      (h.awaited n (htold.1 hn)).imp_left fun hcall => List.mem_append_left _ hcall
    ended := fun n hn => by
      obtain ⟨hn, hzero⟩ := h.ended n hn
      refine ⟨htold.2 hn, ?_⟩
      rw [List.countP_append, hzero, countP_isIn_drivers, if_neg hn.lt.ne']
    nextRun := fun _ _ _ _ => .inl rfl }

/-- A call that stops the drivers of the last shift waits for its end. -/
theorem stop (h : scheduler.Staffed posts books settled)
    (hstop : scheduler.stop = .ok (k, scheduler')) :
    scheduler'.Staffed (posts ++ [.call k]) books settled := by
  rw [Scheduler.stop] at hstop
  split_ifs at hstop with hrunning
  cases hstop
  obtain ⟨hpos, hnot⟩ := h.running hrunning
  have hlt : scheduler.shifts.length - 1 < scheduler.shifts.length := Nat.sub_lt hpos Nat.one_pos
  have hlast {n : Nat} (hn : n + 1 = scheduler.shifts.length) :
      n = scheduler.shifts.length - 1 := Nat.eq_sub_of_add_eq hn
  generalize scheduler.shifts.length - 1 = k at hnot hlt hlast ⊢
  have htold (n : Nat) : Told { scheduler.updateShift k
      (fun shift => { shift with stopping := true }) with startedAt := none } n ↔
      n = k ∨ scheduler.Told n := told_updateShift_stopping hlt
  have hcount (p : Post → Bool) (hp : p (.call k) = false) :
      (posts ++ [Post.call k]).countP p = posts.countP p := by
    simp [List.countP_append, hp]
  have hlength := length_updateShift scheduler k fun shift => { shift with stopping := true }
  have hmem : Post.call k ∈ posts ++ [.call k] := List.mem_append_right _ List.mem_cons_self
  exact {
    balanced := fun i task htask => by
      rw [hcount _ rfl]
      exact h.balanced i task htask
    alive := fun n shift hshift => by
      obtain ⟨old, hold, rfl⟩ := shift_of_updateShift hshift
      rw [hcount _ rfl, ← h.alive n old hold]
      split_ifs <;> rfl
    present := fun post n hpost hin => by
      refine Nat.lt_of_lt_of_eq (h.present post n ?_ hin) hlength.symm
      refine (List.mem_append.1 hpost).resolve_right fun hcall => ?_
      rw [List.mem_singleton.1 hcall] at hin
      cases hin
    called := fun n hn => by
      rw [htold]
      rcases List.mem_append.1 hn with hn | hn
      · exact .inr (h.called n hn)
      · cases List.mem_singleton.1 hn
        exact .inl rfl
    running := fun hrun => nomatch hrun
    told := fun n hn hnot' => by
      rw [htold, not_or] at hnot'
      have hn : n < scheduler.shifts.length := Nat.lt_of_lt_of_eq hn hlength
      exact absurd (hlast (h.told n hn hnot'.2).2) hnot'.1
    awaited := fun n hn => by
      rcases (htold n).1 hn with rfl | hn
      · exact .inl hmem
      · exact (h.awaited n hn).imp_left fun hcall => List.mem_append_left _ hcall
    ended := fun n hn => by
      obtain ⟨hn, hzero⟩ := h.ended n hn
      exact ⟨(htold n).2 (.inr hn), (hcount _ rfl).trans hzero⟩
    nextRun := fun _ _ _ _ => .inr ⟨k, hmem⟩ }

/-- A call returns when nobody is at work in its shift. -/
theorem settle (h : scheduler.Staffed (.call k :: posts) books settled)
    (hover : scheduler.isOver k = true) :
    scheduler.clearFires.Staffed posts books (settled ++ [k]) := by
  have hcount (n : Nat) : (Post.call k :: posts).countP (Post.isIn n) =
      posts.countP (Post.isIn n) := List.countP_cons_of_neg (by simp [Post.isIn])
  have htask {n : Nat} {task : Task} (hn : scheduler.clearFires.tasks[n]? = some task) :
      ∃ old, scheduler.tasks[n]? = some old ∧ task = { old with nextRun := none } := by
    rw [clearFires, List.getElem?_map] at hn
    obtain ⟨old, hold, rfl⟩ := Option.map_eq_some_iff.1 hn
    exact ⟨old, hold, rfl⟩
  have hdone : posts.countP (Post.isIn k) = 0 := by
    obtain ⟨shift, hshift, -⟩ := h.called k List.mem_cons_self
    rw [isOver, hshift] at hover
    rw [← hcount, ← h.alive k shift hshift]
    exact of_decide_eq_true hover
  exact {
    balanced := fun n task hn => by
      obtain ⟨old, hold, rfl⟩ := htask hn
      exact (h.balanced n old hold).withNextRun none
    alive := fun n shift hshift => (h.alive n shift hshift).trans (hcount n)
    present := fun post n hpost => h.present post n (List.mem_cons_of_mem _ hpost)
    called := fun n hn => h.called n (List.mem_cons_of_mem _ hn)
    running := h.running
    told := h.told
    awaited := fun n hn => by
      rcases h.awaited n hn with hcall | hsettled
      · rcases List.mem_cons.1 hcall with heq | hcall
        · cases heq
          exact .inr (List.mem_append_right _ List.mem_cons_self)
        · exact .inl hcall
      · exact .inr (List.mem_append_left _ hsettled)
    ended := fun n hn => by
      rcases List.mem_append.1 hn with hn | hn
      · obtain ⟨hn, hzero⟩ := h.ended n hn
        exact ⟨hn, (hcount n).symm.trans hzero⟩
      · obtain rfl := List.mem_singleton.1 hn
        exact ⟨h.called n List.mem_cons_self, hdone⟩
    nextRun := fun n task hn hne => by
      obtain ⟨old, hold, rfl⟩ := htask hn
      exact absurd rfl hne }

/-- **Once everybody has been waited for**, nobody is at work. -/
theorem posts_eq_nil (h : scheduler.Staffed posts books settled)
    (hidle : scheduler.isRunning = false) (hcalls : ∀ n, .call n ∉ posts) : posts = [] := by
  refine List.eq_nil_iff_forall_not_mem.2 fun post hpost => ?_
  have hnobody (n : Nat) (hin : post.isIn n = true) : False := by
    rcases h.watched hpost hin with ⟨hrunning, -⟩ | hcall
    · rw [hidle] at hrunning
      cases hrunning
    · exact hcalls n hcall
  cases post with
  | driver n i | run n i => exact hnobody n (decide_eq_true rfl)
  | call n => exact hcalls n hpost

/-- A scheduler that was never started. -/
theorem new (hshifts : scheduler.shifts = []) (hidle : scheduler.isRunning = false)
    (htasks : ∀ task ∈ scheduler.tasks,
      task.Balanced scheduler.timeout {} 0 ∧ task.nextRun = none) :
    scheduler.Staffed [] (fun _ => {}) [] := by
  have hnone (k : Nat) : ¬ scheduler.Told k := by
    rintro ⟨shift, hshift, -⟩
    rw [hshifts] at hshift
    cases hshift
  exact {
    balanced := fun i task htask => (htasks task (List.mem_of_getElem? htask)).1
    alive := fun k shift hshift => by
      rw [hshifts] at hshift
      cases hshift
    present := fun post k hpost => nomatch hpost
    called := fun k hcall => nomatch hcall
    running := fun hrunning => by
      rw [hidle] at hrunning
      cases hrunning
    told := fun k hk => by
      rw [hshifts] at hk
      exact absurd hk (Nat.not_lt_zero k)
    awaited := fun k hk => absurd hk (hnone k)
    ended := fun k hk => nomatch hk
    nextRun := fun i task htask hnext =>
      absurd (htasks task (List.mem_of_getElem? htask)).2 hnext }

end Staffed

end Scheduler

end Pulse
