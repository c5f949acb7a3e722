import Pulse.Proofs.Scheduler.Shifts

/-!
# Who is at work, jobs that crash included

The count of those at work in a shift is kept when a driver or a run ends, whatever the end is, and
so is the duty of a call to stop.  `Scheduler.Attended` is what `Scheduler.Staffed` says about
shifts and posts without the books of the tasks, so it also lasts when a job crashes.

* `Attended.leave`, `Attended.fire`, `Attended.start`, `Attended.stop`, `Attended.settle` — each
  thing that happens to a scheduler keeps this.
* `Attended.current` — whoever is at work in a shift that was not told to stop is in the last shift,
  and the scheduler is running.
-/

set_option autoImplicit false

namespace Pulse.Scheduler

open Time (Instant)

variable {scheduler scheduler' : Scheduler} {posts : List Post} {post : Post} {i k n : Nat}
  {shift : Shift} {now : Instant}

/-- Posts and shifts belong together. -/
structure Attended (scheduler : Scheduler) (posts : List Post) : Prop where
  alive (k : Nat) (shift : Shift) : scheduler.shifts[k]? = some shift →
    shift.alive = posts.countP (Post.isIn k)
  /-- Whoever is at work is in the last shift, or somebody waits for the end of the shift. -/
  watched (post : Post) (k : Nat) : post ∈ posts → post.isIn k = true →
    (scheduler.isRunning = true ∧ k + 1 = scheduler.shifts.length) ∨ .call k ∈ posts
  /-- Whoever waits for the end of a shift has told it to stop. -/
  called (k : Nat) : .call k ∈ posts → scheduler.Told k
  running : scheduler.isRunning = true →
    0 < scheduler.shifts.length ∧ ¬ scheduler.Told (scheduler.shifts.length - 1)

namespace Attended

theorem perm {posts' : List Post} (h : scheduler.Attended posts) (hperm : posts.Perm posts') :
    scheduler.Attended posts' where
  alive k shift hshift := hperm.countP_eq (Post.isIn k) ▸ h.alive k shift hshift
  watched post k hpost hin := (h.watched post k (hperm.mem_iff.2 hpost) hin).imp_right
    hperm.mem_iff.1
  called k hcall := h.called k (hperm.mem_iff.2 hcall)
  running := h.running

/-- Only shifts count, and whether the scheduler is running. -/
theorem congr (h : scheduler.Attended posts) (hshifts : scheduler'.shifts = scheduler.shifts)
    (hrunning : scheduler'.isRunning = scheduler.isRunning) : scheduler'.Attended posts where
  alive := hshifts ▸ h.alive
  watched := hshifts ▸ hrunning ▸ h.watched
  called k hcall := by simpa only [Told, hshifts] using h.called k hcall
  running := by simpa only [Told, hshifts, hrunning] using h.running

theorem present (h : scheduler.Attended posts) (hpost : post ∈ posts)
    (hin : post.isIn k = true) : k < scheduler.shifts.length := by
  rcases h.watched post k hpost hin with ⟨-, hlast⟩ | hcall
  · omega
  · exact (h.called k hcall).lt

/-- Whoever is at work in a shift that was not told to stop is in the last shift. -/
theorem current (h : scheduler.Attended posts) (hpost : post ∈ posts) (hin : post.isIn k = true)
    (htold : ¬ scheduler.Told k) :
    scheduler.isRunning = true ∧ k + 1 = scheduler.shifts.length :=
  (h.watched post k hpost hin).resolve_right fun hcall => htold (h.called k hcall)

/-! ### Drivers and runs -/

/-- A driver or a run ends. -/
theorem leave (h : scheduler.Attended (post :: posts)) (hpost : ∀ n, post.isIn n = decide (k = n)) :
    (scheduler.endProcess k).Attended posts := by
  have hlength : (scheduler.endProcess k).shifts.length = scheduler.shifts.length :=
    length_updateShift ..
  have hcall {n : Nat} (hmem : Post.call n ∈ post :: posts) : Post.call n ∈ posts := by
    refine (List.mem_cons.1 hmem).resolve_left ?_
    rintro rfl
    simpa [Post.isIn] using hpost k
  exact {
    alive := by
      intro n shift hshift
      obtain ⟨old, hold, rfl⟩ := shift_of_updateShift hshift
      have halive := h.alive n old hold
      rw [List.countP_cons, hpost] at halive
      split_ifs with heq <;> simp [halive, heq]
    watched := by
      intro other n hother hin
      rw [hlength]
      exact (h.watched other n (List.mem_cons_of_mem _ hother) hin).imp_right hcall
    called := fun n hn => told_endProcess.2 (h.called n (List.mem_cons_of_mem _ hn))
    running := by
      intro hrunning
      rw [hlength, told_endProcess]
      exact h.running hrunning }

/-- A driver begins a run, in its own shift. -/
theorem beginRun (h : scheduler.Attended (.driver k i :: posts)) :
    (scheduler.beginProcess k).Attended (.run k i :: .driver k i :: posts) := by
  have hlength : (scheduler.beginProcess k).shifts.length = scheduler.shifts.length :=
    length_updateShift ..
  have hcall {n : Nat} : Post.call n ∈ Post.run k i :: .driver k i :: posts ↔
      Post.call n ∈ Post.driver k i :: posts := by simp
  exact {
    alive := by
      intro n shift hshift
      obtain ⟨old, hold, rfl⟩ := shift_of_updateShift hshift
      rw [List.countP_cons, ← h.alive n old hold]
      by_cases heq : k = n <;> simp [Post.isIn, heq]
    watched := by
      intro other n hother hin
      rw [hlength, hcall]
      rcases List.mem_cons.1 hother with rfl | hother
      · exact h.watched (.driver k i) n List.mem_cons_self hin
      · exact h.watched other n hother hin
    called := fun n hn => told_beginProcess.2 (h.called n (hcall.1 hn))
    running := by
      intro hrunning
      rw [hlength, told_beginProcess]
      exact h.running hrunning }

/-- A fire begins a run or is skipped. -/
theorem fire (h : scheduler.Attended (.driver k i :: posts)) (now : Instant) :
    (scheduler.fire k i now).2.Attended
      ((if (scheduler.fire k i now).1 then [.run k i] else []) ++ .driver k i :: posts) := by
  cases htask : scheduler.tasks[i]? with
  | none =>
    rw [fire_of_none htask]
    exact h
  | some task =>
    by_cases hrunning : task.status = .running
    · rw [fire_of_running htask hrunning]
      exact h.congr rfl rfl
    · rw [fire_of_idle htask hrunning]
      have hset : (scheduler.update i fun _ =>
          { task with status := .running, lastRun := some now }).Attended (.driver k i :: posts) :=
        h.congr rfl rfl
      exact hset.beginRun

/-! ### Starting and stopping -/

/-- A start adds a shift with a driver for each task. -/
theorem start (h : scheduler.Attended posts) {linked : Bool}
    (hstart : scheduler.start linked now = .ok scheduler') :
    scheduler'.Attended
      (posts ++ (List.range scheduler.tasks.length).map (.driver scheduler.shifts.length)) := by
  have htold {n : Nat} : scheduler'.Told n ↔ scheduler.Told n := told_start hstart
  rw [Scheduler.start] at hstart
  split_ifs at hstart with hidle
  cases hstart
  generalize hnew : ({ linked, alive := scheduler.tasks.length } : Shift) = new at htold ⊢
  have hlength : (scheduler.shifts ++ [new]).length = scheduler.shifts.length + 1 :=
    List.length_append
  have hcall {n : Nat} (hn : Post.call n ∈ posts ++
      (List.range scheduler.tasks.length).map (.driver scheduler.shifts.length)) :
      Post.call n ∈ posts := by simpa using hn
  exact {
    alive := by
      intro n shift hshift
      rw [List.countP_append, countP_isIn_drivers]
      rcases shift_of_append hshift with hold | ⟨rfl, rfl⟩
      · have hn := (List.getElem?_eq_some_iff.1 hold).1
        rw [if_neg hn.ne', ← h.alive n shift hold]
        rfl
      · have hnobody : posts.countP (Post.isIn scheduler.shifts.length) = 0 :=
          List.countP_eq_zero.2 fun post hpost hin => (h.present hpost hin).ne rfl
        rw [if_pos rfl, hnobody, Nat.zero_add, ← hnew]
    watched := by
      intro post n hpost hin
      rcases List.mem_append.1 hpost with hpost | hpost
      · -- The scheduler was not running, so somebody waits for whoever was at work.
        refine .inr (List.mem_append_left _ ?_)
        exact (h.watched post n hpost hin).resolve_left fun hrunning => hidle hrunning.1
      · obtain ⟨i, -, rfl⟩ := List.mem_map.1 hpost
        refine .inl ⟨rfl, ?_⟩
        show n + 1 = (scheduler.shifts ++ [new]).length
        rw [hlength, ← of_decide_eq_true hin]
    called := fun n hn => htold.2 (h.called n (hcall hn))
    running := by
      intro _
      show 0 < (scheduler.shifts ++ [new]).length ∧ ¬ Told _ ((scheduler.shifts ++ [new]).length - 1)
      rw [hlength]
      exact ⟨Nat.succ_pos _, fun hlast => (htold.1 hlast).lt.ne rfl⟩ }

/-- A call that stops the drivers of the last shift waits for its end. -/
theorem stop (h : scheduler.Attended posts) (hstop : scheduler.stop = .ok (k, scheduler')) :
    scheduler'.Attended (posts ++ [.call k]) := by
  rw [Scheduler.stop] at hstop
  split_ifs at hstop with hrunning
  cases hstop
  have hpos := (h.running hrunning).1
  have hlast {n : Nat} (hn : n + 1 = scheduler.shifts.length) :
      n = scheduler.shifts.length - 1 := by omega
  have hlt : scheduler.shifts.length - 1 < scheduler.shifts.length := by omega
  generalize scheduler.shifts.length - 1 = k at hlast hlt ⊢
  have htold (n : Nat) : Told { scheduler.updateShift k
      (fun shift => { shift with stopping := true }) with startedAt := none } n ↔
      n = k ∨ scheduler.Told n := told_updateShift_stopping hlt
  exact {
    alive := by
      intro n shift hshift
      obtain ⟨old, hold, rfl⟩ := shift_of_updateShift hshift
      rw [List.countP_append, ← h.alive n old hold]
      split_ifs <;> simp [Post.isIn]
    watched := by
      intro post n hpost hin
      refine .inr ?_
      rcases List.mem_append.1 hpost with hpost | hpost
      · rcases h.watched post n hpost hin with ⟨-, hn⟩ | hcall
        · simp [hlast hn]
        · exact List.mem_append_left _ hcall
      · simp [List.mem_singleton.1 hpost, Post.isIn] at hin
    called := by
      intro n hn
      rw [htold]
      rcases List.mem_append.1 hn with hn | hn
      · exact .inr (h.called n hn)
      · exact .inl (by simpa using hn)
    running := by
      intro hrun
      cases hrun }

/-- A call returns when nobody is at work in its shift. -/
theorem settle (h : scheduler.Attended (.call k :: posts)) (hover : scheduler.isOver k = true) :
    scheduler.clearFires.Attended posts := by
  have hcount (n : Nat) : (Post.call k :: posts).countP (Post.isIn n) =
      posts.countP (Post.isIn n) := List.countP_cons_of_neg (by simp [Post.isIn])
  have hnobody : posts.countP (Post.isIn k) = 0 := by
    obtain ⟨shift, hshift, -⟩ := h.called k List.mem_cons_self
    rw [isOver, hshift] at hover
    rw [← hcount, ← h.alive k shift hshift]
    exact of_decide_eq_true hover
  exact {
    alive := fun n shift hshift => (h.alive n shift hshift).trans (hcount n)
    watched := by
      intro post n hpost hin
      refine (h.watched post n (List.mem_cons_of_mem _ hpost) hin).imp_right fun hcall => ?_
      refine (List.mem_cons.1 hcall).resolve_left ?_
      rintro ⟨⟩
      exact List.countP_eq_zero.1 hnobody post hpost hin
    called := fun n hn => h.called n (List.mem_cons_of_mem _ hn)
    running := h.running }

/-- A scheduler that was never started. -/
theorem new (hshifts : scheduler.shifts = []) (hidle : scheduler.isRunning = false) :
    scheduler.Attended [] where
  alive k shift hshift := by simp [hshifts] at hshift
  watched post k hpost := nomatch hpost
  called k hcall := nomatch hcall
  running hrunning := by simp [hidle] at hrunning

end Attended

end Pulse.Scheduler
