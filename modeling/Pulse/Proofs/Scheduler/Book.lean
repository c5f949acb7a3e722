import Mathlib.Data.List.Basic
import Pulse.Scheduler

/-!
# The books of a task

A task counts its runs and what came of them, but it keeps no list.  A `Book` is that list: every
fire of the task, every run that was begun and what came of every run that has ended.
`Task.Balanced` says that what the task shows is what the book says, with a number of runs under
way.

* `Book.Reports` — the error that a run is shown with.
* `Task.Balanced.begin`, `Task.Balanced.finish` — a fire and the end of a run keep the books
  balanced.
-/

set_option autoImplicit false

namespace Pulse

open Time (Instant)

/-- What has happened to a task. -/
structure Book where
  /-- For each fire, whether it found the task running. -/
  fires : List Bool := []
  /-- When runs were begun. -/
  begun : List Instant := []
  /-- For each run that has ended, what came of its job; `none` if it took longer than it may. -/
  ended : List (Option (Except String Unit)) := []

namespace Book

/-- A fire, which found the task running or not. -/
def fire (book : Book) (running : Bool) : Book :=
  { book with fires := book.fires ++ [running] }

/-- A run was begun at `now`. -/
def begin (book : Book) (now : Instant) : Book :=
  { book with begun := book.begun ++ [now] }

/-- A run has ended. -/
def finish (book : Book) (outcome : Option (Except String Unit)) : Book :=
  { book with ended := book.ended ++ [outcome] }

/-- The run has failed: its job ended in an error or took longer than it may. -/
def hasFailed : Option (Except String Unit) → Bool
  | some (.ok ()) => false
  | some (.error _) | none => true

/-- The error that a run is shown with, if a run may take so many milliseconds. -/
inductive Reports (timeout : Nat) : Option (Except String Unit) → Option String → Prop
  | success : Reports timeout (some (.ok ())) none
  | failure (e : String) : Reports timeout (some (.error e)) (some e)
  | timedOut : Reports timeout none (some s!"timed out after {Time.durationText timeout}")

theorem Reports.isSome_eq {timeout : Nat} {outcome : Option (Except String Unit)}
    {error : Option String} (h : Reports timeout outcome error) :
    error.isSome = hasFailed outcome := by
  cases h <;> rfl

end Book

namespace Task

/-- What a task shows is what its book says, while a number of runs is under way, each of which may
take so many milliseconds. -/
structure Balanced (task : Task) (timeout : Nat) (book : Book) (underway : Nat) : Prop where
  /-- Runs do not overlap. -/
  underway_le : underway ≤ 1
  running_iff : task.status = .running ↔ underway = 1
  /-- Every fire begins a run or is skipped. -/
  fires : book.fires.length = book.begun.length + task.skippedCount
  /-- A fire is skipped if it finds the task running, and only then. -/
  skipped : task.skippedCount = book.fires.count true
  begun : book.begun.length = task.runCount + underway
  runCount : task.runCount = book.ended.length
  failureCount : task.failureCount = book.ended.countP Book.hasFailed
  /-- The status between runs is that of the last one. -/
  failed_iff : task.status ≠ .running →
    (task.status = .failed ↔ book.ended.getLast?.any Book.hasFailed)
  lastError (outcome : Option (Except String Unit)) :
    book.ended.getLast? = some outcome → Book.Reports timeout outcome task.lastError
  lastError_of_new : book.ended = [] → task.lastError = none
  lastRun : task.lastRun = book.begun.getLast?

variable {task : Task} {timeout : Nat} {book : Book} {underway : Nat}

/-- A task that was never fired. -/
theorem balanced_new (name : String) (schedule : Schedule) (job : Job) :
    Balanced { name, schedule, job } timeout {} 0 where
  underway_le := Nat.zero_le 1
  running_iff := by simp
  fires := rfl
  skipped := rfl
  begun := rfl
  runCount := rfl
  failureCount := rfl
  failed_iff := by simp
  lastError := fun _ hlast => nomatch hlast
  lastError_of_new := fun _ => rfl
  lastRun := rfl

/-- When a task fires next is not in the book. -/
theorem Balanced.withNextRun (h : task.Balanced timeout book underway) (next : Option Instant) :
    Balanced { task with nextRun := next } timeout book underway :=
  { h with }

/-- A fire that is skipped. -/
theorem Balanced.skip (h : task.Balanced timeout book underway) :
    Balanced { task with skippedCount := task.skippedCount + 1 } timeout (book.fire true)
      underway where
  __ := h
  fires := by
    rw [Book.fire, List.length_append, h.fires]
    rfl
  skipped := by
    rw [Book.fire, List.count_append, h.skipped]
    rfl

/-- A fire that does not find the task running begins a run. -/
theorem Balanced.start (h : task.Balanced timeout book underway) (hidle : task.status ≠ .running)
    (now : Instant) :
    Balanced { task with status := .running, lastRun := some now } timeout
      ((book.fire false).begin now) (underway + 1) := by
  obtain rfl : underway = 0 := by
    have hle := h.underway_le
    have hne : underway ≠ 1 := mt h.running_iff.2 hidle
    omega
  exact { h with
    underway_le := Nat.le_refl 1
    running_iff := by simp
    fires := by
      simp only [Book.fire, Book.begin, List.length_append, h.fires, List.length_singleton]
      omega
    skipped := by
      simp only [Book.fire, Book.begin, List.count_append, h.skipped]
      rfl
    begun := by
      simp only [Book.fire, Book.begin, List.length_append, h.begun, List.length_singleton]
    failed_iff := fun hne => absurd rfl hne
    lastRun := by
      rw [Book.begin, List.getLast?_concat] }

/-- The end of a run. -/
theorem Balanced.finish (h : task.Balanced timeout book (underway + 1))
    {outcome : Option (Except String Unit)} {error : Option String}
    (hreports : Book.Reports timeout outcome error) :
    (task.finish error).Balanced timeout (book.finish outcome) underway := by
  obtain rfl : underway = 0 := by
    have hle := h.underway_le
    omega
  have hfailed := hreports.isSome_eq
  have hlast : (book.finish outcome).ended.getLast? = some outcome := by
    rw [Book.finish, List.getLast?_concat]
  exact { h with
    underway_le := Nat.zero_le 1
    running_iff := by cases error <;> simp [Task.finish]
    fires := h.fires
    begun := by
      show book.begun.length = task.runCount + 1 + 0
      rw [h.begun]
    runCount := by
      rw [Book.finish, List.length_append, ← h.runCount]
      rfl
    failureCount := by
      rw [Book.finish, List.countP_append, ← h.failureCount, List.countP_singleton, ← hfailed]
      rfl
    failed_iff := fun _ => by
      rw [hlast, Option.any_some, ← hfailed]
      cases error <;> simp [Task.finish]
    lastError := fun other hother => by
      obtain rfl : outcome = other := Option.some.inj (hlast.symm.trans hother)
      exact hreports
    lastError_of_new := fun hnil => by
      rw [hnil] at hlast
      cases hlast }

end Task

end Pulse
