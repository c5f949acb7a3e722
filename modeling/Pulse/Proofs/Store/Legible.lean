import Pulse.Proofs.Store.History
import Pulse.Proofs.Store.Queries

/-!
# What the log tells

The log of a store is *legible* if the status of every server can be read off it: the changes of
each server are in the order of time, and the last of them before a moment later than all of them
ended in the status that the record shows.  A store whose records are in step with its changes has a
legible log (`IsCoherent.legible`).
-/

set_option autoImplicit false

namespace Pulse.MemoryStore

open Time (Instant)
open Ordered (Sorted)

/-- The status of a server; nothing is known about a server that is not registered. -/
def statusOf (store : MemoryStore) (id : String) : Status :=
  (store.get? id).elim .undefined ServerRecord.status

/-- The last change of a server. -/
def changedAt? (store : MemoryStore) (id : String) : Option Instant :=
  (store.get? id).bind ServerRecord.statusChangedAt

/-- The status of a server before a moment, as the log tells it. -/
def statusBefore (store : MemoryStore) (id : String) (time : Instant) : Status :=
  (store.lastTransition? id time).elim .undefined Transition.target

/-- The status of every server can be read off the log. -/
structure Legible (store : MemoryStore) : Prop where
  sorted : ∀ id, Sorted Transition.time (store.historyOf id)
  newest : ∀ id time, (∀ t ∈ store.historyOf id, t.time < time) →
    store.statusBefore id time = store.statusOf id

variable {store : MemoryStore} {id : String}

theorem IsCoherent.statusOf_eq (h : store.IsCoherent) (id : String) :
    store.statusOf id = (store.historyOf id).getLast?.elim .undefined Transition.target := by
  rw [statusOf]
  cases hget : store.get? id with
  | none =>
    have hnone := h id
    rw [hget] at hnone
    rw [show store.historyOf id = [] from hnone]
    rfl
  | some record =>
    have hstep := h.inStep hget
    cases hlast : (store.historyOf id).getLast? with
    | none => exact hstep.changes_eq_nil_iff.1 (List.getLast?_eq_none_iff.1 hlast)
    | some t => exact (hstep.current t hlast).1

/-- **What is in step can be read off the log.** -/
theorem IsCoherent.legible (h : store.IsCoherent) : store.Legible where
  sorted := h.sorted
  newest id time hlate := by
    have hall : beforeCutoff time (store.historyOf id) = store.historyOf id :=
      List.filter_eq_self.2 fun t ht => decide_eq_true (hlate t ht)
    rw [statusBefore, lastTransition?_eq_getLast? (h.sorted id), hall, h.statusOf_eq]

/-- An orderly call takes no date back. -/
theorem le_changedAt?_after {call : Call} (ho : store.Orderly call) {changed : Instant}
    (h : store.changedAt? id = some changed) :
    ∃ changed', (store.after call).changedAt? id = some changed' ∧ changed ≤ changed' := by
  have he := store.effect_after id call
  rw [changedAt?] at h
  rw [changedAt?]
  generalize (store.after call).get? id = r, (store.after call).historyOf id = changes at he ⊢
  cases he with
  | untouched | cleaned => exact ⟨changed, h, le_rfl⟩
  | registered _ hnew =>
    rw [hnew] at h
    cases h
  | refreshed _ hget =>
    rw [hget] at h
    exact ⟨changed, h, le_rfl⟩
  | seen hget hon =>
    rw [hget] at h
    exact ⟨changed, (ServerRecord.statusChangedAt_heartbeat_of_on hon ..).trans h, le_rfl⟩
  | @turnedOn record time receivedAt hget hoff =>
    rw [hget] at h
    have hlast : record.statusChangedAt = some changed := h
    refine ⟨_, ServerRecord.statusChangedAt_heartbeat_of_ne hoff .., ?_⟩
    rw [ServerRecord.changeTime, hlast]
    exact le_max_left ..
  | @turnedOff record seenBefore now hget hsilent =>
    rw [hget] at h
    exact ⟨now, rfl, ho record changed hget hsilent h⟩

theorem le_changedAt?_afterAll {calls : List Call} (ho : store.OrderlyAll calls)
    {changed : Instant} (h : store.changedAt? id = some changed) :
    ∃ changed', (store.afterAll calls).changedAt? id = some changed' ∧ changed ≤ changed' := by
  induction calls generalizing store changed with
  | nil => exact ⟨changed, h, le_rfl⟩
  | cons call calls ih =>
    obtain ⟨middle, hmiddle, hle⟩ := le_changedAt?_after ho.1 h
    obtain ⟨changed', hchanged', hle'⟩ := ih ho.2 hmiddle
    exact ⟨changed', hchanged', hle.trans hle'⟩

end Pulse.MemoryStore
