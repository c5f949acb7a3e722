import Pulse.Proofs.Handler.Delivery
import Pulse.Proofs.Store.History

/-!
# What has arrived

A heartbeat bears the time at which its sender made it, the *stamp*, and arrives when it is handled.
A store keeps the latest stamp only: after any occurrences, the newest heartbeat of a server is the
latest stamp of what has arrived (`lastSeen?_through`), and a server that is on has one
(`hasStamp_through`).
-/

set_option autoImplicit false

namespace Pulse

open Time (Instant)

/-- A heartbeat that was accepted. -/
structure Arrival where
  /-- When it was made, as its sender says. -/
  stamp : Instant
  /-- When it was handled. -/
  receivedAt : Instant
deriving DecidableEq

/-- What arrives of a server with an occurrence: a message that is handled with success, or a
heartbeat by itself. -/
def Occurrence.arrival? (store : MemoryStore) (id : String) : Occurrence → Option Arrival
  | .message handler receivedAt event =>
    if event.serverId = id ∧ (store.handle handler receivedAt event).1.isOk then
      some ⟨event.timestamp, receivedAt⟩
    else none
  | .call ⟨.heartbeat id' time receivedAt⟩ =>
    if id' = id ∧ (store.heartbeat id' time receivedAt).isOk then some ⟨time, receivedAt⟩ else none
  | .call _ => none

namespace MemoryStore

/-- What has arrived of a server, in the order in which it arrived. -/
def arrivals (store : MemoryStore) (id : String) : List Occurrence → List Arrival
  | [] => []
  | o :: occurrences => (o.arrival? store id).toList ++ arrivals (store.past o) id occurrences

variable {store : MemoryStore}

theorem heard?_call (store : MemoryStore) (id : String) (call : Call) :
    ((Occurrence.call call).arrival? store id).map Arrival.stamp = store.heard? id call := by
  obtain @⟨form, request⟩ := call
  cases request with
  | heartbeat id' time receivedAt =>
    rw [Occurrence.arrival?, heard?]
    split_ifs <;> rfl
  | _ => rfl

/-- The samples that come with a heartbeat are none. -/
theorem lastSeen?_insertSample (store : MemoryStore) (samples : List Sample) (id : String) :
    (store.afterAll (samples.map fun s => ⟨.insertSample s⟩)).lastSeen? id =
      store.lastSeen? id := by
  induction samples generalizing store with
  | nil => rfl
  | cons s samples ih => exact ih (store.after ⟨.insertSample s⟩)

/-- What an occurrence makes of the newest heartbeat of a server. -/
theorem lastSeen?_past (store : MemoryStore) (id : String) (o : Occurrence) :
    (store.past o).lastSeen? id =
      ((o.arrival? store id).toList.map Arrival.stamp).foldl laterOf (store.lastSeen? id) := by
  cases o with
  | call call =>
    rw [past, lastSeen?_after, ← heard?_call]
    cases (Occurrence.call call).arrival? store id <;> rfl
  | message handler receivedAt event =>
    rw [past, Occurrence.arrival?]
    by_cases hok : (store.handle handler receivedAt event).1 = .ok ()
    · obtain ⟨record, hget⟩ := Option.isSome_iff_exists.1 (handle_ok_iff.1 hok).2
      rw [handle_of_ok hok]
      show (store.afterAll (handler.calls receivedAt event)).lastSeen? id = _
      rw [Handler.calls, afterAll_cons, lastSeen?_insertSample, lastSeen?_after, heard?,
        isOk_heartbeat, hget]
      by_cases hid : event.serverId = id
      · simp [hid, Except.isOk, Except.toBool]
      · simp [hid]
    · have hfailed : (store.handle handler receivedAt event).1.isOk = false := by
        cases hresult : (store.handle handler receivedAt event).1 with
        | ok => exact absurd hresult hok
        | error => rfl
      rw [handle_of_not_ok hok, hfailed, if_neg (by simp)]
      rfl

/-- **The newest heartbeat of a server bears the latest stamp that has arrived.** -/
theorem lastSeen?_through (store : MemoryStore) (id : String) (occurrences : List Occurrence) :
    (store.through occurrences).lastSeen? id =
      ((store.arrivals id occurrences).map Arrival.stamp).foldl laterOf (store.lastSeen? id) := by
  induction occurrences generalizing store with
  | nil => rfl
  | cons o occurrences ih =>
    rw [through_cons, ih, lastSeen?_past, arrivals, List.map_append, List.foldl_append]

/-- Every server that is on has a newest heartbeat. -/
def HasStamp (store : MemoryStore) : Prop :=
  ∀ id record, store.get? id = some record → record.status = .on → record.lastSeen ≠ none

theorem HasStamp.after (h : store.HasStamp) (call : Call) : (store.after call).HasStamp := by
  intro id record hget hon
  have he := effect_after store id call
  generalize hr : (store.after call).get? id = r, (store.after call).historyOf id = changes
    at he hget
  cases he with
  | untouched => exact h id record hget hon
  | cleaned => exact h id record hget hon
  | registered =>
    cases hget
    cases hon
  | @refreshed r before _ hget' =>
    cases hget
    exact h id before hget' hon
  | seen =>
    cases hget
    rw [ServerRecord.lastSeen_heartbeat]
    exact Option.some_ne_none _
  | turnedOn =>
    cases hget
    rw [ServerRecord.lastSeen_heartbeat]
    exact Option.some_ne_none _
  | turnedOff =>
    cases hget
    cases hon

theorem hasStamp_through (occurrences : List Occurrence) :
    (empty.through occurrences).HasStamp := by
  have hgeneral : ∀ store : MemoryStore, store.HasStamp → (store.through occurrences).HasStamp := by
    induction occurrences with
    | nil => exact fun _ h => h
    | cons o occurrences ih =>
      exact fun store h => ih _ (past_induction (fun call _ _ h => h.after call) h)
  refine hgeneral empty fun id record hget => ?_
  cases hget

end MemoryStore

end Pulse
