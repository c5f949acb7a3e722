import Pulse.Proofs.Store.Retention
import Pulse.Store

/-!
# Calls of the store in memory

A `Call` is a request of some form, so that calls can stand in a row.  `MemoryStore.after` is the
store after a call and `MemoryStore.afterAll` the store after a row of calls; a call that is refused
changes nothing.

* `Effect` lists everything that a call can do to one server, to its record and to its changes in
  the log, and `effect_after` says that there is nothing else.  What is proved about histories is
  proved by going through its cases.
* `Call.stamp?` is the moment with which a call dates the change that it may make: the receipt of a
  heartbeat, or the decision to turn a server off.
-/

set_option autoImplicit false

namespace Pulse

open Time (Instant)

/-! ## Calls -/

/-- Something that a store is asked. -/
structure Call where
  {form : Store.Form}
  request : Store.Request form

/-- The moment with which a call dates the change that it may make. -/
def Call.stamp? : Call → Option Instant
  | ⟨.heartbeat _ _ receivedAt⟩ => some receivedAt
  | ⟨.demote _ _ now⟩ => some now
  | _ => none

/-- The stamps of calls, in the order of the calls. -/
def stamps (calls : List Call) : List Instant :=
  calls.filterMap Call.stamp?

theorem stamps_cons (call : Call) (calls : List Call) :
    stamps (call :: calls) = call.stamp?.toList ++ stamps calls := by
  cases hs : call.stamp? <;> simp [stamps, hs]

theorem forall_mem_stamps_cons {call : Call} {calls : List Call} {P : Instant → Prop} :
    (∀ s ∈ stamps (call :: calls), P s) ↔
      (∀ s ∈ call.stamp?, P s) ∧ ∀ s ∈ stamps calls, P s := by
  simp [stamps_cons, or_imp, forall_and]

theorem pairwise_stamps_cons {call : Call} {calls : List Call} :
    (stamps (call :: calls)).Pairwise (· ≤ ·) ↔
      (∀ s ∈ call.stamp?, ∀ t ∈ stamps calls, s ≤ t) ∧ (stamps calls).Pairwise (· ≤ ·) := by
  rw [stamps_cons]
  cases call.stamp? <;> simp [List.pairwise_cons]

namespace MemoryStore

/-- The store after a call. -/
def after (store : MemoryStore) (call : Call) : MemoryStore :=
  match store.run call.request with
  | .ok (_, next) => next
  | .error _ => store

/-- The store after calls, one after the other. -/
def afterAll (store : MemoryStore) (calls : List Call) : MemoryStore :=
  calls.foldl after store

@[simp]
theorem afterAll_nil (store : MemoryStore) : store.afterAll [] = store :=
  rfl

@[simp]
theorem afterAll_cons (store : MemoryStore) (call : Call) (calls : List Call) :
    store.afterAll (call :: calls) = (store.after call).afterAll calls :=
  rfl

theorem afterAll_append (store : MemoryStore) (calls more : List Call) :
    store.afterAll (calls ++ more) = (store.afterAll calls).afterAll more :=
  List.foldl_append ..

/-- The changes of a server that the log holds. -/
def historyOf (store : MemoryStore) (id : String) : List Transition :=
  changesOf id store.transitions

theorem get?_putRecord (store : MemoryStore) (record : ServerRecord) (id : String) :
    (store.putRecord record).get? id =
      if record.serverId = id then some record else store.get? id :=
  Ordered.get?_put ..

@[simp]
theorem historyOf_putRecord (store : MemoryStore) (record : ServerRecord) (id : String) :
    (store.putRecord record).historyOf id = store.historyOf id :=
  rfl

@[simp]
theorem get?_log (store : MemoryStore) (t : Transition) (id : String) :
    (store.log t).get? id = store.get? id :=
  rfl

theorem historyOf_log_self (store : MemoryStore) {t : Transition} {id : String}
    (h : t.serverId = id) : (store.log t).historyOf id = store.historyOf id ++ [t] := by
  simp [historyOf, log, changesOf, h]

theorem historyOf_log_of_ne (store : MemoryStore) {t : Transition} {id : String}
    (h : t.serverId ≠ id) : (store.log t).historyOf id = store.historyOf id := by
  simp [historyOf, log, changesOf, h]

end MemoryStore

/-! ## Records -/

namespace ServerRecord

/-- The moment with which a heartbeat that turns a server on is dated. -/
def changeTime (record : ServerRecord) (receivedAt : Instant) : Instant :=
  match record.statusChangedAt with
  | none => receivedAt
  | some last => max last receivedAt

/-- The newest heartbeat after one more. -/
def seenAfter (record : ServerRecord) (time : Instant) : Instant :=
  record.lastSeen.elim time fun last => max last time

theorem heartbeat_of_on {record : ServerRecord} (h : record.status = .on)
    (time receivedAt : Instant) :
    record.heartbeat time receivedAt =
      { record with lastSeen := some (record.seenAfter time) } := by
  rw [heartbeat, if_pos h, seenAfter]
  cases record.lastSeen <;> rfl

theorem heartbeat_of_ne {record : ServerRecord} (h : record.status ≠ .on)
    (time receivedAt : Instant) :
    record.heartbeat time receivedAt =
      { record with
        status := .on
        lastSeen := some (record.seenAfter time)
        statusChangedAt := some (record.changeTime receivedAt) } := by
  rw [heartbeat, if_neg h, seenAfter, changeTime]
  cases record.lastSeen <;> rfl

@[simp]
theorem serverId_heartbeat (record : ServerRecord) (time receivedAt : Instant) :
    (record.heartbeat time receivedAt).serverId = record.serverId := by
  by_cases h : record.status = .on
  · rw [heartbeat_of_on h]
  · rw [heartbeat_of_ne h]

@[simp]
theorem status_heartbeat (record : ServerRecord) (time receivedAt : Instant) :
    (record.heartbeat time receivedAt).status = .on := by
  by_cases h : record.status = .on
  · rw [heartbeat_of_on h]
    exact h
  · rw [heartbeat_of_ne h]

theorem lastSeen_heartbeat (record : ServerRecord) (time receivedAt : Instant) :
    (record.heartbeat time receivedAt).lastSeen = some (record.seenAfter time) := by
  by_cases h : record.status = .on
  · rw [heartbeat_of_on h]
  · rw [heartbeat_of_ne h]

theorem statusChangedAt_heartbeat_of_on {record : ServerRecord} (h : record.status = .on)
    (time receivedAt : Instant) :
    (record.heartbeat time receivedAt).statusChangedAt = record.statusChangedAt := by
  rw [heartbeat_of_on h]

theorem statusChangedAt_heartbeat_of_ne {record : ServerRecord} (h : record.status ≠ .on)
    (time receivedAt : Instant) :
    (record.heartbeat time receivedAt).statusChangedAt = some (record.changeTime receivedAt) := by
  rw [heartbeat_of_ne h]

theorem status_of_isSilent {record : ServerRecord} {seenBefore : Instant}
    (h : record.isSilent seenBefore = true) : record.status = .on := by
  rw [isSilent, Bool.and_eq_true] at h
  simpa using h.1

end ServerRecord

/-! ## What a call does to a server -/

namespace MemoryStore

/-- The time of the heartbeat that a call brings to a server, if the store accepts it. -/
def heard? (store : MemoryStore) (id : String) : Call → Option Instant
  | ⟨.heartbeat id' time receivedAt⟩ =>
    if id' = id ∧ (store.heartbeat id' time receivedAt).isOk then some time else none
  | _ => none

/-- Heartbeats are accepted from registered servers. -/
theorem isOk_heartbeat (store : MemoryStore) (id : String) (time receivedAt : Instant) :
    (store.heartbeat id time receivedAt).isOk = (store.get? id).isSome := by
  rw [heartbeat]
  cases store.get? id with
  | none => rfl
  | some record =>
    show Except.isOk (if record.status = .on then _ else _) = true
    split_ifs <;> rfl

/-- What a call does to a server: the record and the changes of the server after the call. -/
inductive Effect (store : MemoryStore) (id : String) :
    Call → Option ServerRecord → List Transition → Prop
  | untouched {call : Call} (h : store.heard? id call = none) :
      Effect store id call (store.get? id) (store.historyOf id)
  | registered {r : Registration} (h : r.serverId = id) (hnew : store.get? id = none) :
      Effect store id ⟨.register r⟩ (some (.new r)) (store.historyOf id)
  | refreshed {r : Registration} {record : ServerRecord} (h : r.serverId = id)
      (hget : store.get? id = some record) :
      Effect store id ⟨.register r⟩ (some (record.refresh r)) (store.historyOf id)
  | seen {record : ServerRecord} {time receivedAt : Instant} (hget : store.get? id = some record)
      (hon : record.status = .on) :
      Effect store id ⟨.heartbeat id time receivedAt⟩ (some (record.heartbeat time receivedAt))
        (store.historyOf id)
  | turnedOn {record : ServerRecord} {time receivedAt : Instant}
      (hget : store.get? id = some record) (hoff : record.status ≠ .on) :
      Effect store id ⟨.heartbeat id time receivedAt⟩ (some (record.heartbeat time receivedAt))
        (store.historyOf id ++ [⟨id, record.status, .on, record.changeTime receivedAt⟩])
  | turnedOff {record : ServerRecord} {seenBefore now : Instant}
      (hget : store.get? id = some record) (hsilent : record.isSilent seenBefore = true) :
      Effect store id ⟨.demote id seenBefore now⟩ (some (record.demoted now))
        (store.historyOf id ++ [⟨id, .on, .off, now⟩])
  | cleaned {before : Instant} :
      Effect store id ⟨.cleanupTransitions before⟩ (store.get? id)
        (changesOf id (retained before store.transitions))

theorem serverId_of_get? {store : MemoryStore} {id : String} {record : ServerRecord}
    (h : store.get? id = some record) : record.serverId = id :=
  Ordered.key_of_get? h

theorem effect_register (store : MemoryStore) (id : String) (r : Registration) :
    Effect store id ⟨.register r⟩ ((store.register r).get? id)
      ((store.register r).historyOf id) := by
  rw [register, get?_putRecord, historyOf_putRecord]
  cases hget : store.get? r.serverId with
  | none =>
    show Effect store id _ (if r.serverId = id then _ else _) _
    split_ifs with hid
    · exact .registered hid (hid ▸ hget)
    · exact .untouched rfl
  | some record =>
    show Effect store id _ (if record.serverId = id then _ else _) _
    rw [serverId_of_get? hget]
    split_ifs with hid
    · exact .refreshed hid (hid ▸ hget)
    · exact .untouched rfl

theorem after_heartbeat {store : MemoryStore} {id : String} {record : ServerRecord}
    (h : store.get? id = some record) (time receivedAt : Instant) :
    store.after ⟨.heartbeat id time receivedAt⟩ =
      let next := store.putRecord (record.heartbeat time receivedAt)
      if record.status = .on then next
      else next.log ⟨id, record.status, .on, record.changeTime receivedAt⟩ := by
  simp only [after, run, heartbeat, h]
  split_ifs with hon
  · rfl
  · rw [ServerRecord.statusChangedAt_heartbeat_of_ne hon]
    rfl

/-- The record of a server after a heartbeat. -/
theorem get?_after_heartbeat {store : MemoryStore} {id : String} {record : ServerRecord}
    (h : store.get? id = some record) (time receivedAt : Instant) :
    (store.after ⟨.heartbeat id time receivedAt⟩).get? id =
      some (record.heartbeat time receivedAt) := by
  have hrecord := serverId_of_get? h
  rw [after_heartbeat h]
  dsimp only
  split_ifs <;> simp [get?_putRecord, hrecord]

/-- The changes of a server after a heartbeat: one more, if it turned the server on. -/
theorem historyOf_after_heartbeat {store : MemoryStore} {id : String} {record : ServerRecord}
    (h : store.get? id = some record) (time receivedAt : Instant) :
    (store.after ⟨.heartbeat id time receivedAt⟩).historyOf id =
      if record.status = .on then store.historyOf id
      else store.historyOf id ++ [⟨id, record.status, .on, record.changeTime receivedAt⟩] := by
  rw [after_heartbeat h]
  dsimp only
  split_ifs
  · rw [historyOf_putRecord]
  · rw [historyOf_log_self _ rfl, historyOf_putRecord]

theorem after_demote {store : MemoryStore} {id : String} {record : ServerRecord}
    (h : store.get? id = some record) (seenBefore now : Instant) :
    store.after ⟨.demote id seenBefore now⟩ =
      if record.isSilent seenBefore then
        (store.putRecord (record.demoted now)).log ⟨id, .on, .off, now⟩
      else store := by
  simp only [after, run, demote, h]
  split_ifs <;> rfl

/-- A call that is not accepted for want of a record leaves the store as it is. -/
theorem after_heartbeat_of_none {store : MemoryStore} {id : String} (h : store.get? id = none)
    (time receivedAt : Instant) : store.after ⟨.heartbeat id time receivedAt⟩ = store := by
  simp only [after, run, heartbeat, h]

theorem after_demote_of_none {store : MemoryStore} {id : String} (h : store.get? id = none)
    (seenBefore now : Instant) : store.after ⟨.demote id seenBefore now⟩ = store := by
  simp only [after, run, demote, h]

theorem effect_heartbeat (store : MemoryStore) (id id' : String) (time receivedAt : Instant) :
    Effect store id ⟨.heartbeat id' time receivedAt⟩
      ((store.after ⟨.heartbeat id' time receivedAt⟩).get? id)
      ((store.after ⟨.heartbeat id' time receivedAt⟩).historyOf id) := by
  cases hget : store.get? id' with
  | none =>
    rw [after_heartbeat_of_none hget]
    refine .untouched ?_
    rw [heard?, isOk_heartbeat, hget, if_neg (by simp)]
  | some record =>
    have hrecord := serverId_of_get? hget
    rw [after_heartbeat hget]
    by_cases hid : id' = id
    · subst hid
      by_cases hon : record.status = .on
      · rw [if_pos hon, get?_putRecord, if_pos (by simpa using hrecord), historyOf_putRecord]
        exact .seen hget hon
      · rw [if_neg hon, get?_log, get?_putRecord, if_pos (by simpa using hrecord),
          historyOf_log_self _ rfl, historyOf_putRecord]
        exact .turnedOn hget hon
    · have hne : ¬ (record.heartbeat time receivedAt).serverId = id := by simpa [hrecord] using hid
      have hheard : store.heard? id ⟨.heartbeat id' time receivedAt⟩ = none := by
        rw [heard?, if_neg fun h => hid h.1]
      by_cases hon : record.status = .on
      · rw [if_pos hon, get?_putRecord, if_neg hne, historyOf_putRecord]
        exact .untouched hheard
      · rw [if_neg hon, get?_log, get?_putRecord, if_neg hne, historyOf_log_of_ne _ hid,
          historyOf_putRecord]
        exact .untouched hheard

theorem effect_demote (store : MemoryStore) (id id' : String) (seenBefore now : Instant) :
    Effect store id ⟨.demote id' seenBefore now⟩
      ((store.after ⟨.demote id' seenBefore now⟩).get? id)
      ((store.after ⟨.demote id' seenBefore now⟩).historyOf id) := by
  cases hget : store.get? id' with
  | none =>
    rw [after_demote_of_none hget]
    exact .untouched rfl
  | some record =>
    have hrecord : record.serverId = id' := serverId_of_get? hget
    have hdemoted : (record.demoted now).serverId = id' := hrecord
    rw [after_demote hget]
    split_ifs with hsilent
    · rw [get?_log, get?_putRecord, hdemoted]
      by_cases hid : id' = id
      · subst hid
        rw [if_pos rfl, historyOf_log_self _ rfl, historyOf_putRecord]
        exact .turnedOff hget hsilent
      · rw [if_neg hid, historyOf_log_of_ne _ hid, historyOf_putRecord]
        exact .untouched rfl
    · exact .untouched rfl

/-- **A call does to a server what `Effect` lists, and nothing else.** -/
theorem effect_after (store : MemoryStore) (id : String) (call : Call) :
    Effect store id call ((store.after call).get? id) ((store.after call).historyOf id) := by
  obtain @⟨form, request⟩ := call
  cases request with
  | register r => exact effect_register store id r
  | heartbeat id' time receivedAt => exact effect_heartbeat store id id' time receivedAt
  | demote id' seenBefore now => exact effect_demote store id id' seenBefore now
  | cleanupTransitions before => exact .cleaned
  | _ => exact .untouched rfl

/-- **Records stay in the order of their identifiers**, one for each. -/
theorem ascending_after {store : MemoryStore}
    (h : Ordered.Ascending ServerRecord.serverId store.records) (call : Call) :
    Ordered.Ascending ServerRecord.serverId (store.after call).records := by
  obtain @⟨form, request⟩ := call
  cases request with
  | register r => exact h.put _
  | heartbeat id time receivedAt =>
    cases hget : store.get? id with
    | none => rwa [after_heartbeat_of_none hget]
    | some record =>
      rw [after_heartbeat hget]
      show Ordered.Ascending _ (if _ then _ else _ : MemoryStore).records
      split_ifs <;> exact h.put _
  | demote id seenBefore now =>
    cases hget : store.get? id with
    | none => rwa [after_demote_of_none hget]
    | some record =>
      rw [after_demote hget]
      split_ifs
      · exact h.put _
      · exact h
  | _ => exact h

theorem ascending_afterAll {store : MemoryStore}
    (h : Ordered.Ascending ServerRecord.serverId store.records) (calls : List Call) :
    Ordered.Ascending ServerRecord.serverId (store.afterAll calls).records := by
  induction calls generalizing store with
  | nil => exact h
  | cons call calls ih => exact ih (ascending_after h call)

theorem ascending_records (calls : List Call) :
    Ordered.Ascending ServerRecord.serverId (empty.afterAll calls).records := by
  refine ascending_afterAll ?_ calls
  exact List.Pairwise.nil

end MemoryStore

end Pulse
