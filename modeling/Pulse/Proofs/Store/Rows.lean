import Pulse.Proofs.Store.Mirror

/-!
# Rows of servers

What a call does to the row of one server in the database.  `DurableStore.RowEffect` lists it and
`rowEffect_after` says that there is nothing else; from that follows what the newest heartbeat of a
row is, `lastSeen?_after`: the latest of those that were heard, cut to the millisecond.
-/

set_option autoImplicit false

namespace Pulse.DurableStore

open Mirrors (seenMillis changeMillis)
open Time (Instant)

variable {store next : DurableStore} {id : String} {row : ServerRow}

/-! ## Calls -/

section

variable {form : Store.Form} {request : Store.Request form}

theorem after_of_ok {a : form.Answer} (h : store.run request = .ok (a, next)) :
    store.after ⟨request⟩ = next := by
  simp only [after, h]

theorem after_of_error {e : StorageError} (h : store.run request = .error e) :
    store.after ⟨request⟩ = store := by
  simp only [after, h]

end

theorem query_of_closed {α : Type} {result : Except StorageError (α × DurableStore)}
    (h : store.closed = true) : store.query result = .error (.queryFailed closedReason) :=
  if_pos h

theorem query_of_open {α : Type} {result : Except StorageError (α × DurableStore)}
    (h : store.closed = false) : store.query result = result :=
  if_neg (by simp [h])

/-- The time of the heartbeat that a call brings to a server, if the database accepts it. -/
def heard? (store : DurableStore) (id : String) : Call → Option Instant
  | ⟨.heartbeat id' time receivedAt⟩ =>
    if id' = id ∧ (store.heartbeat id' time receivedAt).isOk then some time else none
  | _ => none

/-! ## What a call does to a row -/

/-- What a call does to the row of a server. -/
inductive RowEffect (store : DurableStore) (id : String) : Call → Option ServerRow → Prop
  | untouched {call : Call} (h : store.heard? id call = none) :
      RowEffect store id call (store.row? id)
  | registered {r : Registration} (hnew : store.row? id = none) :
      RowEffect store id ⟨.register r⟩
        (some ⟨r.serverId, r.address, r.interval, .undefined, none, none⟩)
  | refreshed {r : Registration} {row : ServerRow} (hrow : store.row? id = some row) :
      RowEffect store id ⟨.register r⟩
        (some { row with address := r.address, interval := r.interval })
  | heard {row row' : ServerRow} {time receivedAt : Instant} (hrow : store.row? id = some row)
      (hheard : store.heard? id ⟨.heartbeat id time receivedAt⟩ = some time)
      (hon : row'.status = .on) (hseen : row'.lastSeen = some (seenMillis row time)) :
      RowEffect store id ⟨.heartbeat id time receivedAt⟩ (some row')
  | turnedOff {row : ServerRow} {seenBefore now : Instant} (hrow : store.row? id = some row) :
      RowEffect store id ⟨.demote id seenBefore now⟩
        (some { row with status := .off, statusChangedAt := some now.toMillis })

theorem serverId_of_row? (h : store.row? id = some row) : row.serverId = id :=
  Ordered.key_of_get? h

theorem row?_putRow (store : DurableStore) (row : ServerRow) (id : String) :
    (store.putRow row).row? id = if row.serverId = id then some row else store.row? id :=
  Ordered.get?_put ..

theorem row?_log (store : DurableStore) (t : TransitionRow) (id : String) :
    (store.log t).row? id = store.row? id :=
  rfl

/-- A closed database keeps its rows. -/
theorem servers_after_of_closed (h : store.closed = true) (call : Call) :
    (store.after call).servers = store.servers := by
  obtain @⟨form, request⟩ := call
  cases request with
  | health | close => rfl
  | _ => simp only [after, run, register, heartbeat, demote, query_of_closed h]

theorem heard?_of_closed (h : store.closed = true) (id : String) (call : Call) :
    store.heard? id call = none := by
  obtain @⟨form, request⟩ := call
  cases request with
  | heartbeat id' time receivedAt =>
    rw [heard?, heartbeat, query_of_closed h, if_neg fun hok => Bool.false_ne_true hok.2]
  | _ => rfl

theorem rowEffect_of_closed (h : store.closed = true) (id : String) (call : Call) :
    RowEffect store id call ((store.after call).row? id) := by
  rw [row?, servers_after_of_closed h]
  exact .untouched (heard?_of_closed h id call)

theorem rowEffect_register (hopen : store.closed = false) (id : String) (r : Registration) :
    RowEffect store id ⟨.register r⟩ ((store.after ⟨.register r⟩).row? id) := by
  have hrun : store.run (.register r) = store.register r := rfl
  rw [register, query_of_open hopen] at hrun
  by_cases hzero : r.interval = 0
  · rw [if_pos hzero] at hrun
    rw [after_of_error hrun]
    exact .untouched rfl
  · rw [if_neg hzero] at hrun
    rw [after_of_ok hrun, row?_putRow]
    cases hrow : store.row? r.serverId with
    | none =>
      show RowEffect store id _ (if r.serverId = id then _ else _)
      split_ifs with hid
      · exact .registered (hid ▸ hrow)
      · exact .untouched rfl
    | some row =>
      show RowEffect store id _ (if row.serverId = id then _ else _)
      rw [serverId_of_row? hrow]
      split_ifs with hid
      · exact .refreshed (hid ▸ hrow)
      · exact .untouched rfl

/-- What a heartbeat comes to, if the row of the server is there. -/
theorem heartbeat_of_row? (hopen : store.closed = false) (hrow : store.row? id = some row)
    (time receivedAt : Instant) :
    ∃ outcome row' next, store.heartbeat id time receivedAt = .ok (outcome, next) ∧
      row'.serverId = id ∧ row'.status = .on ∧ row'.lastSeen = some (seenMillis row time) ∧
      ∀ other, next.row? other = (store.putRow row').row? other := by
  have hid := serverId_of_row? hrow
  rw [heartbeat, query_of_open hopen, hrow]
  by_cases hon : row.status = .on
  · exact ⟨_, { row with lastSeen := some (seenMillis row time) }, _, if_pos hon, hid, hon, rfl,
      fun _ => rfl⟩
  · exact ⟨_, { row with
        status := .on
        lastSeen := some (seenMillis row time)
        statusChangedAt := some (changeMillis row receivedAt) }, _, if_neg hon, hid, rfl, rfl,
      fun _ => rfl⟩

theorem rowEffect_heartbeat (hopen : store.closed = false) (id id' : String)
    (time receivedAt : Instant) :
    RowEffect store id ⟨.heartbeat id' time receivedAt⟩
      ((store.after ⟨.heartbeat id' time receivedAt⟩).row? id) := by
  cases hrow : store.row? id' with
  | none =>
    have hrefused : store.heartbeat id' time receivedAt = .error (.unknownServer id') := by
      rw [heartbeat, query_of_open hopen, hrow]
    have hafter : store.after ⟨.heartbeat id' time receivedAt⟩ = store := after_of_error hrefused
    rw [hafter]
    refine .untouched ?_
    rw [heard?, hrefused, if_neg fun h => Bool.false_ne_true h.2]
  | some row =>
    obtain ⟨outcome, row', next, hrun, hid', hon, hseen, hrows⟩ :=
      heartbeat_of_row? hopen hrow time receivedAt
    have hafter : store.after ⟨.heartbeat id' time receivedAt⟩ = next := after_of_ok hrun
    rw [hafter, hrows, row?_putRow, hid']
    split_ifs with hid
    · subst hid
      refine .heard hrow ?_ hon hseen
      rw [heard?, hrun, if_pos ⟨rfl, rfl⟩]
    · refine .untouched ?_
      rw [heard?, if_neg fun h => hid h.1]

/-- What turning off comes to, if the row of the server is there. -/
theorem demote_of_row? (hopen : store.closed = false) (hrow : store.row? id = some row)
    (seenBefore now : Instant) :
    store.demote id seenBefore now =
      if row.status = .on ∧ row.lastSeen.any (fun seen => seen < seenBefore.toMillis) then
        .ok (true, (store.putRow { row with
          status := .off
          statusChangedAt := some now.toMillis }).log ⟨id, .on, .off, now.toMillis⟩)
      else .ok (false, store) := by
  rw [demote, query_of_open hopen, hrow]

theorem rowEffect_demote (hopen : store.closed = false) (id id' : String)
    (seenBefore now : Instant) :
    RowEffect store id ⟨.demote id' seenBefore now⟩
      ((store.after ⟨.demote id' seenBefore now⟩).row? id) := by
  cases hrow : store.row? id' with
  | none =>
    have hrefused : store.demote id' seenBefore now = .error (.unknownServer id') := by
      rw [demote, query_of_open hopen, hrow]
    have hafter : store.after ⟨.demote id' seenBefore now⟩ = store := after_of_error hrefused
    rw [hafter]
    exact .untouched rfl
  | some row =>
    have hdemote := demote_of_row? hopen hrow seenBefore now
    split_ifs at hdemote with hsilent
    · have hafter : store.after ⟨.demote id' seenBefore now⟩ = _ := after_of_ok hdemote
      rw [hafter, row?_log, row?_putRow]
      have hid' := serverId_of_row? hrow
      split_ifs with hid
      · obtain rfl : id' = id := hid'.symm.trans hid
        exact .turnedOff hrow
      · exact .untouched rfl
    · have hafter : store.after ⟨.demote id' seenBefore now⟩ = store := after_of_ok hdemote
      rw [hafter]
      exact .untouched rfl

/-- **A call does to the row of a server what `RowEffect` lists, and nothing else.** -/
theorem rowEffect_after (store : DurableStore) (id : String) (call : Call) :
    RowEffect store id call ((store.after call).row? id) := by
  cases hclosed : store.closed with
  | true => exact rowEffect_of_closed hclosed id call
  | false =>
    obtain @⟨form, request⟩ := call
    cases request with
    | register r => exact rowEffect_register hclosed id r
    | heartbeat id' time receivedAt => exact rowEffect_heartbeat hclosed id id' time receivedAt
    | demote id' seenBefore now => exact rowEffect_demote hclosed id id' seenBefore now
    | health | close => exact .untouched rfl
    | _ =>
      simp only [after, run, query_of_open hclosed]
      exact .untouched rfl

/-! ## Views -/

/-- The status of a server; nothing is known about a server that is not registered. -/
def statusOf (store : DurableStore) (id : String) : Status :=
  (store.row? id).elim .undefined ServerRow.status

/-- The newest heartbeat of a server. -/
def lastSeen? (store : DurableStore) (id : String) : Option Int :=
  (store.row? id).bind ServerRow.lastSeen

/-- The later of a moment, if there is one, and another, cut to the millisecond. -/
def laterMillis (last : Option Int) (time : Instant) : Option Int :=
  some (last.elim time.toMillis fun last => max last time.toMillis)

theorem lastSeen?_after (store : DurableStore) (id : String) (call : Call) :
    (store.after call).lastSeen? id =
      (store.heard? id call).toList.foldl laterMillis (store.lastSeen? id) := by
  have he := store.rowEffect_after id call
  rw [lastSeen?, lastSeen?]
  generalize (store.after call).row? id = r at he
  cases he with
  | untouched h => rw [h]; rfl
  | registered hnew => rw [hnew]; rfl
  | refreshed hrow | turnedOff hrow => rw [hrow]; rfl
  | @heard row row' time receivedAt hrow hheard _ hseen =>
    rw [hrow, hheard, Option.bind_some, hseen, seenMillis]
    show _ = laterMillis row.lastSeen time
    cases row.lastSeen <;> rfl

end Pulse.DurableStore
