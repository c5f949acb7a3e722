import Pulse.Proofs.Store.Queries
import Pulse.Proofs.Time.Floor
import Pulse.Store

/-!
# A store in memory that mirrors a database

`Mirrors times d m` says that the store `m` in memory holds what the database `d` holds: the rows of
`d`, read back, are the records, the samples and the changes of `m`.  All numbers in the rows are
those of moments outside leap seconds, so that reading them back loses nothing and compares as the
numbers do; and the samples of a server are at moments of `times`, of which there are so few that
the store in memory never gives one up.

This module has the part about records and the log: `Mirrors.heartbeat`, `Mirrors.demote` and
`Mirrors.cleanupTransitions` say that each of these does the same to both stores.
-/

set_option autoImplicit false

namespace Pulse

open MemoryStore (changesOf beforeCutoff)
open Ordered (Ascending Sorted)
open Time (Instant)

/-- The times of a row are those of moments outside leap seconds. -/
structure ServerRow.IsWhole (row : ServerRow) : Prop where
  lastSeen : ∀ ms ∈ row.lastSeen, Instant.IsWhole ms
  statusChangedAt : ∀ ms ∈ row.statusChangedAt, Instant.IsWhole ms

/-- The store in memory holds what the database holds. -/
structure Mirrors (times : String → List Instant) (d : DurableStore) (m : MemoryStore) : Prop where
  opened : d.closed = false
  records : m.records = d.servers.map ServerRow.record
  wholeServers : ∀ row ∈ d.servers, row.IsWhole
  changes : m.transitions = d.transitions.map TransitionRow.transition
  wholeChanges : ∀ row ∈ d.transitions, Instant.IsWhole row.time
  samples : ∀ id, m.samplesOf id = (d.samplesOf id).map SampleRow.sample
  wholeSamples : ∀ row ∈ d.samples, Instant.IsWhole row.timestamp
  ascending : Ascending Series.serverId m.series
  covered : ∀ row ∈ d.samples, ∃ series ∈ m.series, series.serverId = row.serverId
  timely : ∀ series ∈ m.series, Ascending Sample.timestamp series.samples ∧
    ∀ s ∈ series.samples, s.timestamp ∈ times series.serverId

/-- Both stores give the same answer and mirror each other afterwards, or they refuse with the same
error. -/
inductive Agree {α : Type} (times : String → List Instant) :
    Except StorageError (α × DurableStore) → Except StorageError (α × MemoryStore) → Prop
  | ok {a : α} {d : DurableStore} {m : MemoryStore} (h : Mirrors times d m) :
      Agree times (.ok (a, d)) (.ok (a, m))
  | error {e : StorageError} : Agree times (.error e) (.error e)

theorem mirrors_empty (times : String → List Instant) : Mirrors times .empty .empty where
  opened := rfl
  records := rfl
  wholeServers := by simp [DurableStore.empty]
  changes := rfl
  wholeChanges := by simp [DurableStore.empty]
  samples _ := rfl
  wholeSamples := by simp [DurableStore.empty]
  ascending := List.Pairwise.nil
  covered := by simp [DurableStore.empty]
  timely := by simp [MemoryStore.empty]

namespace Mirrors

variable {times : String → List Instant} {d : DurableStore} {m : MemoryStore}

theorem query {α : Type} (h : Mirrors times d m)
    {result : Except StorageError (α × DurableStore)} : d.query result = result := by
  rw [DurableStore.query, h.opened, if_neg (by simp)]

/-! ## Records -/

theorem get? (h : Mirrors times d m) (id : String) :
    m.get? id = (d.row? id).map ServerRow.record := by
  rw [MemoryStore.get?, h.records]
  exact Ordered.get?_map (fun _ => rfl) id d.servers

theorem whole_of_row? (h : Mirrors times d m) {id : String} {row : ServerRow}
    (hrow : d.row? id = some row) : row.IsWhole :=
  h.wholeServers row (List.mem_of_find?_eq_some hrow)

theorem putRow (h : Mirrors times d m) (row : ServerRow) (hrow : row.IsWhole) :
    Mirrors times (d.putRow row) (m.putRecord row.record) where
  opened := h.opened
  records := by
    show Ordered.put ServerRecord.serverId row.record m.records =
      (Ordered.put ServerRow.serverId row d.servers).map ServerRow.record
    rw [h.records]
    exact (Ordered.map_put (fun _ _ => Iff.rfl) fun _ _ => Iff.rfl).symm
  wholeServers other hother := by
    rcases Ordered.mem_put hother with rfl | hother
    · exact hrow
    · exact h.wholeServers other hother
  changes := h.changes
  wholeChanges := h.wholeChanges
  samples := h.samples
  wholeSamples := h.wholeSamples
  ascending := h.ascending
  covered := h.covered
  timely := h.timely

theorem log (h : Mirrors times d m) {row : TransitionRow} (hrow : Instant.IsWhole row.time) :
    Mirrors times (d.log row) (m.log row.transition) where
  opened := h.opened
  records := h.records
  wholeServers := h.wholeServers
  changes := by
    show m.transitions ++ [_] = (d.transitions ++ [row]).map _
    rw [h.changes, List.map_append]
    rfl
  wholeChanges other hother := by
    rcases List.mem_append.1 hother with hother | hother
    · exact h.wholeChanges other hother
    · obtain rfl : other = row := by simpa using hother
      exact hrow
  samples := h.samples
  wholeSamples := h.wholeSamples
  ascending := h.ascending
  covered := h.covered
  timely := h.timely

theorem register (h : Mirrors times d m) {r : Registration} (hr : 0 < r.interval) :
    Agree times (d.register r) (.ok ((), m.register r)) := by
  rw [DurableStore.register, h.query, if_neg hr.ne', MemoryStore.register, h.get?]
  cases hrow : d.row? r.serverId with
  | none => exact .ok (h.putRow ⟨_, _, _, _, none, none⟩ ⟨by simp, by simp⟩)
  | some row =>
    have hwhole := h.whole_of_row? hrow
    exact .ok (h.putRow { row with address := r.address, interval := r.interval }
      ⟨hwhole.lastSeen, hwhole.statusChangedAt⟩)

/-! ## Heartbeats and demotions -/

/-- The newest heartbeat of a row, after one more. -/
def seenMillis (row : ServerRow) (time : Instant) : Int :=
  match row.lastSeen with
  | none => time.toMillis
  | some last => max last time.toMillis

/-- The date of the change with which a heartbeat turns the server of a row on. -/
def changeMillis (row : ServerRow) (receivedAt : Instant) : Int :=
  match row.statusChangedAt with
  | none => receivedAt.toMillis
  | some last => (max (Instant.ofMillis last) receivedAt).toMillis

theorem isWhole_seenMillis {row : ServerRow} (h : row.IsWhole) {time : Instant}
    (htime : time.isLeap = false) : Instant.IsWhole (seenMillis row time) := by
  rw [seenMillis]
  split
  · exact Instant.isWhole_toMillis htime
  · next last hlast => exact (h.lastSeen last hlast).max (Instant.isWhole_toMillis htime)

theorem isLeap_max {row : ServerRow} (h : row.IsWhole) {last : Int}
    (hlast : row.statusChangedAt = some last) {receivedAt : Instant}
    (hreceived : receivedAt.isLeap = false) :
    (max (Instant.ofMillis last) receivedAt).isLeap = false := by
  rcases max_choice (Instant.ofMillis last) receivedAt with hmax | hmax <;> rw [hmax]
  · exact (h.statusChangedAt last hlast).isLeap_ofMillis
  · exact hreceived

theorem isWhole_changeMillis {row : ServerRow} (h : row.IsWhole) {receivedAt : Instant}
    (hreceived : receivedAt.isLeap = false) : Instant.IsWhole (changeMillis row receivedAt) := by
  rw [changeMillis]
  split
  · exact Instant.isWhole_toMillis hreceived
  · next last hlast => exact Instant.isWhole_toMillis (isLeap_max h hlast hreceived)

theorem seenAfter_record {row : ServerRow} (h : row.IsWhole) {time : Instant}
    (htime : time.isLeap = false) :
    row.record.seenAfter time.floor = Instant.ofMillis (seenMillis row time) := by
  rw [ServerRecord.seenAfter, ← Instant.ofMillis_toMillis htime, seenMillis, ServerRow.record]
  cases hlast : row.lastSeen with
  | none => rfl
  | some last =>
    exact (Instant.ofMillis_max (h.lastSeen last hlast) (Instant.isWhole_toMillis htime)).symm

/-- The date is chosen before it is cut to the millisecond, which makes no difference. -/
theorem changeTime_record {row : ServerRow} (h : row.IsWhole) {receivedAt : Instant}
    (hreceived : receivedAt.isLeap = false) :
    row.record.changeTime receivedAt.floor = Instant.ofMillis (changeMillis row receivedAt) := by
  rw [ServerRecord.changeTime, changeMillis, ServerRow.record]
  cases hlast : row.statusChangedAt with
  | none => exact (Instant.ofMillis_toMillis hreceived).symm
  | some last =>
    show max (Instant.ofMillis last) receivedAt.floor =
      Instant.ofMillis (max (Instant.ofMillis last) receivedAt).toMillis
    rw [Instant.ofMillis_toMillis (isLeap_max h hlast hreceived), Instant.floor_max,
      (h.statusChangedAt last hlast).floor_ofMillis]

/-- **A heartbeat does the same to both stores.** -/
theorem heartbeat (h : Mirrors times d m) (id : String) {time receivedAt : Instant}
    (htime : time.isLeap = false) (hreceived : receivedAt.isLeap = false) :
    Agree times (d.heartbeat id time receivedAt) (m.heartbeat id time.floor receivedAt.floor) := by
  rw [DurableStore.heartbeat, h.query, MemoryStore.heartbeat, h.get?]
  cases hrow : d.row? id with
  | none => exact .error
  | some row =>
    have hwhole := h.whole_of_row? hrow
    have hseen := isWhole_seenMillis hwhole htime
    have hchange := isWhole_changeMillis hwhole hreceived
    show Agree times (if row.status = .on then _ else _) (if row.status = .on then _ else _)
    by_cases hon : row.status = .on
    · have hrecord : row.record.heartbeat time.floor receivedAt.floor =
          ServerRow.record { row with lastSeen := some (seenMillis row time) } := by
        rw [ServerRecord.heartbeat_of_on hon, seenAfter_record hwhole htime]
        rfl
      have hrow' : ServerRow.IsWhole { row with lastSeen := some (seenMillis row time) } :=
        ⟨by rintro ms ⟨⟩; exact hseen, hwhole.statusChangedAt⟩
      rw [if_pos hon, if_pos hon, hrecord]
      exact .ok (h.putRow _ hrow')
    · have hrecord : row.record.heartbeat time.floor receivedAt.floor =
          ServerRow.record { row with
            status := .on
            lastSeen := some (seenMillis row time)
            statusChangedAt := some (changeMillis row receivedAt) } := by
        rw [ServerRecord.heartbeat_of_ne hon, seenAfter_record hwhole htime,
          changeTime_record hwhole hreceived]
        rfl
      have hrow' : ServerRow.IsWhole { row with
          status := .on
          lastSeen := some (seenMillis row time)
          statusChangedAt := some (changeMillis row receivedAt) } :=
        ⟨by rintro ms ⟨⟩; exact hseen, by rintro ms ⟨⟩; exact hchange⟩
      rw [if_neg hon, if_neg hon, hrecord]
      exact .ok ((h.putRow _ hrow').log hchange)

/-- **Turning a server off does the same to both stores.** -/
theorem demote (h : Mirrors times d m) (id : String) {seenBefore now : Instant}
    (hseen : seenBefore.isLeap = false) (hnow : now.isLeap = false) :
    Agree times (d.demote id seenBefore now) (m.demote id seenBefore.floor now.floor) := by
  rw [DurableStore.demote, h.query, MemoryStore.demote, h.get?]
  cases hrow : d.row? id with
  | none => exact .error
  | some row =>
    have hwhole := h.whole_of_row? hrow
    have hsilent : row.record.isSilent seenBefore.floor = true ↔
        row.status = .on ∧ row.lastSeen.any (fun seen => seen < seenBefore.toMillis) := by
      rw [ServerRecord.isSilent, ← Instant.ofMillis_toMillis hseen]
      cases hlast : row.lastSeen with
      | none => simp [ServerRow.record, hlast]
      | some last =>
        have hlast' := hwhole.lastSeen last hlast
        simp [ServerRow.record, hlast,
          Instant.ofMillis_lt_ofMillis_iff hlast' (Instant.isWhole_toMillis hseen)]
    show Agree times (if _ then _ else _) (if row.record.isSilent seenBefore.floor then _ else _)
    by_cases hcond : row.status = .on ∧ row.lastSeen.any (fun seen => seen < seenBefore.toMillis)
    · rw [if_pos hcond, if_pos (hsilent.2 hcond)]
      have hwhole' := Instant.isWhole_toMillis hnow
      have hdemoted : row.record.demoted now.floor =
          ServerRow.record { row with status := .off, statusChangedAt := some now.toMillis } := by
        rw [← Instant.ofMillis_toMillis hnow]
        rfl
      have hchange : (⟨id, .on, .off, now.floor⟩ : Transition) =
          TransitionRow.transition ⟨id, .on, .off, now.toMillis⟩ := by
        rw [← Instant.ofMillis_toMillis hnow]
        rfl
      have hrow' : ServerRow.IsWhole
          { row with status := .off, statusChangedAt := some now.toMillis } := by
        refine ⟨hwhole.lastSeen, ?_⟩
        rintro ms ⟨⟩
        exact hwhole'
      rw [hdemoted, hchange]
      exact .ok ((h.putRow _ hrow').log hwhole')
    · rw [if_neg hcond, if_neg (mt hsilent.1 hcond)]
      exact .ok h

end Mirrors

end Pulse
