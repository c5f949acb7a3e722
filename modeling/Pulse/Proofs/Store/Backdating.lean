import Pulse.Proofs.Store.Cleaning
import Pulse.Proofs.Store.Insertion
import Pulse.Proofs.Store.Watch

/-!
# Dates of changes in a database

A database that is cleaned keeps the change that was inserted last, and is asked for the newest.
These are the same as long as changes are dated in the order in which they are made, and it depends
on the calls whether they are: a heartbeat never dates a change before the one it replaces, but
turning a server off takes the date that the caller gives.

* `LogEffect` lists what a call does to the row of a server and to its changes, and
  `logEffect_after` says that there is nothing else.  The row always shows the change that was
  inserted last (`LogEffect.current`).
* `cleansUnseen_always_iff` — along a run from a fresh database, cleaning goes unseen at every point
  and up to every cutoff iff no call turns a server off with a date before its last change.
* `not_cleansUnseen_backdated` — a run of three calls after which cleaning is seen, though not with
  a store in memory.
-/

set_option autoImplicit false

namespace Pulse.DurableStore

open Mirrors (changeMillis)
open Ordered (Sorted)
open Time (Instant)

variable {store : DurableStore} {id : String} {row : TransitionRow} {rows : List TransitionRow}

/-! ## What a call does to the log -/

/-- The date of the last change of a server. -/
def changedAt? (store : DurableStore) (id : String) : Option Int :=
  (store.row? id).bind ServerRow.statusChangedAt

/-- The call does not turn a server off with a date before its last change. -/
def Orderly (store : DurableStore) : Call → Prop
  | ⟨.demote id seenBefore now⟩ => ∀ result ∈ (store.demote id seenBefore now).toOption,
      result.1 = true → ∀ changed ∈ store.changedAt? id, changed ≤ now.toMillis
  | _ => True

instance (store : DurableStore) : DecidablePred store.Orderly
  | ⟨.demote id seenBefore now⟩ =>
    inferInstanceAs (Decidable (∀ result ∈ (store.demote id seenBefore now).toOption,
      result.1 = true → ∀ changed ∈ store.changedAt? id, changed ≤ now.toMillis))
  | ⟨.register _⟩ | ⟨.get _⟩ | ⟨.list⟩ | ⟨.heartbeat _ _ _⟩ | ⟨.insertSample _⟩
  | ⟨.latestSamples _ _⟩ | ⟨.cleanupSamples _⟩ | ⟨.cleanupTransitions _⟩ | ⟨.transitions _ _⟩
  | ⟨.lastTransition _ _⟩ | ⟨.health⟩ | ⟨.close⟩ => inferInstanceAs (Decidable True)

/-- What a call does to the row of a server and to its changes. -/
inductive LogEffect (store : DurableStore) (id : String) :
    Call → Option ServerRow → List TransitionRow → Prop
  | same {call : Call} {row? : Option ServerRow}
      (hstatus : row?.elim .undefined ServerRow.status = store.statusOf id)
      (hchanged : row?.bind ServerRow.statusChangedAt = store.changedAt? id) :
      LogEffect store id call row? (store.logOf id)
  | turnedOn {row row' : ServerRow} {time receivedAt : Instant} (hrow : store.row? id = some row)
      (hstatus : row'.status = .on)
      (hchanged : row'.statusChangedAt = some (changeMillis row receivedAt)) :
      LogEffect store id ⟨.heartbeat id time receivedAt⟩ (some row')
        (store.logOf id ++ [⟨id, row.status, .on, changeMillis row receivedAt⟩])
  | turnedOff {row : ServerRow} {seenBefore now : Instant} {next : DurableStore}
      (hrow : store.row? id = some row)
      (hdemote : store.demote id seenBefore now = .ok (true, next)) :
      LogEffect store id ⟨.demote id seenBefore now⟩
        (some { row with status := .off, statusChangedAt := some now.toMillis })
        (store.logOf id ++ [⟨id, .on, .off, now.toMillis⟩])
  | cleaned {before : Instant} :
      LogEffect store id ⟨.cleanupTransitions before⟩ (store.row? id)
        (retained before.toMillis (store.logOf id))

theorem logEffect_untouched (store : DurableStore) (id : String) (call : Call) :
    LogEffect store id call (store.row? id) (store.logOf id) :=
  .same rfl rfl

@[simp]
theorem logOf_putRow (store : DurableStore) (row : ServerRow) (id : String) :
    (store.putRow row).logOf id = store.logOf id :=
  rfl

theorem logOf_log (store : DurableStore) (t : TransitionRow) (id : String) :
    (store.log t).logOf id = if t.serverId = id then store.logOf id ++ [t] else store.logOf id := by
  split_ifs with hid <;> simp [logOf, log, rowsOf, hid]

/-- A closed database keeps its log. -/
theorem transitions_after_of_closed (h : store.closed = true) (call : Call) :
    (store.after call).transitions = store.transitions := by
  obtain @⟨form, request⟩ := call
  cases request with
  | health | close => rfl
  | _ => simp only [after, run, register, heartbeat, demote, query_of_closed h]

theorem logEffect_register (hopen : store.closed = false) (id : String) (r : Registration) :
    LogEffect store id ⟨.register r⟩ ((store.after ⟨.register r⟩).row? id)
      ((store.after ⟨.register r⟩).logOf id) := by
  have hrun : store.run (.register r) = store.register r := rfl
  rw [register, query_of_open hopen] at hrun
  by_cases hzero : r.interval = 0
  · rw [if_pos hzero] at hrun
    rw [after_of_error hrun]
    exact logEffect_untouched ..
  · rw [if_neg hzero] at hrun
    rw [after_of_ok hrun, row?_putRow, logOf_putRow]
    cases hrow : store.row? r.serverId with
    | none =>
      show LogEffect store id _ (if r.serverId = id then _ else _) _
      split_ifs with hid
      · rw [hid] at hrow
        exact .same (by simp [statusOf, hrow]) (by simp [changedAt?, hrow])
      · exact logEffect_untouched ..
    | some row =>
      show LogEffect store id _ (if row.serverId = id then _ else _) _
      split_ifs with hid
      · rw [← serverId_of_row? hrow, hid] at hrow
        exact .same (by simp [statusOf, hrow]) (by simp [changedAt?, hrow])
      · exact logEffect_untouched ..

/-- What a heartbeat comes to, if the row of the server is there. -/
theorem after_heartbeat_of_row? {row : ServerRow} (hopen : store.closed = false)
    (hrow : store.row? id = some row) (time receivedAt : Instant) :
    store.after ⟨.heartbeat id time receivedAt⟩ =
      let seen := { row with lastSeen := some (Mirrors.seenMillis row time) }
      let changed := changeMillis row receivedAt
      if row.status = .on then store.putRow seen
      else
        (store.putRow { seen with status := .on, statusChangedAt := some changed }).log
          ⟨id, row.status, .on, changed⟩ := by
  have hrun : store.run (.heartbeat id time receivedAt) = store.heartbeat id time receivedAt := rfl
  rw [heartbeat, query_of_open hopen, hrow] at hrun
  by_cases hon : row.status = .on
  · rw [after_of_ok (hrun.trans (if_pos hon))]
    exact (if_pos hon).symm
  · rw [after_of_ok (hrun.trans (if_neg hon))]
    exact (if_neg hon).symm

theorem logEffect_heartbeat (hopen : store.closed = false) (id id' : String)
    (time receivedAt : Instant) :
    LogEffect store id ⟨.heartbeat id' time receivedAt⟩
      ((store.after ⟨.heartbeat id' time receivedAt⟩).row? id)
      ((store.after ⟨.heartbeat id' time receivedAt⟩).logOf id) := by
  cases hrow : store.row? id' with
  | none =>
    have hrefused : store.heartbeat id' time receivedAt = .error (.unknownServer id') := by
      rw [heartbeat, query_of_open hopen, hrow]
    have hafter : store.after ⟨.heartbeat id' time receivedAt⟩ = store := after_of_error hrefused
    rw [hafter]
    exact logEffect_untouched ..
  | some row =>
    have hid := serverId_of_row? hrow
    rw [after_heartbeat_of_row? hopen hrow]
    by_cases hon : row.status = .on
    · simp only [hon, if_true, row?_putRow, logOf_putRow, hid]
      split_ifs with hsame
      · rw [hsame] at hrow
        exact .same (by simp [statusOf, hrow, hon]) (by simp [changedAt?, hrow])
      · exact logEffect_untouched ..
    · simp only [hon, if_false, row?_log, row?_putRow, logOf_log, logOf_putRow, hid]
      split_ifs with hsame
      · subst hsame
        exact .turnedOn hrow rfl rfl
      · exact logEffect_untouched ..

theorem logEffect_demote (hopen : store.closed = false) (id id' : String)
    (seenBefore now : Instant) :
    LogEffect store id ⟨.demote id' seenBefore now⟩
      ((store.after ⟨.demote id' seenBefore now⟩).row? id)
      ((store.after ⟨.demote id' seenBefore now⟩).logOf id) := by
  cases hrow : store.row? id' with
  | none =>
    have hrefused : store.demote id' seenBefore now = .error (.unknownServer id') := by
      rw [demote, query_of_open hopen, hrow]
    have hafter : store.after ⟨.demote id' seenBefore now⟩ = store := after_of_error hrefused
    rw [hafter]
    exact logEffect_untouched ..
  | some row =>
    have hid := serverId_of_row? hrow
    have hdemote := demote_of_row? hopen hrow seenBefore now
    split_ifs at hdemote with hsilent
    · have hafter : store.after ⟨.demote id' seenBefore now⟩ = _ := after_of_ok hdemote
      rw [hafter, row?_log, row?_putRow, logOf_log, logOf_putRow]
      by_cases hsame : id' = id
      · subst hsame
        rw [if_pos hid, if_pos rfl]
        exact .turnedOff hrow hdemote
      · rw [if_neg (hid.trans_ne hsame), if_neg hsame]
        exact logEffect_untouched ..
    · have hafter : store.after ⟨.demote id' seenBefore now⟩ = store := after_of_ok hdemote
      rw [hafter]
      exact logEffect_untouched ..

/-- **A call does to the row of a server and to its changes what `LogEffect` lists, and nothing
else.** -/
theorem logEffect_after (store : DurableStore) (id : String) (call : Call) :
    LogEffect store id call ((store.after call).row? id) ((store.after call).logOf id) := by
  cases hclosed : store.closed with
  | true =>
    rw [row?, servers_after_of_closed hclosed, logOf, transitions_after_of_closed hclosed]
    exact logEffect_untouched ..
  | false =>
    obtain @⟨form, request⟩ := call
    cases request with
    | register r => exact logEffect_register hclosed id r
    | heartbeat id' time receivedAt => exact logEffect_heartbeat hclosed id id' time receivedAt
    | demote id' seenBefore now => exact logEffect_demote hclosed id id' seenBefore now
    | cleanupTransitions before =>
      have hafter : store.after ⟨.cleanupTransitions before⟩ = store.cleaned before :=
        after_of_ok (query_of_open hclosed)
      rw [hafter, logOf_cleaned]
      exact .cleaned
    | health | close => exact logEffect_untouched ..
    | _ =>
      simp only [after, run, query_of_open hclosed]
      exact logEffect_untouched ..

/-! ## Rows and changes -/

/-- The row of a server shows what the change says that was inserted last. -/
structure Current (row? : Option ServerRow) (rows : List TransitionRow) : Prop where
  status : row?.elim .undefined ServerRow.status =
    rows.getLast?.elim .undefined TransitionRow.target
  changedAt : row?.bind ServerRow.statusChangedAt = rows.getLast?.map TransitionRow.time

/-- Changes are dated in the order of insertion, at moments that can be read back. -/
structure InOrder (rows : List TransitionRow) : Prop where
  sorted : Sorted TransitionRow.time rows
  whole : ∀ row ∈ rows, Instant.IsWhole row.time

variable {call : Call} {row? : Option ServerRow}

/-- **A call keeps the row of a server in step with the change inserted last.** -/
theorem LogEffect.current (he : LogEffect store id call row? rows)
    (h : Current (store.row? id) (store.logOf id)) : Current row? rows := by
  cases he with
  | same hstatus hchanged => exact ⟨hstatus.trans h.status, hchanged.trans h.changedAt⟩
  | turnedOn hrow hstatus hchanged => exact ⟨by simp [hstatus], by simp [hchanged]⟩
  | turnedOff => exact ⟨by simp, by simp⟩
  | cleaned => exact ⟨by rw [getLast?_retained, h.status], by rw [getLast?_retained, h.changedAt]⟩

/-- The date with which a heartbeat turns a server on is not before the last change. -/
theorem changeMillis_spec {row : ServerRow} {receivedAt : Instant}
    (hlast : ∀ last ∈ row.statusChangedAt, Instant.IsWhole last)
    (hreceived : Instant.IsWhole receivedAt.toMillis) :
    Instant.IsWhole (changeMillis row receivedAt) ∧
      ∀ last ∈ row.statusChangedAt, last ≤ changeMillis row receivedAt := by
  rw [changeMillis]
  cases hchanged : row.statusChangedAt with
  | none => exact ⟨hreceived, by simp⟩
  | some last =>
    have hwhole := hlast last hchanged
    have hle : Instant.ofMillis last ≤ max (Instant.ofMillis last) receivedAt := le_max_left _ _
    have hmillis := Instant.toMillis_le_toMillis hwhole.isLeap_ofMillis hle
    rw [hwhole.toMillis_ofMillis] at hmillis
    refine ⟨?_, by simpa using hmillis⟩
    show Instant.IsWhole (max (Instant.ofMillis last) receivedAt).toMillis
    rcases max_choice (Instant.ofMillis last) receivedAt with hmax | hmax
    · rw [hmax, hwhole.toMillis_ofMillis]
      exact hwhole
    · rw [hmax]
      exact hreceived

theorem inOrder_nil : InOrder [] :=
  ⟨List.Pairwise.nil, by simp⟩

theorem InOrder.sublist {rows' : List TransitionRow} (h : InOrder rows) (hs : rows'.Sublist rows) :
    InOrder rows' :=
  ⟨h.sorted.sublist hs, fun row hrow => h.whole row (hs.mem hrow)⟩

/-- The last change of a server is dated at a moment that can be read back. -/
theorem InOrder.isWhole (h : InOrder rows) (hcurrent : Current row? rows) {changed : Int}
    (hchanged : changed ∈ row?.bind ServerRow.statusChangedAt) : Instant.IsWhole changed := by
  rw [hcurrent.changedAt] at hchanged
  obtain ⟨last, hlast, rfl⟩ := Option.map_eq_some_iff.1 hchanged
  exact h.whole last (List.mem_of_getLast? hlast)

/-- A change that is not dated before the last one. -/
theorem InOrder.append (h : InOrder rows) (hcurrent : Current row? rows)
    (hwhole : Instant.IsWhole row.time)
    (hlater : ∀ changed ∈ row?.bind ServerRow.statusChangedAt, changed ≤ row.time) :
    InOrder (rows ++ [row]) := by
  constructor
  · refine sorted_append_singleton h.sorted fun other hother => ?_
    have hsome : rows.getLast?.isSome := List.getLast?_isSome.2 (List.ne_nil_of_mem hother)
    obtain ⟨last, hlast⟩ := Option.isSome_iff_exists.1 hsome
    have hle : other.time ≤ last.time := time_le_of_getLast? h.sorted hlast hother
    refine hle.trans (hlater last.time ?_)
    rw [hcurrent.changedAt, hlast]
    rfl
  · intro other hother
    rcases List.mem_append.1 hother with hother | hother
    · exact h.whole other hother
    · exact List.mem_singleton.1 hother ▸ hwhole

/-- **A call that does not turn a server off with an earlier date keeps changes in order.** -/
theorem LogEffect.inOrder (he : LogEffect store id call row? rows)
    (hcurrent : Current (store.row? id) (store.logOf id)) (h : InOrder (store.logOf id))
    (hstamp : ∀ s ∈ call.stamp?, Instant.IsWhole s.toMillis) (ho : store.Orderly call) :
    InOrder rows := by
  cases he with
  | same => exact h
  | @turnedOn row row' time receivedAt hrow hstatus hchanged =>
    have hlast : ∀ last ∈ row.statusChangedAt, Instant.IsWhole last := by
      intro last hlast
      exact h.isWhole hcurrent (by simpa [hrow] using hlast)
    obtain ⟨hwhole, hle⟩ := changeMillis_spec hlast (hstamp receivedAt rfl)
    refine h.append hcurrent hwhole fun changed hchanged => ?_
    exact hle changed (by simpa [hrow] using hchanged)
  | @turnedOff row seenBefore now next hrow hdemote =>
    refine h.append hcurrent (hstamp now rfl) fun changed hchanged => ?_
    exact ho (true, next) (by rw [hdemote]; rfl) rfl changed hchanged
  | cleaned => exact h.sublist (Mirrors.retained_sublist _ _)

/-! ## Along a run -/

/-- The store after calls, one after the other. -/
def afterAll (store : DurableStore) (calls : List Call) : DurableStore :=
  calls.foldl after store

/-- No call turns a server off with a date before its last change. -/
def OrderlyAll : DurableStore → List Call → Prop
  | _, [] => True
  | store, call :: calls => store.Orderly call ∧ OrderlyAll (store.after call) calls

instance decidableOrderlyAll : (store : DurableStore) → (calls : List Call) →
    Decidable (store.OrderlyAll calls)
  | _, [] => inferInstanceAs (Decidable True)
  | store, call :: calls =>
    have := decidableOrderlyAll (store.after call) calls
    inferInstanceAs (Decidable (store.Orderly call ∧ OrderlyAll (store.after call) calls))

/-- Cleaning, up to whatever cutoff, goes unseen by those who ask for the last change of a server
before a moment from the cutoff on. -/
def CleansUnseen (store : DurableStore) : Prop :=
  ∀ id (cutoff time : Instant), cutoff.toMillis ≤ time.toMillis →
    (store.cleaned cutoff).lastTransition? id time = store.lastTransition? id time

/-- Of every server the row agrees with the changes, which are in order. -/
def IsFiled (store : DurableStore) : Prop :=
  ∀ id, Current (store.row? id) (store.logOf id) ∧ InOrder (store.logOf id)

theorem isFiled_empty : empty.IsFiled :=
  fun _ => ⟨⟨rfl, rfl⟩, inOrder_nil⟩

theorem IsFiled.after (h : store.IsFiled) (hstamp : ∀ s ∈ call.stamp?, Instant.IsWhole s.toMillis)
    (ho : store.Orderly call) : (store.after call).IsFiled := by
  intro id
  have he := store.logEffect_after id call
  obtain ⟨hcurrent, hinOrder⟩ := h id
  exact ⟨he.current hcurrent, he.inOrder hcurrent hinOrder hstamp ho⟩

/-- As long as changes are in order, cleaning goes unseen. -/
theorem IsFiled.cleansUnseen (h : store.IsFiled) : store.CleansUnseen := by
  intro id cutoff
  have hsorted : Sorted TransitionRow.time (rowsBefore cutoff.toMillis (store.logOf id)) :=
    (h id).2.sorted.sublist List.filter_sublist
  rw [lastTransition?_cleaned_iff, lastTransition?_eq_newest?, newest?_eq_getLast? hsorted,
    lastInserted?]

theorem exists_lt_toMillis {ms : Int} (h : Instant.IsWhole ms) :
    ∃ cutoff : Instant, ms < cutoff.toMillis := by
  obtain ⟨t, ht, rfl⟩ := h
  have hnano : t.nano < 1000000000 := by simpa [Instant.isLeap] using ht
  have hsecond := t.second_lt
  have hday := t.le_last
  refine ⟨⟨Time.lastDay, 86399, 1999999999, by decide, le_rfl, by decide, by decide, by decide⟩, ?_⟩
  simp only [Instant.toMillis]
  omega

/-- The change that turning a server off brings. -/
theorem logOf_of_demote {seenBefore now : Instant} {next : DurableStore}
    (h : store.demote id seenBefore now = .ok (true, next)) :
    store.statusOf id = .on ∧
      next.logOf id = store.logOf id ++ [⟨id, .on, .off, now.toMillis⟩] := by
  cases hclosed : store.closed with
  | true =>
    rw [demote, query_of_closed hclosed] at h
    cases h
  | false =>
    cases hrow : store.row? id with
    | none =>
      rw [demote, query_of_open hclosed, hrow] at h
      cases h
    | some row =>
      rw [demote_of_row? hclosed hrow] at h
      split_ifs at h with hsilent
      · cases h
        exact ⟨by simp [statusOf, hrow, hsilent.1], by simp [logOf_log]⟩
      · cases h

/-- Turning a server off with a date before its last change makes cleaning seen: the newest change
is still the one that turned the server on. -/
theorem IsFiled.not_cleansUnseen {seenBefore now : Instant} {next : DurableStore} {changed : Int}
    (h : store.IsFiled) (hdemote : store.demote id seenBefore now = .ok (true, next))
    (hchanged : changed ∈ store.changedAt? id) (hback : now.toMillis < changed) :
    ¬ next.CleansUnseen := by
  intro hunseen
  obtain ⟨hcurrent, hinOrder⟩ := h id
  obtain ⟨hon, hlog⟩ := logOf_of_demote hdemote
  obtain ⟨last, hlast, rfl⟩ := Option.map_eq_some_iff.1 (hcurrent.changedAt.symm.trans hchanged)
  have htarget : last.target = .on := by
    have hstatus : store.statusOf id = _ := hcurrent.status
    rw [hon, hlast] at hstatus
    exact hstatus.symm
  obtain ⟨cutoff, hcutoff⟩ := exists_lt_toMillis (hinOrder.whole last (List.mem_of_getLast? hlast))
  have hall : rowsBefore cutoff.toMillis (next.logOf id) = next.logOf id := by
    refine List.filter_eq_self.2 fun row hrow => decide_eq_true ?_
    rw [hlog] at hrow
    rcases List.mem_append.1 hrow with hrow | hrow
    · exact (time_le_of_getLast? hinOrder.sorted hlast hrow).trans_lt hcutoff
    · exact List.mem_singleton.1 hrow ▸ hback.trans hcutoff
  have hnewest : newest? (next.logOf id) = some last := by
    rw [newest?_eq_some_iff, hlog, Ordered.isLast_append_singleton]
    rw [← newest?_eq_getLast? hinOrder.sorted, newest?_eq_some_iff] at hlast
    exact .inr ⟨hlast, hback⟩
  have hsame := lastTransition?_cleaned_iff.1 (hunseen id cutoff)
  rw [lastTransition?_eq_newest?, lastInserted?, hall, hnewest, hlog] at hsame
  have htargets := congrArg (Option.map Transition.target) hsame
  simp [TransitionRow.transition, htarget] at htargets

/-- A call after which cleaning goes unseen was orderly. -/
theorem IsFiled.orderly (h : store.IsFiled) (hunseen : (store.after call).CleansUnseen) :
    store.Orderly call := by
  obtain @⟨form, request⟩ := call
  cases request with
  | demote id seenBefore now =>
    rintro ⟨done, next⟩ hresult hdone changed hchanged
    obtain rfl : done = true := hdone
    have hdemote : store.demote id seenBefore now = .ok (true, next) := by
      cases hrun : store.demote id seenBefore now with
      | error e => simp [hrun, Except.toOption] at hresult
      | ok a => simpa [hrun, Except.toOption] using hresult
    have hafter : store.after ⟨.demote id seenBefore now⟩ = next := after_of_ok hdemote
    rw [hafter] at hunseen
    by_contra hback
    exact h.not_cleansUnseen hdemote hchanged (not_le.1 hback) hunseen
  | _ => trivial

theorem IsFiled.cleansUnseen_iff {calls : List Call} (h : store.IsFiled)
    (hstamps : ∀ s ∈ stamps calls, Instant.IsWhole s.toMillis) :
    (∀ passed, passed <+: calls → (store.afterAll passed).CleansUnseen) ↔
      store.OrderlyAll calls := by
  induction calls generalizing store with
  | nil => simpa [OrderlyAll, afterAll] using h.cleansUnseen
  | cons call calls ih =>
    obtain ⟨hstamp, hrest⟩ := forall_mem_stamps_cons.1 hstamps
    constructor
    · intro hunseen
      have ho : store.Orderly call := h.orderly (hunseen [call] (by simp))
      refine ⟨ho, (ih (h.after hstamp ho) hrest).1 fun passed hpassed => ?_⟩
      exact hunseen (call :: passed) (List.cons_prefix_cons.2 ⟨rfl, hpassed⟩)
    · rintro ⟨ho, hall⟩ passed hpassed
      cases passed with
      | nil => exact h.cleansUnseen
      | cons call' passed =>
        obtain ⟨rfl, hbehind⟩ := List.cons_prefix_cons.1 hpassed
        exact (ih (h.after hstamp ho) hrest).2 hall passed hbehind

/-- **Cleaning goes unseen at every point of a run from a fresh database, up to whatever cutoff, iff
no call of the run turns a server off with a date before its last change.**  The only stamps left
out are those in a leap second at the very end of the calendar, which cannot be read back. -/
theorem cleansUnseen_always_iff (calls : List Call)
    (hstamps : ∀ s ∈ stamps calls, Instant.IsWhole s.toMillis) :
    (∀ passed, passed <+: calls → (empty.afterAll passed).CleansUnseen) ↔
      empty.OrderlyAll calls :=
  isFiled_empty.cleansUnseen_iff hstamps

/-- So many seconds past noon. -/
private def pastNoon (seconds : Nat) : Instant :=
  (Instant.normalize? 20000 (43200 + seconds) 0).getD .last

/-- A server is turned off with the date of its last change, which is late, and comes back at an
earlier moment. -/
private def tidyCalls : List Call :=
  [⟨.register ⟨"a", "10.0.0.1", 30⟩⟩, ⟨.heartbeat "a" (pastNoon 0) (pastNoon 10)⟩,
    ⟨.demote "a" (pastNoon 5) (pastNoon 10)⟩, ⟨.cleanupTransitions (pastNoon 8)⟩,
    ⟨.heartbeat "a" (pastNoon 6) (pastNoon 7)⟩]

theorem cleansUnseen_always_tidy :
    (∀ s ∈ stamps tidyCalls, Instant.IsWhole s.toMillis) ∧
      ∀ passed, passed <+: tidyCalls → (empty.afterAll passed).CleansUnseen := by
  have hstamps : ∀ s ∈ stamps tidyCalls, s.isLeap = false := by decide +kernel
  have hwhole : ∀ s ∈ stamps tidyCalls, Instant.IsWhole s.toMillis :=
    fun s hs => Instant.isWhole_toMillis (hstamps s hs)
  exact ⟨hwhole, (cleansUnseen_always_iff tidyCalls hwhole).2 (by decide +kernel)⟩

/-- A server is turned off with a date five seconds before its last change. -/
private def backdatedCalls : List Call :=
  [⟨.register ⟨"a", "10.0.0.1", 30⟩⟩, ⟨.heartbeat "a" (pastNoon 0) (pastNoon 10)⟩,
    ⟨.demote "a" (pastNoon 5) (pastNoon 5)⟩]

/-- **Cleaning is seen after an earlier date**: the newest change, which turned the server on, is
gone, though a store in memory keeps it. -/
theorem not_cleansUnseen_backdated :
    ¬ (empty.afterAll backdatedCalls).CleansUnseen ∧
      (empty.afterAll backdatedCalls).lastTransition? "a" (pastNoon 60) =
        some ⟨"a", .undefined, .on, pastNoon 10⟩ ∧
      ((empty.afterAll backdatedCalls).cleaned (pastNoon 60)).lastTransition? "a" (pastNoon 60) =
        some ⟨"a", .on, .off, pastNoon 5⟩ ∧
      ((MemoryStore.empty.afterAll backdatedCalls).cleaned (pastNoon 60)).lastTransition? "a"
          (pastNoon 60) = some ⟨"a", .undefined, .on, pastNoon 10⟩ := by
  refine ⟨fun hunseen => ?_, by decide +kernel⟩
  have hseen : ((empty.afterAll backdatedCalls).cleaned (pastNoon 60)).lastTransition? "a"
      (pastNoon 60) ≠ (empty.afterAll backdatedCalls).lastTransition? "a" (pastNoon 60) := by
    decide +kernel
  exact hseen (hunseen "a" (pastNoon 60) (pastNoon 60) le_rfl)

end Pulse.DurableStore
