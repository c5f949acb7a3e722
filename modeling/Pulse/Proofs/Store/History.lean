import Mathlib.Data.List.Chain
import Pulse.Proofs.Store.Calls

/-!
# Records and their history

A record and the changes of its server in the log tell one story, `InStep`: the changes are in the
order of time, each starts from the status in which the one before ended, and the last one led to
the status that the record shows.  This holds after any calls, through registrations, late
heartbeats and cleaning, as long as no server is turned off with a date before its last change
(`Orderly`); a heartbeat dates a change with care, turning off does not.

* `Effect.coherent` — what one call keeps.
* `coherent_afterAll` — what calls keep.
* `orderlyAll_of_stamps` — calls whose stamps never decrease are orderly.
* `history_inStep` — the story after any calls with such stamps, from the empty store, with what the
  newest heartbeat is: the latest of those that were heard.
-/

set_option autoImplicit false

namespace Pulse

open Time (Instant)
open Ordered (Sorted)

/-! ## A record in step with its changes -/

/-- The record and the changes of its server tell the same story. -/
structure InStep (record : ServerRecord) (changes : List Transition) : Prop where
  sorted : Sorted Transition.time changes
  /-- Every change is one. -/
  changing : ∀ t ∈ changes, t.source ≠ t.target
  /-- Each change starts from where the one before ended. -/
  chained : changes.IsChain fun t u => t.target = u.source
  /-- The last change led to what the record shows. -/
  current : ∀ t, changes.getLast? = some t →
    record.status = t.target ∧ record.statusChangedAt = some t.time
  changes_eq_nil_iff : changes = [] ↔ record.status = .undefined
  undefined_iff : record.status = .undefined ↔ record.lastSeen = none
  lastSeen_eq_none_iff : record.lastSeen = none ↔ record.statusChangedAt = none

namespace InStep

variable {record : ServerRecord} {changes : List Transition}

theorem new (r : Registration) : InStep (.new r) [] where
  sorted := List.Pairwise.nil
  changing := by simp
  chained := by simp
  current := by simp
  changes_eq_nil_iff := by simp [ServerRecord.new]
  undefined_iff := by simp [ServerRecord.new]
  lastSeen_eq_none_iff := by simp [ServerRecord.new]

/-- The status, the newest heartbeat and the date of the last change are all that matters of the
record. -/
theorem congr {record' : ServerRecord} (h : InStep record changes)
    (hstatus : record'.status = record.status)
    (hseen : record'.lastSeen = none ↔ record.lastSeen = none)
    (hchanged : record'.statusChangedAt = record.statusChangedAt) : InStep record' changes where
  sorted := h.sorted
  changing := h.changing
  chained := h.chained
  current t ht := by rw [hstatus, hchanged]; exact h.current t ht
  changes_eq_nil_iff := by rw [hstatus]; exact h.changes_eq_nil_iff
  undefined_iff := by rw [hstatus, hseen]; exact h.undefined_iff
  lastSeen_eq_none_iff := by rw [hseen, hchanged]; exact h.lastSeen_eq_none_iff

/-- An end of the changes does as well, unless nothing is left. -/
theorem suffix {changes' : List Transition} (h : InStep record changes) (hs : changes' <:+ changes)
    (hnil : changes' = [] ↔ changes = []) : InStep record changes' where
  sorted := h.sorted.sublist hs.sublist
  changing t ht := h.changing t (hs.mem ht)
  chained := h.chained.suffix hs
  current t ht := by
    refine h.current t ?_
    obtain ⟨front, rfl⟩ := hs
    rw [List.getLast?_append, ht]
    rfl
  changes_eq_nil_iff := hnil.trans h.changes_eq_nil_iff
  undefined_iff := h.undefined_iff
  lastSeen_eq_none_iff := h.lastSeen_eq_none_iff

/-- No change is dated after the last one. -/
theorem time_le {u : Transition} (h : InStep record changes) (hu : u ∈ changes) :
    ∃ changed, record.statusChangedAt = some changed ∧ u.time ≤ changed := by
  rcases List.eq_nil_or_concat changes with rfl | ⟨front, t, rfl⟩
  · cases hu
  · rw [List.concat_eq_append] at h hu
    refine ⟨t.time, (h.current t (by simp)).2, ?_⟩
    rcases List.mem_append.1 hu with hu | hu
    · exact (List.pairwise_append.1 h.sorted).2.2 u hu t (by simp)
    · obtain rfl : u = t := by simpa using hu
      exact le_rfl

/-- A change from the present status that is not dated before the last one. -/
theorem append {record' : ServerRecord} {t : Transition} (h : InStep record changes)
    (hsource : t.source = record.status) (hne : t.source ≠ t.target)
    (hle : ∀ changed, record.statusChangedAt = some changed → changed ≤ t.time)
    (hstatus : record'.status = t.target) (hchanged : record'.statusChangedAt = some t.time)
    (htarget : t.target ≠ .undefined) (hseen : record'.lastSeen ≠ none) :
    InStep record' (changes ++ [t]) where
  sorted := by
    refine List.pairwise_append.2 ⟨h.sorted, List.pairwise_singleton _ t, fun u hu v hv => ?_⟩
    obtain rfl : v = t := by simpa using hv
    obtain ⟨changed, hc, hu⟩ := h.time_le hu
    exact hu.trans (hle changed hc)
  changing u hu := by
    rcases List.mem_append.1 hu with hu | hu
    · exact h.changing u hu
    · obtain rfl : u = t := by simpa using hu
      exact hne
  chained := by
    refine List.isChain_append.2 ⟨h.chained, by simp, fun u hu v hv => ?_⟩
    obtain rfl : t = v := by simpa using hv
    rw [hsource, (h.current u (by simpa using hu)).1]
  current u hu := by
    obtain rfl : t = u := by simpa using hu
    exact ⟨hstatus, hchanged⟩
  changes_eq_nil_iff := by simp [hstatus, htarget]
  undefined_iff := by simp [hstatus, htarget, hseen]
  lastSeen_eq_none_iff := by simp [hchanged, hseen]

/-- A server that is on is turned off, not before the moment at which it was turned on. -/
theorem turnedOff {now : Instant} (h : InStep record changes) (id : String)
    (hon : record.status = .on)
    (hle : ∀ changed, record.statusChangedAt = some changed → changed ≤ now) :
    InStep (record.demoted now) (changes ++ [⟨id, .on, .off, now⟩]) := by
  refine h.append hon.symm (by simp) hle rfl rfl (by simp) ?_
  show record.lastSeen ≠ none
  rw [ne_eq, ← h.undefined_iff, hon]
  simp

end InStep

/-! ## What a call keeps -/

/-- What is known about a server and its changes in the log agree; a server that is not registered
has none. -/
def Coherent : Option ServerRecord → List Transition → Prop
  | some record, changes => InStep record changes
  | none, changes => changes = []

namespace MemoryStore

/-- The call does not turn a server off with a date before its last change. -/
def Orderly (store : MemoryStore) : Call → Prop
  | ⟨.demote id seenBefore now⟩ => ∀ record changed, store.get? id = some record →
      record.isSilent seenBefore = true → record.statusChangedAt = some changed → changed ≤ now
  | _ => True

/-- What is known about each server agrees with its changes in the log. -/
def IsCoherent (store : MemoryStore) : Prop :=
  ∀ id, Coherent (store.get? id) (store.historyOf id)

theorem isCoherent_empty : empty.IsCoherent := fun _ => rfl

variable {store : MemoryStore} {id : String} {call : Call} {record' : Option ServerRecord}
  {changes' : List Transition}

theorem IsCoherent.inStep (h : store.IsCoherent) {record : ServerRecord}
    (hget : store.get? id = some record) : InStep record (store.historyOf id) := by
  have := h id
  rwa [hget] at this

theorem IsCoherent.sorted (h : store.IsCoherent) (id : String) :
    Sorted Transition.time (store.historyOf id) := by
  cases hget : store.get? id with
  | some record => exact (h.inStep hget).sorted
  | none =>
    have := h id
    rw [hget] at this
    rw [show store.historyOf id = [] from this]
    exact List.Pairwise.nil

/-- **A call keeps what is known about a server in step with its changes.** -/
theorem Effect.coherent (he : Effect store id call record' changes') (h : store.IsCoherent)
    (ho : store.Orderly call) : Coherent record' changes' := by
  cases he with
  | untouched => exact h id
  | registered _ hnew =>
    have hnone := h id
    rw [hnew] at hnone
    rw [show store.historyOf id = [] from hnone]
    exact InStep.new _
  | refreshed _ hget => exact (h.inStep hget).congr rfl Iff.rfl rfl
  | @seen record time receivedAt hget hon =>
    have hstep := h.inStep hget
    refine hstep.congr (by rw [ServerRecord.status_heartbeat, hon]) ?_
      (ServerRecord.statusChangedAt_heartbeat_of_on hon ..)
    rw [ServerRecord.lastSeen_heartbeat, ← hstep.undefined_iff, hon]
    simp
  | @turnedOn record time receivedAt hget hoff =>
    refine (h.inStep hget).append rfl hoff (fun changed hc => ?_) (ServerRecord.status_heartbeat ..)
      (ServerRecord.statusChangedAt_heartbeat_of_ne hoff ..) (by simp) ?_
    · rw [ServerRecord.changeTime, hc]
      exact le_max_left _ _
    · rw [ServerRecord.lastSeen_heartbeat]
      simp
  | @turnedOff record seenBefore now hget hsilent =>
    exact (h.inStep hget).turnedOff id (ServerRecord.status_of_isSilent hsilent)
      fun changed hc => ho record changed hget hsilent hc
  | @cleaned before =>
    have hs := changesOf_retained_suffix before (h.sorted id)
    cases hget : store.get? id with
    | some record => exact (h.inStep hget).suffix hs.1 hs.2
    | none =>
      have hnone := h id
      rw [hget] at hnone
      exact hs.2.2 hnone

theorem IsCoherent.after (h : store.IsCoherent) (ho : store.Orderly call) :
    (store.after call).IsCoherent :=
  fun id => (effect_after store id call).coherent h ho

/-! ## What calls keep -/

/-- No call turns a server off with a date before its last change. -/
def OrderlyAll : MemoryStore → List Call → Prop
  | _, [] => True
  | store, call :: calls => store.Orderly call ∧ OrderlyAll (store.after call) calls

theorem coherent_afterAll {calls : List Call} (h : store.IsCoherent) (ho : store.OrderlyAll calls) :
    (store.afterAll calls).IsCoherent := by
  induction calls generalizing store with
  | nil => exact h
  | cons call calls ih => exact ih (h.after ho.1) ho.2

/-- All servers were last changed at moments of a kind. -/
def Dated (P : Instant → Prop) (store : MemoryStore) : Prop :=
  ∀ id record changed, store.get? id = some record → record.statusChangedAt = some changed →
    P changed

theorem dated_empty (P : Instant → Prop) : empty.Dated P := by
  intro id record changed hget
  cases hget

/-- A change is dated with the stamp of the call that makes it, or with the date of the change
before. -/
theorem Dated.after {P : Instant → Prop} (h : store.Dated P) (hstamp : ∀ t ∈ call.stamp?, P t) :
    (store.after call).Dated P := by
  intro id record' changed hget hchanged
  have he := effect_after store id call
  rw [hget] at he
  generalize hr : some record' = r, (store.after call).historyOf id = changes at he
  cases he with
  | untouched => exact h id record' changed hr.symm hchanged
  | registered =>
    cases hr
    cases hchanged
  | refreshed _ hget' =>
    cases hr
    exact h id _ changed hget' hchanged
  | @seen record time receivedAt hget' hon =>
    cases hr
    rw [ServerRecord.statusChangedAt_heartbeat_of_on hon] at hchanged
    exact h id record changed hget' hchanged
  | @turnedOn record time receivedAt hget' hoff =>
    cases hr
    rw [ServerRecord.statusChangedAt_heartbeat_of_ne hoff, Option.some_inj] at hchanged
    have hP : P receivedAt := hstamp receivedAt rfl
    rw [← hchanged, ServerRecord.changeTime]
    split
    · exact hP
    · next last hlast =>
      rcases max_choice last receivedAt with hmax | hmax <;> rw [hmax]
      · exact h id record last hget' hlast
      · exact hP
  | @turnedOff record seenBefore now hget' =>
    cases hr
    obtain rfl : now = changed := by simpa [ServerRecord.demoted] using hchanged
    exact hstamp now rfl
  | cleaned => exact h id record' changed hr.symm hchanged

theorem Dated.afterAll {P : Instant → Prop} {calls : List Call} (h : store.Dated P)
    (hstamps : ∀ t ∈ stamps calls, P t) : (store.afterAll calls).Dated P := by
  induction calls generalizing store with
  | nil => exact h
  | cons call calls ih =>
    obtain ⟨hcall, hcalls⟩ := forall_mem_stamps_cons.1 hstamps
    exact ih (h.after hcall) hcalls

/-- Calls whose stamps never decrease are orderly. -/
theorem orderlyAll_of_stamps {calls : List Call} (hstamps : (stamps calls).Pairwise (· ≤ ·))
    (h : ∀ s ∈ stamps calls, store.Dated (· ≤ s)) : store.OrderlyAll calls := by
  induction calls generalizing store with
  | nil => trivial
  | cons call calls ih =>
    obtain ⟨hcross, hrest⟩ := pairwise_stamps_cons.1 hstamps
    obtain ⟨hcall, hcalls⟩ := forall_mem_stamps_cons.1 h
    refine ⟨?_, ih hrest ?_⟩
    · obtain @⟨form, request⟩ := call
      cases request with
      | demote id seenBefore now =>
        intro record changed hget _ hc
        exact hcall now rfl id record changed hget hc
      | _ => trivial
    · intro s hs
      exact (hcalls s hs).after fun t ht => hcross t ht s hs

/-- Calls whose stamps never decrease keep records and log in step, from the empty store. -/
theorem isCoherent_of_stamps {calls : List Call} (hstamps : (stamps calls).Pairwise (· ≤ ·)) :
    (empty.afterAll calls).IsCoherent :=
  coherent_afterAll isCoherent_empty (orderlyAll_of_stamps hstamps fun _ _ => dated_empty _)

/-! ## The newest heartbeat -/

/-- The times of the heartbeats that were heard of a server, in the order of the calls. -/
def heardAll (store : MemoryStore) (id : String) : List Call → List Instant
  | [] => []
  | call :: calls => (store.heard? id call).toList ++ heardAll (store.after call) id calls

/-- The newest heartbeat of a server. -/
def lastSeen? (store : MemoryStore) (id : String) : Option Instant :=
  (store.get? id).bind ServerRecord.lastSeen

/-- The later of a moment, if there is one, and another. -/
def laterOf (last : Option Instant) (time : Instant) : Option Instant :=
  some (last.elim time fun last => max last time)

theorem lastSeen?_after (store : MemoryStore) (id : String) (call : Call) :
    (store.after call).lastSeen? id =
      (store.heard? id call).toList.foldl laterOf (store.lastSeen? id) := by
  have he := effect_after store id call
  rw [lastSeen?, lastSeen?]
  generalize (store.after call).get? id = r, (store.after call).historyOf id = changes at he
  cases he with
  | untouched h => rw [h]; rfl
  | registered _ hnew => rw [hnew]; rfl
  | refreshed _ hget => rw [hget]; rfl
  | seen hget | turnedOn hget =>
    rw [heard?, isOk_heartbeat, hget, if_pos ⟨rfl, rfl⟩]
    exact ServerRecord.lastSeen_heartbeat ..
  | turnedOff hget => rw [hget]; rfl
  | cleaned => rfl

theorem lastSeen?_afterAll (store : MemoryStore) (id : String) (calls : List Call) :
    (store.afterAll calls).lastSeen? id =
      (heardAll store id calls).foldl laterOf (store.lastSeen? id) := by
  induction calls generalizing store with
  | nil => rfl
  | cons call calls ih =>
    rw [afterAll_cons, ih, lastSeen?_after, heardAll, List.foldl_append]

theorem foldl_laterOf (times : List Instant) : times.foldl laterOf none = times.max? := by
  cases times with
  | nil => rfl
  | cons time times =>
    have h : ∀ (times : List Instant) (last : Instant),
        times.foldl laterOf (some last) = some (times.foldl max last) := by
      intro times
      induction times with
      | nil => intro _; rfl
      | cons time times ih => exact fun last => ih (max last time)
    exact h times time

end MemoryStore

/-! ## Any calls -/

open MemoryStore in
/-- **Records and history stay in step.**  After any calls whose stamps never decrease, the record
of a server is in step with its changes in the log, and the newest heartbeat it shows is the latest
of those that were heard; a server that is not registered has no changes in the log. -/
theorem history_inStep (calls : List Call) (hstamps : (stamps calls).Pairwise (· ≤ ·))
    (id : String) :
    (∀ record, (empty.afterAll calls).get? id = some record →
      InStep record ((empty.afterAll calls).historyOf id) ∧
        record.lastSeen = (heardAll empty id calls).max?) ∧
      ((empty.afterAll calls).get? id = none → (empty.afterAll calls).historyOf id = []) := by
  have h := isCoherent_of_stamps hstamps
  refine ⟨fun record hget => ⟨h.inStep hget, ?_⟩, fun hnone => ?_⟩
  · have hseen := lastSeen?_afterAll empty id calls
    rw [lastSeen?, hget] at hseen
    rw [← foldl_laterOf]
    exact hseen
  · have := h id
    rwa [hnone] at this

/-- Noon of a day. -/
private def noon : Instant := .ofMillis 1728043200000

/-- Some minutes before noon. -/
private def forenoon : Instant := .ofMillis 1728043000000

/-- A server is heard, turned off and, after the log was cleaned, heard again with an older
heartbeat, all at one moment. -/
private def tiedCalls : List Call :=
  [⟨.register ⟨"a", "10.0.0.1", 30⟩⟩,
    ⟨.heartbeat "a" forenoon noon⟩,
    ⟨.demote "a" noon noon⟩, ⟨.cleanupTransitions (.ofMillis 1728086400000)⟩,
    ⟨.heartbeat "a" (.ofMillis 1641600000000) noon⟩]

open MemoryStore in
/-- The last change before the cutoff stays, and changes of one moment keep their order. -/
theorem history_inStep_tied :
    (stamps tiedCalls).Pairwise (· ≤ ·) ∧
      ∃ record, (empty.afterAll tiedCalls).get? "a" = some record ∧
        InStep record [⟨"a", .on, .off, noon⟩, ⟨"a", .off, .on, noon⟩] ∧
        record.lastSeen = some forenoon := by
  have hstamps : (stamps tiedCalls).Pairwise (· ≤ ·) := by decide
  obtain ⟨hstep, hseen⟩ := (history_inStep tiedCalls hstamps "a").1 _ rfl
  exact ⟨hstamps, _, rfl, hstep, hseen.trans (by decide)⟩

end Pulse
