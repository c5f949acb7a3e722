import Pulse.Proofs.Store.Timeline
import Pulse.Proofs.Time.Shift
import Pulse.Report

/-!
# What a daily report says

A report on a day asks the store three things: the changes of the day, the records, and for each
server its last change before the day.  This file says that the answers fit together, whatever
happened before: each server has one row, with the number of its changes on that day, and what was
asked about it tells its status at every moment of the day (`Faithful`, `build_faithful`).  The log
may have been cleaned in the meantime, up to the beginning of the day at most.
-/

set_option autoImplicit false

namespace Pulse

open Time (Date Instant Span)
open Ordered (Ascending)

/-- Asks a store in memory, which keeps what the request does to it. -/
def MemoryStore.ask {form : Store.Form} (request : Store.Request form) :
    StateM MemoryStore (Except StorageError form.Answer) := fun store =>
  match store.run request with
  | .ok (answer, next) => (.ok answer, next)
  | .error e => (.error e, store)

namespace DailyReport

variable {store : MemoryStore} {start stop : Instant} {changes : List Transition}

/-! ## Rows -/

/-- The row shows a server, its status and the number of its changes. -/
structure IsRowOf (changes : List Transition) (record : ServerRecord) (row : ServerUptime) :
    Prop where
  serverId : row.serverId = record.serverId
  status : row.status = record.status
  transitions : row.transitions = (MemoryStore.changesOf record.serverId changes).length

/-- A stretch of time that does not end before it starts has a share for which a server was on. -/
theorem exists_uptimePercent (h : start ≤ stop) (initial : Status) (changes : List Transition) :
    ∃ percent, Pulse.uptimePercent initial changes start stop = .ok percent := by
  rw [Pulse.uptimePercent]
  split_ifs with htotal hback
  · exact ⟨_, rfl⟩
  · exact absurd hback.1 (not_lt.2 h)
  · exact ⟨_, rfl⟩

theorem row_eq (start stop : Instant) (changes : List Transition) (record : ServerRecord)
    (before : Option Transition) :
    row start stop changes record before =
      let own := MemoryStore.changesOf record.serverId changes
      (Pulse.uptimePercent (before.elim .undefined Transition.target) own start stop).map
        fun percent => ⟨record.serverId, record.status, percent, own.length⟩ := by
  cases before <;> rfl

theorem exists_row (h : start ≤ stop) (changes : List Transition) (record : ServerRecord)
    (before : Option Transition) :
    ∃ r, row start stop changes record before = .ok r ∧ IsRowOf changes record r := by
  obtain ⟨percent, hpercent⟩ := exists_uptimePercent h
    (before.elim .undefined Transition.target) (MemoryStore.changesOf record.serverId changes)
  refine ⟨⟨record.serverId, record.status, percent, _⟩, ?_, rfl, rfl, rfl⟩
  simp only [row_eq, hpercent]
  rfl

/-- **Every record gets its row**, and the store is left as it is. -/
theorem exists_rows (h : start ≤ stop) (store : MemoryStore) (changes : List Transition)
    (records : List ServerRecord) :
    ∃ servers, rows MemoryStore.ask start stop changes records store = (.ok (.ok servers), store) ∧
      List.Forall₂ (IsRowOf changes) records servers := by
  induction records with
  | nil => exact ⟨[], rfl, .nil⟩
  | cons record rest ih =>
    obtain ⟨servers, hservers, hrows⟩ := ih
    obtain ⟨r, hr, hrow⟩ :=
      exists_row h changes record (store.lastTransition? record.serverId start)
    refine ⟨r :: servers, ?_, .cons hrow hrows⟩
    have hlast : MemoryStore.ask (.lastTransition record.serverId start) store =
        (.ok (store.lastTransition? record.serverId start), store) :=
      rfl
    simp only [rows, bind, StateT.bind, hlast, hr, hservers]
    rfl

theorem map_serverId_of_rows {records : List ServerRecord} {servers : List ServerUptime}
    (h : List.Forall₂ (IsRowOf changes) records servers) :
    servers.map ServerUptime.serverId = records.map ServerRecord.serverId := by
  induction h with
  | nil => rfl
  | cons hrow _ ih => rw [List.map_cons, List.map_cons, hrow.serverId, ih]

theorem exists_record_of_rows {records : List ServerRecord} {servers : List ServerUptime}
    (h : List.Forall₂ (IsRowOf changes) records servers) {row : ServerUptime}
    (hmem : row ∈ servers) : ∃ record ∈ records, IsRowOf changes record row := by
  induction h with
  | nil => cases hmem
  | cons hrow _ ih =>
    rcases List.mem_cons.1 hmem with rfl | hmem
    · exact ⟨_, List.mem_cons_self, hrow⟩
    · obtain ⟨record, hrecord, hrow⟩ := ih hmem
      exact ⟨record, List.mem_cons_of_mem _ hrecord, hrow⟩

/-- Every server is in one of the three statuses. -/
theorem count_add_count_add_count (servers : List ServerUptime) :
    countStatus .on servers + countStatus .off servers + countStatus .undefined servers =
      servers.length := by
  induction servers with
  | nil => rfl
  | cons row rest ih =>
    simp only [countStatus] at ih ⊢
    cases hstatus : row.status <;> simp [hstatus] <;> omega

/-! ## The day -/

/-- A day that has started and is not the last has a part that has passed. -/
theorem window?_eq {day : Date} {now midnight : Instant}
    (hmidnight : (Instant.ofDate day).add? (Span.ofDays 1) = some midnight)
    (hnow : Instant.ofDate day < now) :
    window? day now = .ok (some (Instant.ofDate day, min midnight now)) := by
  have hlt : Instant.ofDate day < min midnight now :=
    lt_min (Instant.lt_of_add?_eq_some (by decide) hmidnight) hnow
  rw [window?, Instant.add, hmidnight]
  show Except.ok (if min midnight now ≤ Instant.ofDate day then none else _) = _
  rw [if_neg (not_le.2 hlt)]

open MemoryStore

/-- The report tells what happened between `start` and `stop` in the course of the calls. -/
structure Faithful (calls : List Call) (start stop : Instant) (report : DailyReport) : Prop where
  ascending : Ascending ServerUptime.serverId report.servers
  /-- There are rows for the registered servers and no others. -/
  registered : ∀ id, (∃ row ∈ report.servers, row.serverId = id) ↔
    ((empty.afterAll calls).get? id).isSome
  total : report.totalServers = report.servers.length
  counted : report.online + report.offline + report.undefined = report.totalServers
  status : ∀ row ∈ report.servers, row.status = (empty.afterAll calls).statusOf row.serverId
  transitions : ∀ row ∈ report.servers, row.transitions =
    ((empty.statusChanges row.serverId calls).filter
      fun t => start ≤ t.time && t.time < stop).length
  /-- The answers of the store on which a row rests tell the status at every moment. -/
  told : ∀ id time, start ≤ time → time < stop →
    let store := empty.afterAll calls
    statusAt time (store.statusBefore id start)
        (changesOf id (store.transitionsBetween start stop)) =
      (empty.afterAll (callsUntil time calls)).statusOf id

theorem ofRows_faithful {calls : List Call} {day : Date} {now : Instant}
    {servers : List ServerUptime} (hstamps : (stamps calls).Pairwise (· ≤ ·))
    (hcutoffs : ∀ cutoff ∈ cutoffs calls, cutoff ≤ start)
    (hrows : List.Forall₂ (IsRowOf ((empty.afterAll calls).transitionsBetween start stop))
      (empty.afterAll calls).records servers) :
    Faithful calls start stop (ofRows day now servers) where
  ascending := by
    have h := ascending_records calls
    rw [Ascending, ← List.pairwise_map] at h
    rw [Ascending, ← List.pairwise_map]
    show (servers.map ServerUptime.serverId).Pairwise _
    rwa [map_serverId_of_rows hrows]
  registered id := by
    have hids : (∃ row ∈ servers, row.serverId = id) ↔
        ∃ record ∈ (empty.afterAll calls).records, record.serverId = id := by
      rw [← List.mem_map, map_serverId_of_rows hrows, List.mem_map]
    show (∃ row ∈ servers, row.serverId = id) ↔ _
    rw [hids, get?, Ordered.get?, List.find?_isSome]
    simp
  total := rfl
  counted := count_add_count_add_count servers
  status row hrow := by
    obtain ⟨record, hrecord, hof⟩ := exists_record_of_rows hrows hrow
    have h := ascending_records calls
    have hget : (empty.afterAll calls).get? row.serverId = some record :=
      h.get?_eq_some_iff.2 ⟨hrecord, hof.serverId.symm⟩
    rw [hof.status, statusOf, hget]
    rfl
  transitions row hrow := by
    obtain ⟨record, -, hof⟩ := exists_record_of_rows hrows hrow
    have hkept := recordedSince_afterAll hstamps hcutoffs row.serverId
    rw [hof.transitions, ← hof.serverId,
      hkept.changesOf_transitionsBetween ((isCoherent_of_stamps hstamps).sorted _)]
  told id time hstart hstop := statusAt_transitionsBetween hstamps hcutoffs id hstart hstop

/-- **A daily report is faithful to what happened.**  After any calls whose stamps never decrease
and which do not clean the log beyond the beginning of the day, there is a report on every day that
has started and is not the last, and it tells what happened on that day, or on the part of it that
has passed. -/
theorem build_faithful (calls : List Call) (day : Date) (now midnight : Instant)
    (hstamps : (stamps calls).Pairwise (· ≤ ·))
    (hcutoffs : ∀ cutoff ∈ cutoffs calls, cutoff ≤ Instant.ofDate day)
    (hmidnight : (Instant.ofDate day).add? (Span.ofDays 1) = some midnight)
    (hnow : Instant.ofDate day < now) :
    ∃ report,
      build MemoryStore.ask day now (empty.afterAll calls) =
        (.ok (.ok report), empty.afterAll calls) ∧
      Faithful calls (Instant.ofDate day) (min midnight now) report := by
  generalize hstore : empty.afterAll calls = store
  have hle : Instant.ofDate day ≤ min midnight now :=
    le_min (Instant.lt_of_add?_eq_some (by decide) hmidnight).le hnow.le
  have hsorted : Ordered.sortBy ServerRecord.serverId store.records = store.records :=
    Ordered.sortBy_eq_self (hstore ▸ (ascending_records calls).imp fun h => h.le)
  obtain ⟨servers, hservers, hrows⟩ := exists_rows hle store
    (store.transitionsBetween (Instant.ofDate day) (min midnight now)) store.records
  refine ⟨ofRows day now servers, ?_, ofRows_faithful hstamps hcutoffs (hstore ▸ hrows)⟩
  have htransitions : MemoryStore.ask (.transitions (Instant.ofDate day) (min midnight now)) store =
      (.ok (store.transitionsBetween (Instant.ofDate day) (min midnight now)), store) :=
    rfl
  have hlist : MemoryStore.ask .list store = (.ok store.records, store) := rfl
  simp only [build, window?_eq hmidnight hnow, bind, StateT.bind, htransitions, hlist, hsorted,
    hservers]
  rfl

/-- A day, with moments of the evening before, of its morning, and noon. -/
private def today : Date := (Instant.ofMillis 1728000000000).date

private def evening : Instant := .ofMillis 1727993600000

private def lateEvening : Instant := .ofMillis 1727994600000

private def morning : Instant := .ofMillis 1728030000000

private def midday : Instant := .ofMillis 1728043200000

/-- A server is turned on and off on the day before and turned on again at midnight; then the log is
cleaned up to midnight, and the server is turned off and on at one moment in the morning.  Another
server is never heard. -/
private def busyCalls : List Call :=
  [⟨.register ⟨"b", "10.0.0.2", 30⟩⟩, ⟨.register ⟨"a", "10.0.0.1", 30⟩⟩,
    ⟨.heartbeat "a" evening evening⟩, ⟨.demote "a" lateEvening lateEvening⟩,
    ⟨.heartbeat "a" (.ofDate today) (.ofDate today)⟩, ⟨.cleanupTransitions (.ofDate today)⟩,
    ⟨.demote "a" morning morning⟩, ⟨.heartbeat "a" evening morning⟩]

/-- A report at noon counts the change at midnight and both changes of one moment. -/
theorem build_faithful_busy :
    (stamps busyCalls).Pairwise (· ≤ ·) ∧
      (∀ cutoff ∈ cutoffs busyCalls, cutoff ≤ Instant.ofDate today) ∧
      (Instant.ofDate today).add? (Span.ofDays 1) =
        some (.ofMillis 1728086400000) ∧
      Instant.ofDate today < midday ∧
      ∃ report row,
        build MemoryStore.ask today midday (empty.afterAll busyCalls) =
          (.ok (.ok report), empty.afterAll busyCalls) ∧
        row ∈ report.servers ∧ row.serverId = "a" ∧ row.transitions = 3 := by
  have hstamps : (stamps busyCalls).Pairwise (· ≤ ·) := by decide
  have hcutoffs : ∀ cutoff ∈ cutoffs busyCalls, cutoff ≤ Instant.ofDate today := by decide
  have hmidnight : (Instant.ofDate today).add? (Span.ofDays 1) =
      some (.ofMillis 1728086400000) := by decide
  have hnow : Instant.ofDate today < midday := by decide
  refine ⟨hstamps, hcutoffs, hmidnight, hnow, ?_⟩
  obtain ⟨report, hbuild, hfaithful⟩ :=
    build_faithful busyCalls today midday _ hstamps hcutoffs hmidnight hnow
  obtain ⟨row, hrow, hid⟩ := (hfaithful.registered "a").2 (by decide)
  refine ⟨report, row, hbuild, hrow, hid, ?_⟩
  rw [hfaithful.transitions row hrow, hid]
  decide +kernel

end DailyReport

end Pulse
