import Pulse.Proofs.Handler.Desks
import Pulse.Proofs.Store.History

/-!
# The order of consumers does not matter

The consumers of heartbeats and of metrics work side by side, and every event with metrics passes
through both.  Whatever the order in which they get to make their requests, what is known about the
servers in the end is the same, apart from the dates at which servers were turned on: heartbeats
only ever raise the newest heartbeat and turn the server on, and samples come from one queue only.

* `Heard` — what is known about a server after heartbeats of some times; the order of the times does
  not show.
* `Course.heard`, `Course.series_eq` — what deeds in their order lead to.
* `Office.handled_of_isIdle` — what is known once all messages were handled.
* `Office.confluent` — it is the same whatever the order of moves.
-/

set_option autoImplicit false

namespace Pulse

open Time (Instant)

/-- What is known about a server after heartbeats of some times, at least one: it is on, and if it
was not on before, then there is one more change in the log. -/
structure Heard (record : ServerRecord) (changes : List Transition) (times : List Instant)
    (record' : ServerRecord) (changes' : List Transition) : Prop where
  status : record'.status = .on
  lastSeen : record'.lastSeen = (record.lastSeen.toList ++ times).max?
  address : record'.address = record.address
  interval : record'.interval = record.interval
  of_on : record.status = .on →
    record'.statusChangedAt = record.statusChangedAt ∧ changes' = changes
  of_ne : record.status ≠ .on → ∃ t, record'.statusChangedAt = some t ∧
    changes' = changes ++ [⟨record.serverId, record.status, .on, t⟩]

namespace Heard

variable {record record' : ServerRecord} {changes changes' : List Transition}
  {times : List Instant}

theorem max?_concat (times : List Instant) (time : Instant) :
    (times ++ [time]).max? = MemoryStore.laterOf times.max? time := by
  rw [← MemoryStore.foldl_laterOf, ← MemoryStore.foldl_laterOf, List.foldl_append]
  rfl

/-- The first heartbeat. -/
theorem first (record : ServerRecord) (changes : List Transition) (time receivedAt : Instant) :
    Heard record changes [time] (record.heartbeat time receivedAt)
      (if record.status = .on then changes
        else changes ++ [⟨record.serverId, record.status, .on, record.changeTime receivedAt⟩]) where
  status := record.status_heartbeat ..
  lastSeen := by
    rw [ServerRecord.lastSeen_heartbeat, max?_concat, ServerRecord.seenAfter]
    cases record.lastSeen <;> rfl
  address := by by_cases h : record.status = .on <;> simp [ServerRecord.heartbeat, h]
  interval := by by_cases h : record.status = .on <;> simp [ServerRecord.heartbeat, h]
  of_on h := ⟨ServerRecord.statusChangedAt_heartbeat_of_on h .., if_pos h⟩
  of_ne h := ⟨_, ServerRecord.statusChangedAt_heartbeat_of_ne h .., if_neg h⟩

/-- One more heartbeat. -/
theorem next (h : Heard record changes times record' changes') (time receivedAt : Instant) :
    Heard record changes (times ++ [time]) (record'.heartbeat time receivedAt) changes' where
  status := record'.status_heartbeat ..
  lastSeen := by
    rw [ServerRecord.lastSeen_heartbeat, ← List.append_assoc, max?_concat, ← h.lastSeen]
    rfl
  address := by
    rw [ServerRecord.heartbeat_of_on h.status]
    exact h.address
  interval := by
    rw [ServerRecord.heartbeat_of_on h.status]
    exact h.interval
  of_on hon := by
    rw [ServerRecord.statusChangedAt_heartbeat_of_on h.status]
    exact h.of_on hon
  of_ne hne := by
    rw [ServerRecord.statusChangedAt_heartbeat_of_on h.status]
    exact h.of_ne hne

/-- The order of the times and how often each occurs does not matter. -/
theorem congr {times' : List Instant} (h : Heard record changes times record' changes')
    (hmem : ∀ t, t ∈ times ↔ t ∈ times') : Heard record changes times' record' changes' where
  status := h.status
  lastSeen := by
    rw [h.lastSeen]
    refine Option.ext fun t => ?_
    simp only [List.max?_eq_some_iff, List.mem_append, hmem]
  address := h.address
  interval := h.interval
  of_on := h.of_on
  of_ne := h.of_ne

end Heard

/-! ## What deeds lead to -/

namespace MemoryStore

variable {store₀ store : MemoryStore} {deeds : List Deed} {id : String}

/-- **What deeds lead to, for one server**: nothing has changed unless there was a heartbeat. -/
theorem Course.heard (h : store₀.Course deeds store) {record : ServerRecord}
    (hget : store₀.get? id = some record) :
    (deeds.filterMap (Deed.beat? id) = [] ∧ store.get? id = some record ∧
        store.historyOf id = store₀.historyOf id) ∨
      (deeds.filterMap (Deed.beat? id) ≠ [] ∧ ∃ record', store.get? id = some record' ∧
        Heard record (store₀.historyOf id) (deeds.filterMap (Deed.beat? id)) record'
          (store.historyOf id)) := by
  induction h with
  | start => exact .inl ⟨rfl, hget, rfl⟩
  | @step deeds store _ deed t ih =>
    rw [List.filterMap_append]
    cases hbeat : deed.beat? id with
    | none =>
      obtain ⟨hget', hhistory⟩ := store.after_of_beat?_eq_none hbeat t
      rw [List.filterMap_cons_none hbeat, List.filterMap_nil, List.append_nil, hget', hhistory]
      exact ih
    | some time =>
      obtain rfl := Deed.beat?_eq_some_iff.1 hbeat
      rw [List.filterMap_cons_some hbeat, List.filterMap_nil]
      refine .inr ⟨by simp, ?_⟩
      rcases ih with ⟨hnil, hrecord, hhistory⟩ | ⟨-, record', hrecord, hheard⟩
      · refine ⟨_, get?_after_heartbeat hrecord time t, ?_⟩
        have hfirst := Heard.first record (store₀.historyOf id) time t
        rw [serverId_of_get? hrecord, ← hhistory] at hfirst
        rw [hnil, ← hhistory]
        show Heard _ _ _ _ ((store.after ⟨.heartbeat id time t⟩).historyOf id)
        rwa [historyOf_after_heartbeat hrecord]
      · refine ⟨_, get?_after_heartbeat hrecord time t, ?_⟩
        show Heard _ _ _ _ ((store.after ⟨.heartbeat id time t⟩).historyOf id)
        rw [historyOf_after_heartbeat hrecord, if_pos hheard.status]
        exact hheard.next time t

/-- Deeds do nothing to a server that is not registered. -/
theorem Course.of_none (h : store₀.Course deeds store) (hget : store₀.get? id = none) :
    store.get? id = none ∧ store.historyOf id = store₀.historyOf id := by
  induction h with
  | start => exact ⟨hget, rfl⟩
  | @step deeds store _ deed t ih =>
    cases hbeat : deed.beat? id with
    | none =>
      obtain ⟨hget', hhistory⟩ := store.after_of_beat?_eq_none hbeat t
      rwa [hget', hhistory]
    | some time =>
      obtain rfl := Deed.beat?_eq_some_iff.1 hbeat
      rwa [Deed.call, after_heartbeat_of_none ih.1]

/-- **The samples after deeds** are those kept, one after the other. -/
theorem Course.series_eq (h : store₀.Course deeds store) :
    store.series = ((deeds.filterMap Deed.sample?).foldl insertSample store₀).series := by
  induction h with
  | start => rfl
  | @step deeds store _ deed t ih =>
    rw [List.filterMap_append]
    cases deed with
    | keep s =>
      show _ = ((deeds.filterMap Deed.sample? ++ [s]).foldl insertSample store₀).series
      rw [List.foldl_append]
      exact series_insertSample ih s
    | beat id time =>
      rw [List.filterMap_cons_none rfl, List.filterMap_nil, List.append_nil, ← ih]
      rcases series_after store ⟨.heartbeat id time t⟩ with ⟨s, hs⟩ | ⟨before, hs⟩ | hseries
      · cases hs
      · cases hs
      · exact hseries

theorem samplesOf_foldl {samples : List Sample} (h : ∀ s ∈ samples, s.serverId ≠ id)
    (store : MemoryStore) :
    (samples.foldl insertSample store).samplesOf id = store.samplesOf id := by
  induction samples generalizing store with
  | nil => rfl
  | cons s samples ih =>
    obtain ⟨hs, hrest⟩ := List.forall_mem_cons.1 h
    rw [List.foldl_cons, ih hrest, samplesOf_insertSample, if_neg hs]

end MemoryStore

/-! ## Duties -/

section

variable {known : String → Bool} {handler : Handler}

/-- The heartbeats of a server among all duties of a handler are those of its events. -/
theorem Handler.beat_mem_duties {events : List Event} {id : String} {time : Instant} :
    Deed.beat id time ∈ handler.duties known events ↔
      ∃ event ∈ handler.queue events, handler.Accepts event ∧
        event.serverId = id ∧ event.timestamp = time := by
  rw [duties, List.mem_flatMap]
  refine exists_congr fun event => and_congr_right fun _ => ?_
  rw [deeds]
  split_ifs with ha hk <;> simp [ha, eq_comm]

/-- The samples that are kept of events of registered servers. -/
def keptSamples (known : String → Bool) (events : List Event) : List Sample :=
  events.filterMap fun event =>
    if known event.serverId then Handler.metrics.sample? event else none

theorem exists_of_mem_keptSamples {events : List Event} {s : Sample}
    (h : s ∈ keptSamples known events) :
    ∃ event ∈ events, known event.serverId = true ∧ event.sample = s := by
  obtain ⟨event, hmem, hs⟩ := List.mem_filterMap.1 h
  split_ifs at hs with hk
  · exact ⟨event, hmem, hk, (Handler.eq_sample_of_mem hs).symm⟩

theorem Handler.filterMap_sample?_deeds (event : Event) :
    (handler.deeds known event).filterMap Deed.sample? =
      if known event.serverId then (handler.sample? event).toList else [] := by
  rw [deeds]
  by_cases ha : handler.Accepts event
  · have hkeep : Deed.sample? ∘ Deed.keep = some := rfl
    rw [if_pos ha, List.filterMap_cons_none rfl]
    split_ifs
    · rw [List.filterMap_map, hkeep, List.filterMap_some]
    · rfl
  · have hnone : handler.sample? event = none := by
      cases handler with
      | status => rfl
      | metrics => exact if_neg fun h => ha h.1
    rw [if_neg ha, hnone]
    simp

/-- The samples that are kept are those of the events with metrics. -/
theorem Handler.filterMap_sample?_duties (known : String → Bool) (events : List Event) :
    (Handler.metrics.duties known events).filterMap Deed.sample? = keptSamples known events := by
  rw [duties, queue, keptSamples]
  induction events with
  | nil => rfl
  | cons event rest ih =>
    cases hmetrics : event.hasMetrics with
    | true =>
      rw [List.filter_cons_of_pos hmetrics, List.flatMap_cons, List.filterMap_append, ih,
        filterMap_sample?_deeds, List.filterMap_cons]
      split_ifs
      · cases Handler.metrics.sample? event <;> rfl
      · rfl
    | false =>
      have hnone : Handler.metrics.sample? event = none := by simp [sample?, hmetrics]
      rw [List.filter_cons_of_neg (by simp [hmetrics]), ih, List.filterMap_cons, hnone, ite_self]

end

/-- What is known about all servers once some events were handled by both consumers. -/
structure Handled (events : List Event) (store₀ store : MemoryStore) : Prop where
  /-- A registered server with events was heard at their times, and at no others. -/
  heard : ∀ id record, store₀.get? id = some record → (∃ event ∈ events, event.serverId = id) →
    ∃ record', store.get? id = some record' ∧
      Heard record (store₀.historyOf id)
        ((events.filter fun event => event.serverId = id).map Event.timestamp) record'
        (store.historyOf id)
  /-- All others are untouched. -/
  untouched : ∀ id, store₀.get? id = none ∨ (∀ event ∈ events, event.serverId ≠ id) →
    store.get? id = store₀.get? id ∧ store.historyOf id = store₀.historyOf id ∧
      store.samplesOf id = store₀.samplesOf id
  /-- The samples of registered servers were kept in the order of the events. -/
  series : store.series = ((keptSamples store₀.knows events).foldl MemoryStore.insertSample
    store₀).series

namespace Office

variable {store₀ : MemoryStore} {events : List Event} {made : Handler → List Deed}
  {log : List Deed} {office : Office}

/-- At the end each desk has done all its duties. -/
theorem Follows.made_eq (h : office.Follows store₀ events made log) (hidle : office.IsIdle)
    (handler : Handler) : made handler = handler.duties store₀.knows events := by
  obtain ⟨owed, howes, hduties⟩ := h.owes handler
  rw [← hduties, howes.eq_nil (hidle handler), List.append_nil]

/-- At the end the heartbeats of a server are those of its events. -/
theorem Follows.beats (h : office.Follows store₀ events made log) (hidle : office.IsIdle)
    (id : String) (time : Instant) :
    time ∈ log.filterMap (Deed.beat? id) ↔
      time ∈ (events.filter fun event => event.serverId = id).map Event.timestamp := by
  have hlog : time ∈ log.filterMap (Deed.beat? id) ↔ Deed.beat id time ∈ log := by
    simp [List.mem_filterMap, Deed.beat?_eq_some_iff]
  rw [hlog, h.perm.mem_iff, List.mem_append, h.made_eq hidle, h.made_eq hidle,
    Handler.beat_mem_duties, Handler.beat_mem_duties, List.mem_map]
  constructor
  · rintro (⟨event, hmem, -, hid, htime⟩ | ⟨event, hmem, -, hid, htime⟩)
    · exact ⟨event, List.mem_filter.2 ⟨hmem, by simpa using hid⟩, htime⟩
    · exact ⟨event, List.mem_filter.2 ⟨(List.mem_filter.1 hmem).1, by simpa using hid⟩, htime⟩
  · rintro ⟨event, hmem, htime⟩
    obtain ⟨hmem, hid⟩ := List.mem_filter.1 hmem
    exact .inl ⟨event, hmem, trivial, by simpa using hid, htime⟩

/-- At the end the samples of all events were kept. -/
theorem Follows.series_eq (h : office.Follows store₀ events made log) (hidle : office.IsIdle) :
    office.store.series =
      ((keptSamples store₀.knows events).foldl MemoryStore.insertSample store₀).series := by
  rw [h.course.series_eq, h.kept, h.made_eq hidle, Handler.filterMap_sample?_duties]

/-- **Once nothing is left to do**, the store shows all events, and nothing else. -/
theorem Follows.handled (h : office.Follows store₀ events made log) (hidle : office.IsIdle) :
    Handled events store₀ office.store where
  heard id record hget := by
    rintro ⟨event, hmem, hid⟩
    have htime : event.timestamp ∈ log.filterMap (Deed.beat? id) :=
      (h.beats hidle id _).2 (List.mem_map_of_mem (List.mem_filter.2 ⟨hmem, by simpa using hid⟩))
    rcases h.course.heard hget with ⟨hnil, -⟩ | ⟨-, record', hget', hheard⟩
    · rw [hnil] at htime
      cases htime
    · exact ⟨record', hget', hheard.congr (h.beats hidle id)⟩
  untouched id hid := by
    have hseries := h.series_eq hidle
    have hsamples : office.store.samplesOf id = store₀.samplesOf id := by
      rw [MemoryStore.samplesOf_congr hseries, MemoryStore.samplesOf_foldl]
      intro s hs hserver
      obtain ⟨event, hmem, hk, rfl⟩ := exists_of_mem_keptSamples hs
      rcases hid with hnone | hother
      · obtain rfl : event.serverId = id := hserver
        rw [MemoryStore.knows, hnone] at hk
        cases hk
      · exact hother event hmem hserver
    rw [← and_assoc]
    refine ⟨?_, hsamples⟩
    cases hget : store₀.get? id with
    | none => exact h.course.of_none hget
    | some record =>
      rcases h.course.heard hget with ⟨-, hget', hhistory⟩ | ⟨hne, -⟩
      · exact ⟨hget', hhistory⟩
      · obtain ⟨time, htime⟩ := List.exists_mem_of_ne_nil _ hne
        obtain ⟨event, hmem, -⟩ := List.mem_map.1 ((h.beats hidle id time).1 htime)
        obtain ⟨hmem, hserver⟩ := List.mem_filter.1 hmem
        rcases hid with hnone | hother
        · exact absurd (hnone.symm.trans hget) (by simp)
        · exact absurd (by simpa using hserver) (hother event hmem)
  series := h.series_eq hidle

/-- **What is known once all messages were handled.** -/
theorem handled_of_isIdle (store₀ : MemoryStore) (events : List Event) (moves : List Move)
    (hidle : ((opened store₀ events).afterAll moves).IsIdle) :
    Handled events store₀ ((opened store₀ events).afterAll moves).store := by
  obtain ⟨made, log, h⟩ := (follows_opened store₀ events).afterAll moves
  exact h.handled hidle

end Office

/-- Two stores know the same of all servers, apart from the dates of changes. -/
structure Alike (store store' : MemoryStore) : Prop where
  records : ∀ id, (store.get? id).map (fun record => { record with statusChangedAt := none }) =
    (store'.get? id).map fun record => { record with statusChangedAt := none }
  series : store.series = store'.series

/-- What is known once some events were handled is the same in all stores where they were. -/
theorem Handled.alike {events : List Event} {store₀ store store' : MemoryStore}
    (h : Handled events store₀ store) (h' : Handled events store₀ store') : Alike store store' where
  records id := by
    by_cases hid : store₀.get? id = none ∨ ∀ event ∈ events, event.serverId ≠ id
    · rw [(h.untouched id hid).1, (h'.untouched id hid).1]
    · push Not at hid
      obtain ⟨hget, hevents⟩ := hid
      obtain ⟨record₀, hget⟩ := Option.ne_none_iff_exists'.1 hget
      obtain ⟨record, hrecord, hheard⟩ := h.heard id record₀ hget hevents
      obtain ⟨record', hrecord', hheard'⟩ := h'.heard id record₀ hget hevents
      have hserver := MemoryStore.serverId_of_get? hrecord
      have hserver' := MemoryStore.serverId_of_get? hrecord'
      rw [hrecord, hrecord', Option.map_some, Option.map_some, hserver, hserver', hheard.address,
        hheard'.address, hheard.interval, hheard'.interval, hheard.status, hheard'.status,
        hheard.lastSeen, hheard'.lastSeen]
  series := h.series.trans h'.series.symm

namespace Office

/-- **The order of consumers does not matter.**  From any store and for any events, whenever both
consumers have handled all messages, whatever the order of their requests and the times at which
they were made, the store shows all events and nothing else, and what is known about the servers and
their samples is the same as with any other order, apart from the dates of changes. -/
theorem confluent (store₀ : MemoryStore) (events : List Event) (moves moves' : List Move)
    (hidle : ((opened store₀ events).afterAll moves).IsIdle)
    (hidle' : ((opened store₀ events).afterAll moves').IsIdle) :
    let store := ((opened store₀ events).afterAll moves).store
    let store' := ((opened store₀ events).afterAll moves').store
    Handled events store₀ store ∧ Alike store store' := by
  have h := handled_of_isIdle store₀ events moves hidle
  have h' := handled_of_isIdle store₀ events moves' hidle'
  exact ⟨h, h.alike h'⟩

/-- A server that is off. -/
private def dormant : MemoryStore :=
  ⟨[⟨"a", "10.0.0.1", 30, .off, some (.ofMillis 1741942800000), some (.ofMillis 1741942860000)⟩],
    [], []⟩

/-- A reading of the server and a late heartbeat, and one of a server that is not registered. -/
private def reports : List Event :=
  [⟨"a", .ofMillis 1741946400000, some 12.5, none, none⟩,
    ⟨"a", .ofMillis 1741939200000, none, none, none⟩,
    ⟨"b", .ofMillis 1741946400000, none, some 50.0, none⟩]

/-- So many steps at a desk at a moment. -/
private def stepsOf (handler : Handler) (n : Nat) (time : Instant) : List Move :=
  List.replicate n ⟨handler, time⟩

/-- The metrics are handled while the consumer of heartbeats is at its first message, or after all
heartbeats. -/
theorem confluent_reports :
    let overtaking := stepsOf .status 2 (.ofMillis 1741946401000)
      ++ stepsOf .metrics 9 (.ofMillis 1741946402000)
      ++ stepsOf .status 10 (.ofMillis 1741946403000)
    let inTurn := stepsOf .status 12 (.ofMillis 1741946401000)
      ++ stepsOf .metrics 9 (.ofMillis 1741946402000)
    ((opened dormant reports).afterAll overtaking).IsIdle ∧
      ((opened dormant reports).afterAll inTurn).IsIdle ∧
      Alike ((opened dormant reports).afterAll overtaking).store
        ((opened dormant reports).afterAll inTurn).store := by
  intro overtaking inTurn
  have hidle : ((opened dormant reports).afterAll overtaking).IsIdle := by
    intro handler
    cases handler <;> exact ⟨by decide +kernel, by decide +kernel⟩
  have hidle' : ((opened dormant reports).afterAll inTurn).IsIdle := by
    intro handler
    cases handler <;> exact ⟨by decide +kernel, by decide +kernel⟩
  exact ⟨hidle, hidle', (confluent dormant reports overtaking inTurn hidle hidle').2⟩

end Office

end Pulse
