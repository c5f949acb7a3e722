import Pulse.Proofs.Handler.Delivery

/-!
# Messages handled again

A broker that delivers at least once may deliver a message again, at any later time and after any
other messages.  Once an event was handled with success, the store `Reflects` it: the server is on,
its newest heartbeat is not older than the event, and inserting the sample of the event would change
nothing, because it is there or because newer ones have taken its place.  Nothing that `Spares` the
event changes that (`Reflects.after`), and a store that reflects an event is left as it is by
handling the event (`Reflects.handle_eq`).

`handle_again` puts this together, for any history before, between and after.
-/

set_option autoImplicit false

namespace Pulse

open Time (Instant)

/-- The call does not turn the server of an event off, does not delete samples, and does not put
another sample in the place of the one that the handler kept of the event. -/
def Call.Spares (handler : Handler) (event : Event) : Call → Prop
  | ⟨.demote id _ _⟩ => id ≠ event.serverId
  | ⟨.cleanupSamples _⟩ => False
  | ⟨.insertSample s⟩ => ∀ kept ∈ handler.sample? event,
      s.serverId = kept.serverId → s.timestamp = kept.timestamp → s = kept
  | _ => True

/-- The occurrence makes no other calls than such as spare what a handler made of an event. -/
def Occurrence.Spares (handler : Handler) (event : Event) (o : Occurrence) : Prop :=
  ∀ call ∈ o.calls, call.Spares handler event

/-- Messages spare an event, unless one of them is another event of the same server and time. -/
theorem Occurrence.spares_message {handler handler' : Handler} {event other : Event}
    (h : other.serverId = event.serverId → other.timestamp = event.timestamp → other = event)
    (receivedAt : Instant) : (message handler' receivedAt other).Spares handler event := by
  intro call hcall
  rcases List.mem_cons.1 hcall with rfl | hcall
  · trivial
  · obtain ⟨s, hs, rfl⟩ := List.mem_map.1 hcall
    obtain rfl := Handler.eq_sample_of_mem (Option.mem_toList.1 hs)
    intro kept hkept hid htime
    obtain rfl := Handler.eq_sample_of_mem hkept
    rw [h hid htime]

namespace MemoryStore

/-- The server of an event is on and was not seen last before the event. -/
def HasSeen (store : MemoryStore) (event : Event) : Prop :=
  ∃ record seen, store.get? event.serverId = some record ∧ record.status = .on ∧
    record.lastSeen = some seen ∧ event.timestamp ≤ seen

/-- The store shows all that a handler makes of an event. -/
structure Reflects (handler : Handler) (event : Event) (store : MemoryStore) : Prop where
  sound : store.IsSound
  seen : store.HasSeen event
  kept : ∀ s ∈ handler.sample? event, store.insertSample s = store

variable {store : MemoryStore} {handler : Handler} {event : Event} {call : Call}

/-! ## Heartbeats -/

theorem hasSeen_after_heartbeat {record : ServerRecord}
    (h : store.get? event.serverId = some record) (receivedAt : Instant) :
    (store.after ⟨.heartbeat event.serverId event.timestamp receivedAt⟩).HasSeen event := by
  refine ⟨_, _, get?_after_heartbeat h .., ServerRecord.status_heartbeat ..,
    ServerRecord.lastSeen_heartbeat .., ?_⟩
  rw [ServerRecord.seenAfter]
  cases record.lastSeen with
  | none => exact le_rfl
  | some last => exact le_max_right _ _

/-- Whatever spares an event leaves its server on, and last seen no earlier. -/
theorem HasSeen.after (h : store.HasSeen event) (hspared : call.Spares handler event) :
    (store.after call).HasSeen event := by
  obtain ⟨record, seen, hget, hon, hseen, hle⟩ := h
  have he := effect_after store event.serverId call
  rw [HasSeen]
  generalize (store.after call).get? event.serverId = r,
    (store.after call).historyOf event.serverId = changes at he ⊢
  cases he with
  | untouched => exact ⟨record, seen, hget, hon, hseen, hle⟩
  | cleaned => exact ⟨record, seen, hget, hon, hseen, hle⟩
  | registered _ hnone => exact absurd (hget.symm.trans hnone) (by simp)
  | refreshed _ hget' =>
    obtain rfl := Option.some_inj.1 (hget.symm.trans hget')
    exact ⟨_, seen, rfl, hon, hseen, hle⟩
  | @seen record' time receivedAt hget' _ =>
    obtain rfl := Option.some_inj.1 (hget.symm.trans hget')
    refine ⟨_, _, rfl, ServerRecord.status_heartbeat .., ServerRecord.lastSeen_heartbeat .., ?_⟩
    rw [ServerRecord.seenAfter, hseen]
    exact hle.trans (le_max_left _ _)
  | turnedOn hget' hoff =>
    obtain rfl := Option.some_inj.1 (hget.symm.trans hget')
    exact absurd hon hoff
  | turnedOff => exact absurd rfl hspared

/-- An old heartbeat of a server that is on changes nothing. -/
theorem HasSeen.after_eq (h : store.HasSeen event) (hsound : store.IsSound)
    (receivedAt : Instant) :
    store.after ⟨.heartbeat event.serverId event.timestamp receivedAt⟩ = store := by
  obtain ⟨record, seen, hget, hon, hseen, hle⟩ := h
  have hsame : record.heartbeat event.timestamp receivedAt = record := by
    rw [ServerRecord.heartbeat_of_on hon, ServerRecord.seenAfter, hseen]
    show { record with lastSeen := some (max seen event.timestamp) } = record
    rw [max_eq_left hle, ← hseen]
  have hput : store.putRecord record = store := by
    rw [putRecord, hsound.records.put_eq_self (Ordered.mem_of_get? hget)]
  rw [after_heartbeat hget, hsame]
  dsimp only
  rw [if_pos hon, hput]

/-! ## Events -/

/-- Whatever spares an event leaves its sample with nothing to change. -/
theorem insertSample_after_eq (hsound : store.IsSound) (hspared : call.Spares handler event)
    {s : Sample} (hs : s ∈ handler.sample? event) (h : store.insertSample s = store) :
    (store.after call).insertSample s = store.after call := by
  rcases series_after store call with ⟨u, rfl⟩ | ⟨before, rfl⟩ | hseries
  · show (store.insertSample u).insertSample s = store.insertSample u
    by_cases hkey : u.serverId = s.serverId ∧ u.timestamp = s.timestamp
    · obtain rfl := hspared s hs hkey.1 hkey.2
      exact insertSample_insertSample_self hsound.tidy u
    · rw [insertSample_comm hsound.tidy fun hid htime => hkey ⟨hid, htime⟩, h]
  · exact hspared.elim
  · refine insertSample_eq_self ?_
    rw [series_insertSample hseries, h, hseries]

/-- **A store goes on reflecting an event that is spared.** -/
theorem Reflects.after (h : store.Reflects handler event) (hspared : call.Spares handler event) :
    (store.after call).Reflects handler event where
  sound := h.sound.after call
  seen := h.seen.after hspared
  kept s hs := insertSample_after_eq h.sound hspared hs (h.kept s hs)

theorem Reflects.through {occurrences : List Occurrence} (h : store.Reflects handler event)
    (hspared : ∀ o ∈ occurrences, o.Spares handler event) :
    (store.through occurrences).Reflects handler event := by
  induction occurrences generalizing store with
  | nil => exact h
  | cons o occurrences ih =>
    obtain ⟨ho, hrest⟩ := List.forall_mem_cons.1 hspared
    exact ih (past_induction (fun call hcall _ h => h.after (ho call hcall)) h) hrest

/-- An event that was handled with success is reflected. -/
theorem reflects_of_ok (hsound : store.IsSound) {receivedAt : Instant}
    (hok : (store.handle handler receivedAt event).1 = .ok ()) :
    (store.handle handler receivedAt event).2.Reflects handler event := by
  obtain ⟨record, hget⟩ := Option.isSome_iff_exists.1 (handle_ok_iff.1 hok).2
  have hseen := hasSeen_after_heartbeat hget receivedAt
  have hsound' := hsound.after ⟨.heartbeat event.serverId event.timestamp receivedAt⟩
  rw [handle_of_ok hok]
  show (store.afterAll (handler.calls receivedAt event)).Reflects handler event
  rw [Handler.calls, afterAll_cons]
  generalize store.after ⟨.heartbeat event.serverId event.timestamp receivedAt⟩ = next
    at hseen hsound' ⊢
  cases hs : handler.sample? event with
  | none => exact ⟨hsound', hseen, by simp [hs]⟩
  | some s =>
    refine ⟨hsound'.after ⟨.insertSample s⟩, hseen, fun u hu => ?_⟩
    obtain rfl : s = u := by simpa [hs] using hu
    exact insertSample_insertSample_self hsound'.tidy s

/-- **A store that reflects an event is left as it is by handling it.** -/
theorem Reflects.handle_eq (h : store.Reflects handler event) (ha : handler.Accepts event)
    (receivedAt : Instant) : store.handle handler receivedAt event = (.ok (), store) := by
  obtain ⟨record, seen, hget, -⟩ := h.seen
  have hbeat := h.seen.after_eq h.sound receivedAt
  rw [handle_of_some hget ha, Handler.calls, afterAll_cons, hbeat]
  cases hs : handler.sample? event with
  | none => rfl
  | some s =>
    show (_, store.insertSample s) = _
    rw [h.kept s hs]

/-- **Handling an event again is harmless**: after any history, once an event was handled with
success, and whatever spares it has happened since, the same handler takes it again with success, at
any time, and the whole store stays as it is. -/
theorem handle_again {handler : Handler} {event : Event} {receivedAt : Instant}
    (earlier later : List Occurrence)
    (hok : ((empty.through earlier).handle handler receivedAt event).1 = .ok ())
    (hspared : ∀ o ∈ later, o.Spares handler event) (again : Instant) :
    let store := ((empty.through earlier).handle handler receivedAt event).2.through later
    store.handle handler again event = (.ok (), store) := by
  have hsound := isSound_empty.through earlier
  have hreflects := (reflects_of_ok hsound hok).through hspared
  exact hreflects.handle_eq (handle_ok_iff.1 hok).1 again

/-- A reading of a server at nine. -/
private def nineReading : Event :=
  ⟨"a", .ofMillis 1741942800000, some 12.5, none, some 80.0⟩

/-- A server is registered. -/
private def beforeNine : List Occurrence :=
  [.call ⟨.register ⟨"a", "10.0.0.1", 30⟩⟩]

/-- The server reports again, with a reading that was held up, it moves, and another one is
registered, heard and turned off. -/
private def afterNine : List Occurrence :=
  [.message .status (.ofMillis 1741942802000) ⟨"a", .ofMillis 1741942830000, none, none, none⟩,
    .message .metrics (.ofMillis 1741942803000)
      ⟨"a", .ofMillis 1741939200000, some 3.0, none, none⟩,
    .call ⟨.register ⟨"a", "10.0.0.2", 60⟩⟩,
    .call ⟨.register ⟨"b", "10.0.0.3", 30⟩⟩,
    .message .metrics (.ofMillis 1741942804000)
      { nineReading with serverId := "b", cpu := some 1.0 },
    .call ⟨.demote "b" (.ofMillis 1741946400000) (.ofMillis 1741946400000)⟩,
    .message .metrics (.ofMillis 1741946400000) nineReading]

/-- A reading is handled again an hour later. -/
theorem handle_again_nine :
    ((empty.through beforeNine).handle .metrics (.ofMillis 1741942801000) nineReading).1 = .ok () ∧
      (∀ o ∈ afterNine, o.Spares .metrics nineReading) ∧
      let store := ((empty.through beforeNine).handle .metrics (.ofMillis 1741942801000)
        nineReading).2.through afterNine
      store.handle .metrics (.ofMillis 1741946401000) nineReading = (.ok (), store) := by
  have hok : ((empty.through beforeNine).handle .metrics (.ofMillis 1741942801000)
      nineReading).1 = .ok () :=
    handle_ok_iff.2 ⟨(by decide +kernel : nineReading.refusal? = none), by decide +kernel⟩
  have hspared : ∀ o ∈ afterNine, o.Spares .metrics nineReading := by
    simp only [afterNine, List.forall_mem_cons, List.not_mem_nil, false_imp_iff, implies_true,
      and_true]
    refine ⟨Occurrence.spares_message (fun _ h => absurd h (by decide)) _,
      Occurrence.spares_message (fun _ h => absurd h (by decide)) _, ?_, ?_,
      Occurrence.spares_message (fun h => absurd h (by decide)) _, ?_,
      Occurrence.spares_message (fun _ _ => rfl) _⟩ <;>
      simp [Occurrence.Spares, Occurrence.calls, Call.Spares, nineReading]
  exact ⟨hok, hspared, handle_again beforeNine afterNine hok hspared _⟩

end MemoryStore

end Pulse
