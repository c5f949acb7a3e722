import Pulse.Handler
import Pulse.Proofs.Store.Series

/-!
# Messages handled one at a time

`MemoryStore.handle` is a handler at work on a store in memory, with nothing else going on.  A
message that is handled with success is a heartbeat and perhaps a sample (`handle_of_ok`), one that
fails leaves the store as it is (`handle_of_not_ok`), and which of the two it is depends on the
message and on whether its server is registered (`handle_ok_iff`).

Histories are made of messages that are handled and of other calls of the store: each is an
`Occurrence`, and `MemoryStore.through` is the store after a row of them.
-/

set_option autoImplicit false

namespace Pulse

open Ordered (Ascending)
open Time (Instant)

/-! ## What a handler keeps -/

namespace Handler

/-- The handler does not turn the event away. -/
def Accepts : Handler → Event → Prop
  | status, _ => True
  | metrics, event => event.refusal? = none

instance (handler : Handler) (event : Event) : Decidable (handler.Accepts event) :=
  match handler with
  | .status => .isTrue trivial
  | .metrics => inferInstanceAs (Decidable (event.refusal? = none))

/-- The sample that a handler keeps of an event. -/
def sample? : Handler → Event → Option Sample
  | status, _ => none
  | metrics, event =>
    if event.refusal? = none ∧ event.hasMetrics = true then some event.sample else none

theorem eq_sample_of_mem {handler : Handler} {event : Event} {s : Sample}
    (h : s ∈ handler.sample? event) : s = event.sample := by
  cases handler with
  | status => cases h
  | metrics =>
    rw [sample?] at h
    split_ifs at h
    · exact (Option.some_inj.1 h).symm
    · cases h

/-- What a handler asks of the store for an event that it accepts, of a server that is
registered. -/
def calls (handler : Handler) (receivedAt : Instant) (event : Event) : List Call :=
  ⟨.heartbeat event.serverId event.timestamp receivedAt⟩
    :: (handler.sample? event).toList.map fun s => ⟨.insertSample s⟩

end Handler

/-! ## Handling -/

namespace MemoryStore

/-- Answers a request; one that is refused changes nothing. -/
def serve {form : Store.Form} (request : Store.Request form) :
    StateM MemoryStore (Except StorageError form.Answer) := fun store =>
  match store.run request with
  | .ok (a, next) => (.ok a, next)
  | .error e => (.error e, store)

/-- What a handler makes of an event that it receives at a moment, and the store after that. -/
def handle (store : MemoryStore) (handler : Handler) (receivedAt : Instant) (event : Event) :
    Except HandlerError Unit × MemoryStore :=
  (handler.handle serve (pure receivedAt) event).run store

variable {store : MemoryStore} {handler : Handler} {receivedAt : Instant} {event : Event}

theorem run_serve_of_none {id : String} (h : store.get? id = none) (time receivedAt : Instant) :
    (serve (.heartbeat id time receivedAt)).run store = (.error (.unknownServer id), store) := by
  simp only [StateT.run, serve, run, heartbeat, h]

theorem run_serve_of_some {id : String} {record : ServerRecord} (h : store.get? id = some record)
    (time receivedAt : Instant) :
    (serve (.heartbeat id time receivedAt)).run store =
      (.ok ⟨record.status, record.heartbeat time receivedAt⟩,
        store.after ⟨.heartbeat id time receivedAt⟩) := by
  simp only [StateT.run, serve, after, run, heartbeat, h]
  split_ifs <;> rfl

/-- One step after the other. -/
theorem run_bind_of_eq {α β : Type} {x : StateM MemoryStore α} {a : α} {next : MemoryStore}
    (h : x.run store = (a, next)) (f : α → StateM MemoryStore β) :
    (x >>= f).run store = (f a).run next := by
  rw [StateT.run_bind, h]
  rfl

theorem run_applyHeartbeat_of_none (h : store.get? event.serverId = none)
    (receivedAt : Instant) :
    (applyHeartbeat serve (pure receivedAt) event).run store =
      (.error (.unknownServer event.serverId), store) := by
  rw [applyHeartbeat, pure_bind, run_bind_of_eq (run_serve_of_none h event.timestamp receivedAt)]
  rfl

theorem run_applyHeartbeat_of_some {record : ServerRecord}
    (h : store.get? event.serverId = some record) (receivedAt : Instant) :
    (applyHeartbeat serve (pure receivedAt) event).run store =
      (.ok (), store.after ⟨.heartbeat event.serverId event.timestamp receivedAt⟩) := by
  rw [applyHeartbeat, pure_bind, run_bind_of_eq (run_serve_of_some h event.timestamp receivedAt)]
  rfl

/-- An event that is turned away fails and does nothing. -/
theorem handle_of_refusal (h : ¬ handler.Accepts event) (store : MemoryStore)
    (receivedAt : Instant) : ∃ e, store.handle handler receivedAt event = (.error e, store) := by
  cases handler with
  | status => exact absurd trivial h
  | metrics =>
    obtain ⟨reason, hreason⟩ := Option.ne_none_iff_exists'.1 h
    rw [handle, Handler.handle, applyMetrics, hreason]
    exact ⟨.invalidPayload reason, rfl⟩

/-- An event of a server that is not registered fails and does nothing. -/
theorem handle_of_none (h : store.get? event.serverId = none) (handler : Handler)
    (receivedAt : Instant) : ∃ e, store.handle handler receivedAt event = (.error e, store) := by
  have hbeat := run_applyHeartbeat_of_none h receivedAt
  cases handler with
  | status => exact ⟨_, hbeat⟩
  | metrics =>
    cases hrefusal : event.refusal? with
    | some reason => exact handle_of_refusal (by simp [Handler.Accepts, hrefusal]) store receivedAt
    | none =>
      rw [handle, Handler.handle, applyMetrics, hrefusal]
      exact ⟨_, run_bind_of_eq hbeat _⟩

/-- An event of a registered server is a heartbeat and perhaps a sample, unless it is turned
away. -/
theorem handle_of_some {record : ServerRecord} (h : store.get? event.serverId = some record)
    (ha : handler.Accepts event) (receivedAt : Instant) :
    store.handle handler receivedAt event =
      (.ok (), store.afterAll (handler.calls receivedAt event)) := by
  have hbeat := run_applyHeartbeat_of_some h receivedAt
  cases handler with
  | status => exact hbeat
  | metrics =>
    have hrefusal : event.refusal? = none := ha
    rw [handle, Handler.handle, applyMetrics, hrefusal]
    refine (run_bind_of_eq hbeat _).trans ?_
    rw [Handler.calls, Handler.sample?]
    cases event.hasMetrics with
    | true =>
      rw [if_pos rfl, if_pos ⟨hrefusal, rfl⟩]
      rfl
    | false =>
      rw [if_neg Bool.false_ne_true, if_neg fun h => Bool.false_ne_true h.2]
      rfl

/-- **Which messages are handled with success**: those that are not turned away, of servers that
are registered. -/
theorem handle_ok_iff :
    (store.handle handler receivedAt event).1 = .ok () ↔
      handler.Accepts event ∧ (store.get? event.serverId).isSome := by
  by_cases ha : handler.Accepts event
  · cases hget : store.get? event.serverId with
    | none =>
      obtain ⟨e, he⟩ := handle_of_none hget handler receivedAt
      simp [he]
    | some record => simp [handle_of_some hget ha, ha]
  · obtain ⟨e, he⟩ := handle_of_refusal ha store receivedAt
    simp [he, ha]

/-- **A message does what its handler asks of the store**, if it is handled with success. -/
theorem handle_of_ok (hok : (store.handle handler receivedAt event).1 = .ok ()) :
    store.handle handler receivedAt event =
      (.ok (), store.afterAll (handler.calls receivedAt event)) := by
  obtain ⟨ha, hget⟩ := handle_ok_iff.1 hok
  obtain ⟨record, hget⟩ := Option.isSome_iff_exists.1 hget
  exact handle_of_some hget ha receivedAt

/-- **A message that fails does nothing.** -/
theorem handle_of_not_ok (hok : (store.handle handler receivedAt event).1 ≠ .ok ()) :
    (store.handle handler receivedAt event).2 = store := by
  by_cases ha : handler.Accepts event
  · cases hget : store.get? event.serverId with
    | none =>
      obtain ⟨e, he⟩ := handle_of_none hget handler receivedAt
      rw [he]
    | some record => exact absurd (handle_ok_iff.2 ⟨ha, by simp [hget]⟩) hok
  · obtain ⟨e, he⟩ := handle_of_refusal ha store receivedAt
    rw [he]

end MemoryStore

/-! ## Occurrences -/

/-- Something that happens to a store. -/
inductive Occurrence where
  /-- A message is handled. -/
  | message (handler : Handler) (receivedAt : Instant) (event : Event)
  /-- Anything else. -/
  | call (call : Call)

/-- What an occurrence may ask of the store. -/
def Occurrence.calls : Occurrence → List Call
  | message handler receivedAt event => handler.calls receivedAt event
  | call c => [c]

namespace MemoryStore

/-- The store after an occurrence. -/
def past (store : MemoryStore) : Occurrence → MemoryStore
  | .message handler receivedAt event => (store.handle handler receivedAt event).2
  | .call call => store.after call

/-- The store after occurrences, one after the other. -/
def through (store : MemoryStore) (occurrences : List Occurrence) : MemoryStore :=
  occurrences.foldl past store

@[simp]
theorem through_nil (store : MemoryStore) : store.through [] = store :=
  rfl

@[simp]
theorem through_cons (store : MemoryStore) (o : Occurrence) (occurrences : List Occurrence) :
    store.through (o :: occurrences) = (store.past o).through occurrences :=
  rfl

/-- **What calls keep, occurrences keep.** -/
theorem past_induction {P : MemoryStore → Prop} {o : Occurrence}
    (hcalls : ∀ call ∈ o.calls, ∀ store, P store → P (store.after call)) {store : MemoryStore}
    (h : P store) : P (store.past o) := by
  have hall : ∀ (calls : List Call) (store : MemoryStore), calls ⊆ o.calls → P store →
      P (store.afterAll calls) := by
    intro calls
    induction calls with
    | nil => exact fun store _ h => h
    | cons call calls ih =>
      intro store hsub h
      obtain ⟨hcall, hsub⟩ := List.cons_subset.1 hsub
      exact ih _ hsub (hcalls call hcall store h)
  cases o with
  | call c => exact hcalls c (List.mem_singleton_self c) store h
  | message handler receivedAt event =>
    by_cases hok : (store.handle handler receivedAt event).1 = .ok ()
    · rw [past, handle_of_ok hok]
      exact hall _ store (List.Subset.refl _) h
    · rw [past, handle_of_not_ok hok]
      exact h

/-- Each server has one record and one series, and a series one sample for each time, all in the
order of their keys. -/
structure IsSound (store : MemoryStore) : Prop where
  records : Ascending ServerRecord.serverId store.records
  tidy : store.IsTidy

theorem isSound_empty : empty.IsSound where
  records := List.Pairwise.nil
  tidy := isTidy_empty

theorem IsSound.after {store : MemoryStore} (h : store.IsSound) (call : Call) :
    (store.after call).IsSound where
  records := ascending_after h.records call
  tidy := h.tidy.after call

theorem IsSound.through {store : MemoryStore} (h : store.IsSound)
    (occurrences : List Occurrence) : (store.through occurrences).IsSound := by
  induction occurrences generalizing store with
  | nil => exact h
  | cons o occurrences ih => exact ih (past_induction (fun call _ _ h => h.after call) h)

end MemoryStore

end Pulse
