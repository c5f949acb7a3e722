import Pulse.Consumer
import Pulse.Proofs.Handler.Desks

/-!
# What comes of a message

The fate of a message depends on the handlers of the consumer, on the message and on which servers
are registered, and on nothing else: `Handlers.fate` says which it is, without looking at what
handlers do.  Messages register no servers, so the fate of a message is the same before and after
any others.

* `Handlers.treat_fst`, `Handlers.treat_snd_of_ne` — what a consumer counts is the fate, and only a
  message that is `processed` touches the store.
* `MemoryStore.isDataError_of_handle` — a store in memory gives a handler no cause to fail but the
  data.
* `Handlers.reach_eq_reach_filter` — a row of messages leads to the store to which those alone lead
  that are processed.
-/

set_option autoImplicit false

namespace Pulse

open Time (Instant)

namespace MemoryStore

variable {store : MemoryStore} {handler : Handler} {receivedAt : Instant} {event : Event}

/-- Handling an event registers nobody. -/
theorem knows_handle (store : MemoryStore) (handler : Handler) (receivedAt : Instant)
    (event : Event) : (store.handle handler receivedAt event).2.knows = store.knows := by
  refine past_induction (P := fun next => next.knows = store.knows)
    (o := .message handler receivedAt event) (fun call hcall next hnext => ?_) rfl
  rw [← hnext]
  rcases List.mem_cons.1 hcall with rfl | hcall
  · exact knows_after next (.beat event.serverId event.timestamp) receivedAt
  · obtain ⟨s, -, rfl⟩ := List.mem_map.1 hcall
    exact knows_after next (.keep s) receivedAt

/-- **A handler fails because of the event only**, with a store in memory. -/
theorem isDataError_of_handle {e : HandlerError}
    (h : (store.handle handler receivedAt event).1 = .error e) : e.isDataError = true := by
  have hbeat (hnone : store.get? event.serverId = none) :=
    run_applyHeartbeat_of_none hnone receivedAt
  cases hget : store.get? event.serverId with
  | none =>
    cases handler with
    | status =>
      rw [handle, Handler.handle, hbeat hget] at h
      cases h
      rfl
    | metrics =>
      rw [handle, Handler.handle, applyMetrics] at h
      cases hrefusal : event.refusal? with
      | some reason =>
        rw [hrefusal] at h
        cases h
        rfl
      | none =>
        rw [hrefusal] at h
        dsimp only at h
        rw [run_bind_of_eq (hbeat hget)] at h
        cases h
        rfl
  | some record =>
    by_cases ha : handler.Accepts event
    · rw [handle_of_some hget ha] at h
      cases h
    · cases handler with
      | status => exact absurd trivial ha
      | metrics =>
        obtain ⟨reason, hreason⟩ := Option.ne_none_iff_exists'.1 ha
        rw [handle, Handler.handle, applyMetrics, hreason] at h
        cases h
        rfl

end MemoryStore

namespace Handlers

/-- What comes of a message, by which servers are registered: it is dropped if there is no handler
for its type or its payload is no event, and it is processed if the handler accepts the event and
the server is registered. -/
def fate (handlers : Handlers) (knows : String → Bool) (message : Message) : Handling :=
  match handlers.handler? message.type, message.decode with
  | some handler, .ok event =>
    if handler.Accepts event ∧ knows event.serverId = true then .processed else .failed
  | _, _ => .dropped

/-- What a consumer with a store in memory makes of a message that it takes at a moment, and the
store after that. -/
def treat (handlers : Handlers) (store : MemoryStore) (message : Message) (now : Instant) :
    Handling × MemoryStore :=
  match handlers.dispatch? message with
  | none => (.dropped, store)
  | some (handler, event) =>
    let (result, next) := store.handle handler now event
    (.ofResult (some result), next)

/-- The store after messages that were taken at moments, one after the other. -/
def reach (handlers : Handlers) (store : MemoryStore) (taken : List (Message × Instant)) :
    MemoryStore :=
  taken.foldl (fun store m => (handlers.treat store m.1 m.2).2) store

variable {handlers : Handlers} {store : MemoryStore} {message : Message} {now : Instant}

/-- A message is handled if there is a handler for its type and its payload is an event. -/
theorem dispatch?_eq_some_iff {handler : Handler} {event : Event} :
    handlers.dispatch? message = some (handler, event) ↔
      handlers.handler? message.type = some handler ∧ message.decode = .ok event := by
  rw [dispatch?]
  cases handlers.handler? message.type with
  | none => simp
  | some handler => cases message.decode <;> simp

theorem treat_of_none (h : handlers.dispatch? message = none) (store : MemoryStore)
    (now : Instant) : handlers.treat store message now = (.dropped, store) := by
  rw [treat, h]

theorem treat_of_some {handler : Handler} {event : Event}
    (h : handlers.dispatch? message = some (handler, event)) (store : MemoryStore)
    (now : Instant) : handlers.treat store message now =
      (.ofResult (some (store.handle handler now event).1), (store.handle handler now event).2) := by
  rw [treat, h]

theorem fate_of_none (h : handlers.dispatch? message = none) (knows : String → Bool) :
    handlers.fate knows message = .dropped := by
  rw [dispatch?] at h
  rw [fate]
  cases hhandler : handlers.handler? message.type with
  | none => rfl
  | some handler =>
    cases hevent : message.decode with
    | error fault => rfl
    | ok event => simp [hhandler, hevent] at h

theorem fate_of_some {handler : Handler} {event : Event}
    (h : handlers.dispatch? message = some (handler, event)) (knows : String → Bool) :
    handlers.fate knows message =
      if handler.Accepts event ∧ knows event.serverId = true then .processed else .failed := by
  obtain ⟨hhandler, hevent⟩ := dispatch?_eq_some_iff.1 h
  rw [fate, hhandler, hevent]

/-- No message takes too long. -/
theorem fate_ne_timedOut (knows : String → Bool) : handlers.fate knows message ≠ .timedOut := by
  intro h
  rw [fate] at h
  split at h
  · split_ifs at h
  · cases h

/-- **What is counted** is the fate of the message. -/
theorem treat_fst (handlers : Handlers) (store : MemoryStore) (message : Message) (now : Instant) :
    (handlers.treat store message now).1 = handlers.fate store.knows message := by
  cases h : handlers.dispatch? message with
  | none => rw [treat_of_none h, fate_of_none h]
  | some p =>
    obtain ⟨handler, event⟩ := p
    rw [treat_of_some h, fate_of_some h]
    have hiff : (store.handle handler now event).1 = .ok () ↔
        handler.Accepts event ∧ store.knows event.serverId = true := MemoryStore.handle_ok_iff
    cases hresult : (store.handle handler now event).1 with
    | ok u => rw [if_pos (hiff.1 hresult), Handling.ofResult]
    | error e =>
      have hbad : ¬ (handler.Accepts event ∧ store.knows event.serverId = true) := by
        intro hgood
        have hok := hiff.2 hgood
        rw [hresult] at hok
        cases hok
      rw [if_neg hbad, Handling.ofResult]

/-- A message fails because of the data that it carries, and leaves the store as it is. -/
theorem exists_of_fate_eq_failed (h : handlers.fate store.knows message = .failed) (now : Instant) :
    ∃ handler event e, handlers.dispatch? message = some (handler, event) ∧
      store.handle handler now event = (.error e, store) ∧ e.isDataError = true := by
  cases hdispatch : handlers.dispatch? message with
  | none =>
    rw [fate_of_none hdispatch] at h
    cases h
  | some p =>
    obtain ⟨handler, event⟩ := p
    have htreat := treat_fst handlers store message now
    rw [treat_of_some hdispatch, h] at htreat
    cases hresult : (store.handle handler now event).1 with
    | ok u =>
      rw [hresult] at htreat
      cases htreat
    | error e =>
      have hsame : (store.handle handler now event).2 = store :=
        MemoryStore.handle_of_not_ok (by simp [hresult])
      exact ⟨handler, event, e, rfl, Prod.ext hresult hsame, MemoryStore.isDataError_of_handle hresult⟩

/-- A message is dropped if there is no handler for its type or its payload is no event. -/
theorem fate_eq_dropped_iff (knows : String → Bool) : handlers.fate knows message = .dropped ↔
    handlers.handler? message.type = none ∨ ∃ fault, message.decode = .error fault := by
  rw [fate]
  cases handlers.handler? message.type with
  | none => simp
  | some handler =>
    cases message.decode with
    | error fault => simp
    | ok event =>
      dsimp only
      split_ifs <;> simp

/-- **A message that is not processed leaves the store as it is.** -/
theorem treat_snd_of_ne (h : handlers.fate store.knows message ≠ .processed) (now : Instant) :
    (handlers.treat store message now).2 = store := by
  cases hdispatch : handlers.dispatch? message with
  | none => rw [treat_of_none hdispatch]
  | some p =>
    obtain ⟨handler, event⟩ := p
    rw [fate_of_some hdispatch] at h
    rw [treat_of_some hdispatch]
    exact MemoryStore.handle_of_not_ok fun hok => h (if_pos (MemoryStore.handle_ok_iff.1 hok))

/-- Messages register nobody. -/
theorem knows_treat (handlers : Handlers) (store : MemoryStore) (message : Message)
    (now : Instant) : (handlers.treat store message now).2.knows = store.knows := by
  cases h : handlers.dispatch? message with
  | none => rw [treat_of_none h]
  | some p =>
    rw [treat_of_some h]
    exact MemoryStore.knows_handle store p.1 now p.2

@[simp]
theorem reach_nil (handlers : Handlers) (store : MemoryStore) : handlers.reach store [] = store :=
  rfl

@[simp]
theorem reach_cons (handlers : Handlers) (store : MemoryStore) (m : Message × Instant)
    (taken : List (Message × Instant)) : handlers.reach store (m :: taken) =
      handlers.reach (handlers.treat store m.1 m.2).2 taken :=
  rfl

theorem reach_append (handlers : Handlers) (store : MemoryStore)
    (taken more : List (Message × Instant)) :
    handlers.reach store (taken ++ more) = handlers.reach (handlers.reach store taken) more :=
  List.foldl_append

theorem knows_reach (handlers : Handlers) (store : MemoryStore)
    (taken : List (Message × Instant)) : (handlers.reach store taken).knows = store.knows := by
  induction taken generalizing store with
  | nil => rfl
  | cons m taken ih => rw [reach_cons, ih, knows_treat]

/-- **The good messages alone** lead to the store to which all lead. -/
theorem reach_eq_reach_filter (handlers : Handlers) (store : MemoryStore)
    (taken : List (Message × Instant)) :
    handlers.reach store taken = handlers.reach store
      (taken.filter fun m => handlers.fate store.knows m.1 = .processed) := by
  induction taken generalizing store with
  | nil => rfl
  | cons m taken ih =>
    have hknows := knows_treat handlers store m.1 m.2
    rw [reach_cons, ih, hknows]
    by_cases hgood : handlers.fate store.knows m.1 = .processed
    · simp [hgood]
    · simp [hgood, treat_snd_of_ne hgood]

end Handlers

end Pulse
