import Pulse.Proofs.Store.History
import Pulse.Proofs.Store.Mirror.Log
import Pulse.Proofs.Store.Mirror.Samples

/-!
# A database answers as a store in memory

A database cuts all times to the millisecond.  Apart from that it answers every row of calls as the
store in memory does: `answers_eq`.  It has to be asked for what it can keep (`Call.IsStorable`),
the samples of a server have to be few enough for the store in memory to keep them all, and no
server may be turned off with a date before its last change, because the two stores have different
ideas of which change is the last one then.

The proof goes step by step: `Mirrors` is kept by every call, and stores that mirror each other give
the same answer (`Mirrors.agree`).
-/

set_option autoImplicit false

namespace Pulse

open Time (Instant)

/-! ## Calls cut to the millisecond -/

/-- The request with all its times cut to the millisecond. -/
def Store.Request.floor {form : Store.Form} : Store.Request form → Store.Request form
  | .register r => .register r
  | .get id => .get id
  | .list => .list
  | .heartbeat id time receivedAt => .heartbeat id time.floor receivedAt.floor
  | .demote id seenBefore now => .demote id seenBefore.floor now.floor
  | .insertSample s => .insertSample { s with timestamp := s.timestamp.floor }
  | .latestSamples id limit => .latestSamples id limit
  | .cleanupSamples before => .cleanupSamples before.floor
  | .cleanupTransitions before => .cleanupTransitions before.floor
  | .transitions start stop => .transitions start.floor stop.floor
  | .lastTransition id time => .lastTransition id time.floor
  | .health => .health
  | .close => .close

namespace Call

/-- The call with all its times cut to the millisecond. -/
def floor (call : Call) : Call :=
  ⟨call.request.floor⟩

/-- A database that is not closed can do what is asked without losing more than parts of
milliseconds. -/
def IsStorable : Call → Prop
  | ⟨.register r⟩ => 0 < r.interval
  | ⟨.heartbeat _ time receivedAt⟩ => time.isLeap = false ∧ receivedAt.isLeap = false
  | ⟨.demote _ seenBefore now⟩ => seenBefore.isLeap = false ∧ now.isLeap = false
  | ⟨.insertSample s⟩ => s.timestamp.isLeap = false ∧ DurableStore.IsPlain s.cpu ∧
      DurableStore.IsPlain s.ram ∧ DurableStore.IsPlain s.disk
  | ⟨.cleanupSamples before⟩ => before.isLeap = false
  | ⟨.cleanupTransitions before⟩ => before.isLeap = false
  | ⟨.transitions start stop⟩ => start.isLeap = false ∧ stop.isLeap = false
  | ⟨.lastTransition _ time⟩ => time.isLeap = false
  | ⟨.get _⟩ | ⟨.list⟩ | ⟨.latestSamples _ _⟩ => True
  | ⟨.health⟩ | ⟨.close⟩ => False

instance : DecidablePred IsStorable
  | ⟨.register r⟩ => inferInstanceAs (Decidable (0 < r.interval))
  | ⟨.heartbeat _ time receivedAt⟩ =>
    inferInstanceAs (Decidable (time.isLeap = false ∧ receivedAt.isLeap = false))
  | ⟨.demote _ seenBefore now⟩ =>
    inferInstanceAs (Decidable (seenBefore.isLeap = false ∧ now.isLeap = false))
  | ⟨.insertSample s⟩ =>
    inferInstanceAs (Decidable (s.timestamp.isLeap = false ∧ DurableStore.IsPlain s.cpu ∧
      DurableStore.IsPlain s.ram ∧ DurableStore.IsPlain s.disk))
  | ⟨.cleanupSamples before⟩ => inferInstanceAs (Decidable (before.isLeap = false))
  | ⟨.cleanupTransitions before⟩ => inferInstanceAs (Decidable (before.isLeap = false))
  | ⟨.transitions start stop⟩ =>
    inferInstanceAs (Decidable (start.isLeap = false ∧ stop.isLeap = false))
  | ⟨.lastTransition _ time⟩ => inferInstanceAs (Decidable (time.isLeap = false))
  | ⟨.get _⟩ | ⟨.list⟩ | ⟨.latestSamples _ _⟩ => inferInstanceAs (Decidable True)
  | ⟨.health⟩ | ⟨.close⟩ => inferInstanceAs (Decidable False)

/-- The time of the sample of a server that a call brings. -/
def sampleTime? (id : String) : Call → Option Instant
  | ⟨.insertSample s⟩ => if s.serverId = id then some s.timestamp else none
  | _ => none

end Call

/-- The times of the samples of a server, in the order of the calls. -/
def sampleTimes (id : String) (calls : List Call) : List Instant :=
  calls.filterMap (Call.sampleTime? id)

/-! ## Answers -/

/-- What a store answers. -/
abbrev Answer : Type := (form : Store.Form) × Except StorageError form.Answer

/-- The answer to a call. -/
def MemoryStore.answer (store : MemoryStore) (call : Call) : Answer :=
  ⟨call.form, (store.run call.request).map Prod.fst⟩

/-- The answers to calls, one after the other. -/
def MemoryStore.answers : MemoryStore → List Call → List Answer
  | _, [] => []
  | store, call :: calls => store.answer call :: (store.after call).answers calls

/-- The answer to a call. -/
def DurableStore.answer (store : DurableStore) (call : Call) : Answer :=
  ⟨call.form, (store.run call.request).map Prod.fst⟩

/-- The database after a call. -/
def DurableStore.after (store : DurableStore) (call : Call) : DurableStore :=
  match store.run call.request with
  | .ok (_, next) => next
  | .error _ => store

/-- The answers to calls, one after the other. -/
def DurableStore.answers : DurableStore → List Call → List Answer
  | _, [] => []
  | store, call :: calls => store.answer call :: (store.after call).answers calls

/-! ## One call -/

namespace Mirrors

variable {times : String → List Instant} {d : DurableStore} {m : MemoryStore} {call : Call}

/-- **Stores that mirror each other agree about a call.** -/
theorem agree (h : Mirrors times d m) (hcoherent : m.IsCoherent) (hcall : call.IsStorable)
    (htimes : ∀ id, ∀ time ∈ call.sampleTime? id, time.floor ∈ times id)
    (hfew : ∀ id, (times id).dedup.length ≤ MemoryStore.seriesLimit) :
    Agree times (d.run call.request) (m.run call.request.floor) := by
  obtain @⟨form, request⟩ := call
  cases request with
  | register r => exact h.register hcall
  | get id =>
    show Agree times (d.query _) (.ok (m.get? id, m))
    rw [h.query, h.get?]
    exact .ok h
  | list =>
    show Agree times (d.query _) (.ok (m.records, m))
    rw [h.query, h.records]
    exact .ok h
  | heartbeat id time receivedAt => exact h.heartbeat id hcall.1 hcall.2
  | demote id seenBefore now => exact h.demote id hcall.1 hcall.2
  | insertSample s =>
    obtain ⟨htime, hcpu, hram, hdisk⟩ := hcall
    show Agree times (d.query _) _
    rw [h.query]
    exact .ok (h.insertSample htime hcpu hram hdisk (htimes s.serverId _ (if_pos rfl)) (hfew _))
  | latestSamples id limit =>
    show Agree times (d.query _) (.ok (m.latestSamples id limit, m))
    rw [h.query, h.latestSamples (hfew id)]
    exact .ok h
  | cleanupSamples before =>
    show Agree times (d.query _) _
    rw [h.query]
    exact h.cleanupSamples hcall
  | cleanupTransitions before =>
    show Agree times (d.query _) _
    rw [h.query]
    exact h.cleanupTransitions hcoherent.sorted hcall
  | transitions start stop =>
    show Agree times (d.query _) (.ok (m.transitionsBetween start.floor stop.floor, m))
    rw [h.query, h.transitionsBetween hcall.1 hcall.2]
    exact .ok h
  | lastTransition id time =>
    show Agree times (d.query _) (.ok (m.lastTransition? id time.floor, m))
    rw [h.query, h.lastTransition? (hcoherent.sorted id) hcall]
    exact .ok h
  | health | close => exact hcall.elim

section

variable {form : Store.Form} {request : Store.Request form}

theorem answer_eq (hagree : Agree times (d.run request) (m.run request.floor)) :
    d.answer ⟨request⟩ = m.answer ⟨request.floor⟩ := by
  have hmap : (d.run request).map Prod.fst = (m.run request.floor).map Prod.fst := by
    generalize d.run request = r, m.run request.floor = r' at hagree
    cases hagree <;> rfl
  exact congrArg (Sigma.mk form) hmap

theorem after (h : Mirrors times d m) (hagree : Agree times (d.run request) (m.run request.floor)) :
    Mirrors times (d.after ⟨request⟩) (m.after ⟨request.floor⟩) := by
  generalize hr : d.run request = r, hr' : m.run request.floor = r' at hagree
  cases hagree with
  | ok h' =>
    simp only [DurableStore.after, MemoryStore.after, hr, hr']
    exact h'
  | error =>
    simp only [DurableStore.after, MemoryStore.after, hr, hr']
    exact h

end

/-! ## Any calls -/

theorem answers_eq_of_mirrors {calls : List Call} (h : Mirrors times d m)
    (hcoherent : m.IsCoherent) (hstorable : ∀ call ∈ calls, call.IsStorable)
    (htimes : ∀ call ∈ calls, ∀ id, ∀ time ∈ call.sampleTime? id, time.floor ∈ times id)
    (hfew : ∀ id, (times id).dedup.length ≤ MemoryStore.seriesLimit)
    (horderly : m.OrderlyAll (calls.map Call.floor)) :
    d.answers calls = m.answers (calls.map Call.floor) := by
  induction calls generalizing d m with
  | nil => rfl
  | cons call calls ih =>
    obtain ⟨hcall, hcalls⟩ := List.forall_mem_cons.1 hstorable
    obtain ⟨htime, htimes⟩ := List.forall_mem_cons.1 htimes
    obtain ⟨hstep, hsteps⟩ := horderly
    have hagree := h.agree hcoherent hcall htime hfew
    rw [List.map_cons, DurableStore.answers, MemoryStore.answers, answer_eq hagree,
      ih (h.after hagree) (hcoherent.after hstep) hcalls htimes hsteps]
    rfl

end Mirrors

theorem length_dedup_map_le {α β : Type} [DecidableEq α] [DecidableEq β] (f : α → β) (l : List α) :
    (l.map f).dedup.length ≤ l.dedup.length := by
  have hsub : (l.map f).dedup ⊆ l.dedup.map f := by
    intro b hb
    obtain ⟨a, ha, rfl⟩ := List.mem_map.1 (List.mem_dedup.1 hb)
    exact List.mem_map_of_mem (List.mem_dedup.2 ha)
  simpa using (List.subperm_of_subset (List.nodup_dedup _) hsub).length_le

/-- **A database gives the same answers as a store in memory** to which all times are given cut to
the millisecond, call by call and from the beginning. -/
theorem answers_eq (calls : List Call) (hstorable : ∀ call ∈ calls, call.IsStorable)
    (hfew : ∀ id, (sampleTimes id calls).dedup.length ≤ MemoryStore.seriesLimit)
    (horderly : MemoryStore.empty.OrderlyAll (calls.map Call.floor)) :
    DurableStore.empty.answers calls = MemoryStore.empty.answers (calls.map Call.floor) := by
  refine (mirrors_empty fun id => (sampleTimes id calls).map Instant.floor).answers_eq_of_mirrors
    MemoryStore.isCoherent_empty hstorable (fun call hcall id time htime => ?_)
    (fun id => (length_dedup_map_le _ _).trans (hfew id)) horderly
  exact List.mem_map_of_mem (List.mem_filterMap.2 ⟨call, hcall, htime⟩)

/-- A second after noon, and so many nanoseconds. -/
private def afterNoon (nano : Nat) : Instant :=
  (Instant.normalize? 20000 43201 nano).getD .last

/-- A server is heard, turned off within the same millisecond and heard again; a sample replaces
another of its millisecond. -/
private def hastyCalls : List Call :=
  [⟨.register ⟨"a", "10.0.0.1", 30⟩⟩, ⟨.heartbeat "a" (afterNoon 1500) (afterNoon 2500)⟩,
    ⟨.demote "a" (afterNoon 1000000) (afterNoon 900000)⟩,
    ⟨.heartbeat "a" (afterNoon 7) (afterNoon 950000)⟩,
    ⟨.insertSample ⟨"a", afterNoon 5, some 1.5, none, some 0.0⟩⟩,
    ⟨.insertSample ⟨"a", afterNoon 6, some 2.5, none, none⟩⟩,
    ⟨.heartbeat "b" (afterNoon 7) (afterNoon 950000)⟩,
    ⟨.latestSamples "a" 18446744073709551615⟩, ⟨.cleanupTransitions (afterNoon 1000000)⟩,
    ⟨.transitions (afterNoon 0) (afterNoon 1000000)⟩, ⟨.lastTransition "a" (afterNoon 1000001)⟩]

/-- The answers are the same though the database knows of one moment only. -/
theorem answers_eq_hasty :
    (∀ call ∈ hastyCalls, call.IsStorable) ∧
      DurableStore.empty.answers hastyCalls =
        MemoryStore.empty.answers (hastyCalls.map Call.floor) := by
  have hstorable : ∀ call ∈ hastyCalls, call.IsStorable := by decide +kernel
  have hfew : ∀ id, (sampleTimes id hastyCalls).dedup.length ≤ MemoryStore.seriesLimit := fun id =>
    (List.dedup_sublist _).length_le.trans ((List.length_filterMap_le _ _).trans (by decide))
  have hstamps : (stamps (hastyCalls.map Call.floor)).Pairwise (· ≤ ·) := by decide +kernel
  exact ⟨hstorable, answers_eq hastyCalls hstorable hfew
    (MemoryStore.orderlyAll_of_stamps hstamps fun _ _ => MemoryStore.dated_empty _)⟩

end Pulse
