import Pulse.Monitor
import Pulse.Proofs.Store.Legible
import Pulse.Proofs.Store.Rows
import Pulse.Proofs.Time.Shift

/-!
# Nobody turns off a server that lives

A pass judges the records that it has listed at one moment, and asks the store to turn silent
servers off at other moments, when the records may have changed.  Can a server be turned off
although it was heard within its window?

A `Watch` is a store that is used by passes and by others at the same time, step by step and in any
order, and it remembers every heartbeat that the store has accepted.  Turning off is conditional in
the store itself, which compares the newest heartbeat with the moment that the pass has computed, so
whatever was heard in the meantime counts; a database compares milliseconds, and cutting both
moments to the millisecond never makes a server look older than it is.

* `Store.Remembers` — a heartbeat is not newer than what the store shows; no call undoes this.
* `Store.Remembers.spared` — a store that remembers a heartbeat turns nobody off for want of it.
* `Watch.afterAll_spares` — the same for all passes, at any moment.
-/

set_option autoImplicit false

namespace Pulse

open Time (Instant)

/-! ## Moments -/

namespace Time.Instant

/-- What has the lesser number of milliseconds is earlier, unless the other is a leap second. -/
theorem lt_of_toMillis_lt {s t : Instant} (ht : t.isLeap = false) (h : s.toMillis < t.toMillis) :
    s < t := by
  have ht' : t.nano < 1000000000 := by simpa [isLeap] using ht
  have hs := s.second_lt
  simp only [toMillis] at h
  rw [lt_iff_position_lt, position, position]
  omega

theorem toMillis_le_toMillis {s t : Instant} (hs : s.isLeap = false) (h : s ≤ t) :
    s.toMillis ≤ t.toMillis :=
  not_lt.1 fun hlt => not_lt.2 h (lt_of_toMillis_lt hs hlt)

/-- A distance leads from a moment outside leap seconds to another one. -/
theorem isLeap_sub? {t u : Instant} {s : Span} (ht : t.isLeap = false) (h : t.sub? s = some u) :
    u.isLeap = false := by
  simp only [sub?, add?, ht, Bool.false_eq_true, if_false] at h
  have hnano := (nanos_of_normalize? h).1
  simpa [isLeap] using hnano

end Time.Instant

/-! ## Both stores -/

namespace Store

/-- The store after a call. -/
def after (store : Store) (call : Call) : Store :=
  match store.run call.request with
  | .ok (_, next) => next
  | .error _ => store

/-- The status of a server. -/
def statusOf (store : Store) (id : String) : Status :=
  match store with
  | .memory store => store.statusOf id
  | .durable store => store.statusOf id

/-- The time of the heartbeat that a call brings to a server, if the store accepts it. -/
def heard? (store : Store) (id : String) : Call → Option Instant
  | ⟨.heartbeat id' time receivedAt⟩ =>
    if id' = id ∧ (store.run (.heartbeat id' time receivedAt)).isOk then some time else none
  | _ => none

/-- The store cuts moments to the millisecond. -/
def isDurable : Store → Bool
  | .memory _ => false
  | .durable _ => true

/-- The store refuses everything. -/
def isClosed : Store → Bool
  | .memory _ => false
  | .durable store => store.closed

/-- The store shows that the server was heard at `t` or later. -/
def Remembers (store : Store) (id : String) (t : Instant) : Prop :=
  match store with
  | .memory store => ∃ last, store.lastSeen? id = some last ∧ t ≤ last
  | .durable store => ∃ last, store.lastSeen? id = some last ∧ t.toMillis ≤ last

variable {store : Store} {id : String} {call : Call} {t seenBefore now : Instant}

theorem after_memory (m : MemoryStore) (call : Call) :
    (memory m).after call = .memory (m.after call) := by
  simp only [after, run, MemoryStore.after]
  cases m.run call.request <;> rfl

theorem after_durable (d : DurableStore) (call : Call) :
    (durable d).after call = .durable (d.after call) := by
  simp only [after, run, DurableStore.after]
  cases d.run call.request <;> rfl

theorem isOk_map {ε α β : Type} (f : α → β) (x : Except ε α) : (x.map f).isOk = x.isOk := by
  cases x <;> rfl

theorem heard?_memory (m : MemoryStore) (id : String) (call : Call) :
    (memory m).heard? id call = m.heard? id call := by
  obtain @⟨form, request⟩ := call
  cases request with
  | heartbeat id' time receivedAt =>
    rw [heard?, run, isOk_map]
    rfl
  | _ => rfl

theorem heard?_durable (d : DurableStore) (id : String) (call : Call) :
    (durable d).heard? id call = d.heard? id call := by
  obtain @⟨form, request⟩ := call
  cases request with
  | heartbeat id' time receivedAt =>
    rw [heard?, run, isOk_map]
    rfl
  | _ => rfl

theorem isDurable_after (store : Store) (call : Call) :
    (store.after call).isDurable = store.isDurable := by
  cases store with
  | memory m => rw [after_memory]; rfl
  | durable d => rw [after_durable]; rfl

/-! ## What a store remembers -/

/-- No call makes a store forget. -/
theorem Remembers.after (h : store.Remembers id t) (call : Call) :
    (store.after call).Remembers id t := by
  cases store with
  | memory m =>
    obtain ⟨last, hlast, hle⟩ := h
    rw [after_memory, Remembers, m.lastSeen?_after, hlast]
    cases m.heard? id call with
    | none => exact ⟨last, rfl, hle⟩
    | some time => exact ⟨max last time, rfl, hle.trans (le_max_left _ _)⟩
  | durable d =>
    obtain ⟨last, hlast, hle⟩ := h
    rw [after_durable, Remembers, d.lastSeen?_after, hlast]
    cases d.heard? id call with
    | none => exact ⟨last, rfl, hle⟩
    | some time => exact ⟨max last time.toMillis, rfl, hle.trans (le_max_left _ _)⟩

/-- What a store accepts, it remembers. -/
theorem remembers_of_heard (h : store.heard? id call = some t) :
    (store.after call).Remembers id t := by
  cases store with
  | memory m =>
    rw [heard?_memory] at h
    rw [after_memory, Remembers, m.lastSeen?_after, h]
    cases m.lastSeen? id with
    | none => exact ⟨t, rfl, le_rfl⟩
    | some last => exact ⟨max last t, rfl, le_max_right _ _⟩
  | durable d =>
    rw [heard?_durable] at h
    rw [after_durable, Remembers, d.lastSeen?_after, h]
    cases d.lastSeen? id with
    | none => exact ⟨t.toMillis, rfl, le_rfl⟩
    | some last => exact ⟨max last t.toMillis, rfl, le_max_right _ _⟩

/-- **A store does not turn off a server that was heard**, at the moment asked for or later. -/
theorem Remembers.spared (h : store.Remembers id t) (hle : seenBefore ≤ t)
    (hleap : store.isDurable = true → seenBefore.isLeap = false) (hopen : store.isClosed = false)
    (now : Instant) : store.run (.demote id seenBefore now) = .ok (false, store) := by
  cases store with
  | memory m =>
    obtain ⟨last, hlast, hle'⟩ := h
    obtain ⟨record, hget, hseen⟩ := Option.bind_eq_some_iff.1 hlast
    have hsilent : ¬ record.isSilent seenBefore = true := by
      have hnewer : ¬ last < seenBefore := not_lt.2 (hle.trans hle')
      simp [ServerRecord.isSilent, hseen, hnewer]
    have hdemote : m.demote id seenBefore now = .ok (false, m) := by
      rw [MemoryStore.demote, hget]
      exact if_neg hsilent
    show (m.demote id seenBefore now).map _ = _
    rw [hdemote]
    rfl
  | durable d =>
    obtain ⟨last, hlast, hle'⟩ := h
    obtain ⟨row, hrow, hseen⟩ := Option.bind_eq_some_iff.1 hlast
    have hmillis := (Instant.toMillis_le_toMillis (hleap rfl) hle).trans hle'
    have hdemote : d.demote id seenBefore now = .ok (false, d) := by
      rw [DurableStore.demote_of_row? hopen hrow, if_neg (by simp [hseen, hmillis])]
    show (d.demote id seenBefore now).map _ = _
    rw [hdemote]
    rfl

/-- A closed store is not changed either. -/
theorem Remembers.after_demote (h : store.Remembers id t) (hle : seenBefore ≤ t)
    (hleap : store.isDurable = true → seenBefore.isLeap = false) (now : Instant) :
    store.after ⟨.demote id seenBefore now⟩ = store := by
  cases hclosed : store.isClosed with
  | false => simp only [Store.after, h.spared hle hleap hclosed now]
  | true =>
    cases store with
    | memory m => cases hclosed
    | durable d =>
      have hrefused : d.run (.demote id seenBefore now) = .error _ :=
        DurableStore.query_of_closed hclosed
      rw [after_durable, DurableStore.after_of_error hrefused]

/-- Only turning a server off turns it off. -/
theorem demote_of_turnedOff (hon : store.statusOf id = .on)
    (hoff : (store.after call).statusOf id ≠ .on) :
    ∃ seenBefore now, call = ⟨.demote id seenBefore now⟩ := by
  cases store with
  | memory m =>
    have he := m.effect_after id call
    rw [after_memory] at hoff
    simp only [statusOf, MemoryStore.statusOf] at hon hoff
    generalize (m.after call).get? id = r, (m.after call).historyOf id = changes at he hoff
    cases he with
    | turnedOff => exact ⟨_, _, rfl⟩
    | untouched | cleaned => exact absurd hon hoff
    | registered _ hnew => rw [hnew] at hon; cases hon
    | refreshed _ hget => rw [hget] at hon; exact absurd hon hoff
    | seen | turnedOn => exact absurd (ServerRecord.status_heartbeat ..) hoff
  | durable d =>
    have he := d.rowEffect_after id call
    rw [after_durable] at hoff
    simp only [statusOf, DurableStore.statusOf] at hon hoff
    generalize (d.after call).row? id = r at he hoff
    cases he with
    | turnedOff => exact ⟨_, _, rfl⟩
    | untouched => exact absurd hon hoff
    | registered hnew => rw [hnew] at hon; cases hon
    | refreshed hrow => rw [hrow] at hon; exact absurd hon hoff
    | heard _ _ hheard => exact absurd hheard hoff

end Store

/-! ## Passes at any moment -/

/-- A pass that has listed the records. -/
structure Patrol where
  /-- The moment at which the pass judges. -/
  now : Instant
  /-- How many periods a server may be silent. -/
  grace : Float
  listed : List ServerRecord

/-- What a pass asks for when it has judged a record. -/
def Patrol.demotion? (patrol : Patrol) (record : ServerRecord) : Option Call :=
  match record.verdict patrol.now patrol.grace with
  | .ok (.silent seenBefore) => some ⟨.demote record.serverId seenBefore patrol.now⟩
  | _ => none

/-- A store that is used by passes and by others. -/
structure Watch where
  store : Store
  patrols : List Patrol
  /-- The times of the heartbeats of each server that were accepted, in the order of acceptance. -/
  heard : String → List Instant

namespace Watch

/-- A step of a pass or of somebody else. -/
inductive Move where
  /-- Somebody asks something of the store. -/
  | call (call : Call)
  /-- A pass lists the records. -/
  | list (now : Instant) (grace : Float)
  /-- A pass turns off a server that it has listed, if it judges so. -/
  | demote (patrol record : Nat)

/-- A store that nobody has used. -/
def start (store : Store) : Watch := ⟨store, [], fun _ => []⟩

def ask (w : Watch) (call : Call) : Watch :=
  { w with
    store := w.store.after call
    heard := fun id => w.heard id ++ (w.store.heard? id call).toList }

/-- What a pass asks for about a record that it has listed. -/
def demotion? (w : Watch) (patrol record : Nat) : Option Call := do
  let patrol ← w.patrols[patrol]?
  let record ← patrol.listed[record]?
  patrol.demotion? record

/-- What a step asks of the store, apart from listing. -/
def call? (w : Watch) : Move → Option Call
  | .call call => some call
  | .list _ _ => none
  | .demote patrol record => w.demotion? patrol record

/-- The watch after a step. -/
def after (w : Watch) : Move → Watch
  | .call call => w.ask call
  | .list now grace =>
    match w.store.run .list with
    | .ok (records, _) => { w with patrols := w.patrols ++ [⟨now, grace, records⟩] }
    | .error _ => w
  | .demote patrol record => (w.demotion? patrol record).elim w w.ask

/-- The watch after steps, one after the other. -/
def afterAll (w : Watch) (moves : List Move) : Watch :=
  moves.foldl after w

/-- A step is to turn a server off unless it was heard at `seenBefore` or later.  For a pass this is
the moment of the pass less the window of the record that the pass has listed. -/
def Demotes (w : Watch) (id : String) (seenBefore now : Instant) : Move → Prop
  | .call call => call = ⟨.demote id seenBefore now⟩
  | .list _ _ => False
  | .demote i j => ∃ patrol record window, w.patrols[i]? = some patrol ∧
      patrol.listed[j]? = some record ∧ record.serverId = id ∧ patrol.now = now ∧
      record.window? patrol.grace = some window ∧ now.sub window = .ok seenBefore

/-- The moments of a step are no leap seconds, as far as they matter: those with which heartbeats are
compared. -/
def Move.IsPlain : Move → Prop
  | .call ⟨.demote _ seenBefore _⟩ => seenBefore.isLeap = false
  | .call _ => True
  | .list now _ => now.isLeap = false
  | .demote _ _ => True

/-- Whoever lives stays on. -/
structure Spares (w : Watch) (move : Move) : Prop where
  /-- If a server is turned off, every heartbeat of it is older than what the step asks for. -/
  silent (id : String) :
    w.store.statusOf id = .on → (w.after move).store.statusOf id ≠ .on →
      ∃ seenBefore now, w.Demotes id seenBefore now move ∧ ∀ t ∈ w.heard id, t < seenBefore
  /-- If a heartbeat of the server is not, the answer is no, and nothing changes. -/
  live (id : String) (seenBefore now t : Instant) :
    w.Demotes id seenBefore now move → t ∈ w.heard id → seenBefore ≤ t →
      (w.after move).store = w.store ∧ (w.store.isClosed = false →
        w.store.run (.demote id seenBefore now) = .ok (false, w.store))

/-- What is known of every watch. -/
structure Sound (w : Watch) : Prop where
  remembered : ∀ id, ∀ t ∈ w.heard id, w.store.Remembers id t
  plain : w.store.isDurable = true → ∀ patrol ∈ w.patrols, patrol.now.isLeap = false

variable {w : Watch} {id : String} {move : Move} {call : Call} {seenBefore now t : Instant}

theorem sound_start (store : Store) : (start store).Sound where
  remembered _ _ ht := nomatch ht
  plain _ _ hpatrol := nomatch hpatrol

theorem Sound.ask (h : w.Sound) (call : Call) : (w.ask call).Sound where
  remembered id t ht := by
    rcases List.mem_append.1 ht with ht | ht
    · exact (h.remembered id t ht).after call
    · exact Store.remembers_of_heard (by simpa using ht)
  plain hdurable := h.plain ((Store.isDurable_after w.store call).symm.trans hdurable)

theorem isDurable_after (w : Watch) (move : Move) :
    (w.after move).store.isDurable = w.store.isDurable := by
  cases move with
  | call call => exact Store.isDurable_after w.store call
  | list now grace =>
    rw [after]
    cases w.store.run .list <;> rfl
  | demote i j =>
    rw [after]
    cases w.demotion? i j with
    | none => rfl
    | some call => exact Store.isDurable_after w.store call

theorem Sound.after (h : w.Sound) (hplain : w.store.isDurable = true → move.IsPlain) :
    (w.after move).Sound := by
  cases move with
  | call call => exact h.ask call
  | list now grace =>
    rw [Watch.after]
    cases w.store.run .list with
    | error _ => exact h
    | ok answer =>
      refine ⟨h.remembered, fun hdurable patrol hpatrol => ?_⟩
      rcases List.mem_append.1 hpatrol with hpatrol | hpatrol
      · exact h.plain hdurable patrol hpatrol
      · obtain rfl := List.mem_singleton.1 hpatrol
        exact hplain hdurable
  | demote i j =>
    rw [Watch.after]
    cases w.demotion? i j with
    | none => exact h
    | some call => exact h.ask call

theorem Sound.afterAll (h : w.Sound) {moves : List Move}
    (hplain : w.store.isDurable = true → ∀ move ∈ moves, move.IsPlain) :
    (w.afterAll moves).Sound := by
  induction moves generalizing w with
  | nil => exact h
  | cons move moves ih =>
    refine ih (h.after fun hdurable => hplain hdurable move List.mem_cons_self) fun hdurable => ?_
    rw [isDurable_after] at hdurable
    exact fun m hm => hplain hdurable m (List.mem_cons_of_mem move hm)

theorem isDurable_afterAll (w : Watch) (moves : List Move) :
    (w.afterAll moves).store.isDurable = w.store.isDurable := by
  induction moves generalizing w with
  | nil => rfl
  | cons move moves ih => exact (ih (w.after move)).trans (isDurable_after w move)

/-! ## Turning off -/

theorem exists_of_bind_eq_ok {α β : Type} {x : Time.Checked α} {f : α → Time.Checked β} {b : β}
    (h : x >>= f = .ok b) : ∃ a, x = .ok a ∧ f a = .ok b := by
  cases x with
  | ok a => exact ⟨a, rfl, h⟩
  | error _ => cases h

theorem require_eq_ok_iff {α : Type} {x : Option α} {a : α} :
    Time.require x = .ok a ↔ x = some a := by
  cases x <;> simp [Time.require]

/-- A pass judges a record at its own moment and with the window of the record. -/
theorem exists_window_of_verdict {record : ServerRecord} {grace : Float}
    (h : record.verdict now grace = .ok (.silent seenBefore)) :
    ∃ window, record.window? grace = some window ∧ now.sub window = .ok seenBefore := by
  rw [ServerRecord.verdict] at h
  split_ifs at h
  · cases h
  · cases h
  · obtain ⟨stale, -, h⟩ := exists_of_bind_eq_ok h
    split_ifs at h
    · obtain ⟨window, hwindow, h⟩ := exists_of_bind_eq_ok h
      obtain ⟨moment, hsub, h⟩ := exists_of_bind_eq_ok h
      cases h
      exact ⟨window, require_eq_ok_iff.1 hwindow, hsub⟩
    · cases h

/-- What a pass asks for is to turn off a server that it has listed. -/
theorem demotes_of_demotion? {i j : Nat} (h : w.demotion? i j = some call) :
    ∃ id seenBefore now, call = ⟨.demote id seenBefore now⟩ ∧
      w.Demotes id seenBefore now (.demote i j) := by
  obtain ⟨patrol, hpatrol, h⟩ := Option.bind_eq_some_iff.1 h
  obtain ⟨record, hrecord, h⟩ := Option.bind_eq_some_iff.1 h
  rw [Patrol.demotion?] at h
  split at h
  · next seenBefore hverdict =>
    obtain ⟨window, hwindow, hsub⟩ := exists_window_of_verdict hverdict
    cases h
    exact ⟨_, _, _, rfl, patrol, record, window, hpatrol, hrecord, rfl, rfl, hwindow, hsub⟩
  · cases h

theorem demotes_of_call? (h : w.call? move = some ⟨.demote id seenBefore now⟩) :
    w.Demotes id seenBefore now move := by
  cases move with
  | call call => exact Option.some.inj h
  | list => cases h
  | demote i j =>
    obtain ⟨_, _, _, heq, hdemotes⟩ := demotes_of_demotion? h
    cases heq
    exact hdemotes

theorem Demotes.unique {other : String} {seenBefore' now' : Instant}
    (h : w.Demotes id seenBefore now move) (h' : w.Demotes other seenBefore' now' move) :
    (⟨.demote id seenBefore now⟩ : Call) = ⟨.demote other seenBefore' now'⟩ := by
  cases move with
  | call call => exact h.symm.trans h'
  | list => exact h.elim
  | demote i j =>
    obtain ⟨patrol, record, window, hpatrol, hrecord, rfl, rfl, hwindow, hsub⟩ := h
    obtain ⟨patrol', record', window', hpatrol', hrecord', rfl, rfl, hwindow', hsub'⟩ := h'
    cases hpatrol.symm.trans hpatrol'
    cases hrecord.symm.trans hrecord'
    cases hwindow.symm.trans hwindow'
    cases hsub.symm.trans hsub'
    rfl

/-- A step that is to turn a server off asks for nothing else. -/
theorem Demotes.call?_eq (h : w.Demotes id seenBefore now move) :
    w.call? move = none ∨ w.call? move = some ⟨.demote id seenBefore now⟩ := by
  cases move with
  | call call => exact .inr (congrArg some h)
  | list => exact .inl rfl
  | demote i j =>
    cases hcall : w.demotion? i j with
    | none => exact .inl hcall
    | some call =>
      obtain ⟨_, _, _, rfl, hdemotes⟩ := demotes_of_demotion? hcall
      exact .inr (hcall.trans (congrArg some (hdemotes.unique h)))

theorem store_after (w : Watch) (move : Move) :
    (w.after move).store = (w.call? move).elim w.store w.store.after := by
  cases move with
  | call call => rfl
  | list now grace =>
    rw [after]
    cases w.store.run .list <;> rfl
  | demote i j =>
    rw [after, call?]
    cases w.demotion? i j <;> rfl

/-- The moment with which heartbeats are compared is no leap second. -/
theorem Sound.isLeap_of_demotes (h : w.Sound) (hplain : w.store.isDurable = true → move.IsPlain)
    (hdemotes : w.Demotes id seenBefore now move) (hdurable : w.store.isDurable = true) :
    seenBefore.isLeap = false := by
  cases move with
  | call call =>
    cases hdemotes
    exact hplain hdurable
  | list => exact hdemotes.elim
  | demote i j =>
    obtain ⟨patrol, record, window, hpatrol, -, -, rfl, -, hsub⟩ := hdemotes
    have hnow := h.plain hdurable patrol (List.mem_of_getElem? hpatrol)
    rw [Instant.sub] at hsub
    cases hsub? : patrol.now.sub? window with
    | none =>
      rw [hsub?] at hsub
      cases hsub
    | some u =>
      rw [hsub?] at hsub
      cases hsub
      exact Instant.isLeap_sub? hnow hsub?

theorem Sound.spares (h : w.Sound) (hplain : w.store.isDurable = true → move.IsPlain) :
    w.Spares move := by
  have hspared {id : String} {seenBefore now t : Instant}
      (hdemotes : w.Demotes id seenBefore now move) (ht : t ∈ w.heard id) (hle : seenBefore ≤ t) :
      (w.after move).store = w.store := by
    have hleap := h.isLeap_of_demotes hplain hdemotes
    rw [store_after]
    rcases hdemotes.call?_eq with hcall | hcall <;> rw [hcall]
    · rfl
    · exact (h.remembered id t ht).after_demote hle hleap now
  constructor
  · intro id hon hoff
    have hoff' := hoff
    rw [store_after] at hoff'
    cases hcall : w.call? move with
    | none =>
      rw [hcall] at hoff'
      exact absurd hon hoff'
    | some call =>
      rw [hcall] at hoff'
      obtain ⟨seenBefore, now, rfl⟩ := Store.demote_of_turnedOff hon hoff'
      have hdemotes := demotes_of_call? hcall
      refine ⟨seenBefore, now, hdemotes, fun t ht => not_le.1 fun hle => ?_⟩
      rw [hspared hdemotes ht hle] at hoff
      exact hoff hon
  · intro id seenBefore now t hdemotes ht hle
    refine ⟨hspared hdemotes ht hle, fun hopen => ?_⟩
    exact (h.remembered id t ht).spared hle (h.isLeap_of_demotes hplain hdemotes) hopen now

/-- **Nobody turns off a server that lives**, whatever passes and others do to the store and in
whatever order. -/
theorem afterAll_spares (store : Store) (moves : List Move) (move : Move)
    (hplain : store.isDurable = true → ∀ m ∈ move :: moves, m.IsPlain) :
    ((start store).afterAll moves).Spares move := by
  have hsound := (sound_start store).afterAll fun hdurable m hm =>
    hplain hdurable m (List.mem_cons_of_mem move hm)
  refine hsound.spares fun hdurable => ?_
  rw [isDurable_afterAll] at hdurable
  exact hplain hdurable move List.mem_cons_self

/-- Noon of a day, and a moment so many seconds before. -/
private def beforeNoon (seconds : Nat) : Instant := .ofMillis (1728043200000 - 1000 * seconds)

/-- Two servers with a period of ten seconds are heard, one of them half a minute before noon; the
records are listed, and then that server is heard again. -/
private def dutyMoves : List Move :=
  [.call ⟨.register ⟨"a", "10.0.0.1", 10⟩⟩, .call ⟨.register ⟨"b", "10.0.0.2", 10⟩⟩,
    .call ⟨.heartbeat "a" (beforeNoon 30) (beforeNoon 30)⟩,
    .call ⟨.heartbeat "b" (beforeNoon 30) (beforeNoon 30)⟩,
    .list (beforeNoon 0) 2.0, .call ⟨.heartbeat "a" (beforeNoon 20) (beforeNoon 0)⟩]

/-- The pass turns off the server that stayed silent, and not the one that was heard at the last
moment that counts. -/
theorem afterAll_spares_heard :
    let w := (start (.durable .empty)).afterAll dutyMoves
    (∀ m ∈ dutyMoves, m.IsPlain) ∧
      (∃ seenBefore now, w.Demotes "b" seenBefore now (.demote 0 1) ∧
        ∀ t ∈ w.heard "b", t < seenBefore) ∧
      (w.after (.demote 0 0)).store = w.store := by
  have hplain : ∀ m ∈ dutyMoves, m.IsPlain := by
    simp only [dutyMoves, List.forall_mem_cons]
    have hnoon : (beforeNoon 0).isLeap = false := by decide +kernel
    exact ⟨trivial, trivial, trivial, trivial, hnoon, trivial, List.forall_mem_nil _⟩
  have hmoves (j : Nat) : ∀ m ∈ Move.demote 0 j :: dutyMoves, m.IsPlain :=
    List.forall_mem_cons.2 ⟨trivial, hplain⟩
  refine ⟨hplain, ?_, ?_⟩
  · have hspares := afterAll_spares (.durable .empty) dutyMoves (.demote 0 1) fun _ => hmoves 1
    exact hspares.silent "b" (by decide +kernel) (by decide +kernel)
  · have hspares := afterAll_spares (.durable .empty) dutyMoves (.demote 0 0) fun _ => hmoves 0
    refine (hspares.live "a" (beforeNoon 20) (beforeNoon 0) (beforeNoon 20) ?_ ?_ ?_).1
    · exact demotes_of_call? rfl
    · decide +kernel
    · decide +kernel

end Watch

end Pulse
