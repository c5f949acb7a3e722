import Pulse.Proofs.Store.Watch
import Pulse.Proofs.System.Frames

/-!
# What handlers and passes ask of the store

The work that is done side by side in a system, as far as it turns servers on and off: registering a
server, handling an event and making a pass, each a `Duty`.  Of all that these do, only the calls of
the store matter for what is known about the servers.

* `Duty.Makes` lists the calls of a duty.  A heartbeat is dated with the moment of the call, turning
  off with the moment at which the pass began, however long ago that is.
* `Duty.meets_passAt`, `Duty.meets_action` — a duty makes only these calls, whatever else goes on
  while it waits.
-/

set_option autoImplicit false

namespace Pulse

open Activity (Meets)
open Time (Instant)

/-- Something that is done while other things are done. -/
inductive Duty where
  | register (r : Registration)
  | handle (handler : Handler) (event : Event)
  | pass

namespace Duty

/-- How a duty is done. -/
def action : Duty → Action Unit
  | register r => do let _ ← Action.ask (.register r)
  | handle handler event => do let _ ← Handler.handle Action.ask Action.now handler event
  | pass => do let _ ← Action.pass

/-- The calls that a duty makes at `now`, if it was begun at `since`. -/
def Makes (since now : Option Instant) : Duty → Call → Prop
  | register _, ⟨.register _⟩ => True
  | handle _ _, ⟨.heartbeat _ _ receivedAt⟩ => now = some receivedAt
  | handle _ _, ⟨.insertSample _⟩ => True
  | pass, ⟨.list⟩ => True
  | pass, ⟨.demote _ _ stamp⟩ => since = some stamp
  | _, _ => False

end Duty

/-! ## Calls of the store -/

/-- What happens to a system in a stretch at time `t` that makes only calls of a kind, if the store
is in memory. -/
def System.Called (P : Option Instant → Call → Prop) (t : Nat) (s s' : System) : Prop :=
  s'.origin = s.origin ∧ s'.disturbance = s.disturbance ∧
    ∀ store, s.store = .memory store →
      ∃ calls, (∀ call ∈ calls, P (s.moment? t) call) ∧ s'.store = .memory (store.afterAll calls)

namespace System

variable {P : Option Instant → Call → Prop} {t : Nat} {s s' s'' : System}

/-- Whatever leaves the store alone makes no calls. -/
theorem Called.of_eq (horigin : s'.origin = s.origin)
    (hdisturbance : s'.disturbance = s.disturbance) (hstore : s'.store = s.store) :
    Called P t s s' :=
  ⟨horigin, hdisturbance, fun store h => ⟨[], by simp, hstore.trans h⟩⟩

theorem Called.refl (t : Nat) (s : System) : Called P t s s :=
  .of_eq rfl rfl rfl

theorem Called.trans (h : Called P t s s') (h' : Called P t s' s'') : Called P t s s'' := by
  obtain ⟨horigin, hdisturbance, hcalls⟩ := h
  obtain ⟨horigin', hdisturbance', hcalls'⟩ := h'
  refine ⟨horigin'.trans horigin, hdisturbance'.trans hdisturbance, fun store hstore => ?_⟩
  obtain ⟨calls, hP, hstore⟩ := hcalls store hstore
  obtain ⟨more, hP', hstore⟩ := hcalls' _ hstore
  refine ⟨calls ++ more, fun call hcall => ?_, by rw [MemoryStore.afterAll_append, hstore]⟩
  rcases List.mem_append.1 hcall with hcall | hcall
  · exact hP call hcall
  · have := hP' call hcall
    rwa [moment?, horigin] at this

end System

/-- A disturbed store does what it would do otherwise, unless it fails. -/
theorem Disturbance.run_eq_after {form : Store.Form} {d : Disturbance}
    {request : Store.Request form} {store next : Store} {a : form.Answer}
    (h : d.run request store = .ok (a, next)) : next = store.after ⟨request⟩ := by
  have hafter {form : Store.Form} {request : Store.Request form} {a : form.Answer}
      (h : store.run request = .ok (a, next)) : next = store.after ⟨request⟩ := by
    simp only [Store.after, h]
  unfold Disturbance.run at h
  split at h
  · cases h
  · cases request with
    | health =>
      cases hrun : store.run .health with
      | error _ =>
        rw [hrun] at h
        cases h
      | ok answer =>
        rw [hrun] at h
        cases h
        exact hafter hrun
    | _ => exact hafter h

theorem Disturbance.run_memory {form : Store.Form} {d : Disturbance} {request : Store.Request form}
    {store : MemoryStore} {a : form.Answer} {next : Store}
    (h : d.run request (.memory store) = .ok (a, next)) :
    next = .memory (store.after ⟨request⟩) :=
  (Disturbance.run_eq_after h).trans (Store.after_memory store ⟨request⟩)

namespace Action

variable {P : Option Instant → Call → Prop} {t : Nat} {s : System}

theorem meets_modifyMonitor {Q : Unit → Nat → System → Prop} {change : Monitor → Monitor}
    (h : ∀ s, Q () t s) : Meets (System.Called P) Q (modifyMonitor change) t s :=
  Meets.modify (.of_eq rfl rfl rfl) (h _)

section

variable {form : Store.Form} {request : Store.Request form}
  {Q : Except StorageError form.Answer → Nat → System → Prop}

/-- A request that is answered without delay. -/
theorem meets_answer (hP : P (s.moment? t) ⟨request⟩) (h : ∀ a s, Q a t s) :
    Meets (System.Called P) Q (answer request) t s := by
  rw [answer, Meets]
  split
  · exact h _ _
  · next a next hrun =>
    refine ⟨⟨rfl, rfl, fun store hstore => ⟨[⟨request⟩], ?_, ?_⟩⟩, h _ _⟩
    · simpa using hP
    · rw [hstore] at hrun
      exact Disturbance.run_memory hrun

/-- A request may be answered later. -/
theorem meets_ask (hP : ∀ now, P now ⟨request⟩) (h : ∀ a t s, Q a t s) :
    Meets (System.Called P) Q (ask request) t s := by
  refine Meets.bind (Meets.get ?_)
  show Meets _ _ (if _ then _ else _) t s
  split
  · refine Meets.bind (Meets.bind (Meets.clock ?_))
    exact Meets.waiting System.Called.refl fun t s => meets_answer (hP _) fun a s => h a t s
  · exact meets_answer (hP _) fun a s => h a t s

theorem meets_ask_of_undelayed (hdelay : s.disturbance.delay request.kind = 0)
    (hP : P (s.moment? t) ⟨request⟩) (h : ∀ a s, Q a t s) :
    Meets (System.Called P) Q (ask request) t s := by
  refine Meets.bind (Meets.get ?_)
  show Meets _ _ (if _ then _ else _) t s
  rw [hdelay, if_neg (Nat.lt_irrefl 0)]
  exact meets_answer hP h

end

end Action

/-! ## Passes -/

namespace Duty

open Pulse.Action

variable {since : Instant} {t : Nat} {s : System}

theorem meets_endDemotion (t' : Nat) (u : Underway) {Q : RecordOutcome → Nat → System → Prop}
    (h : ∀ outcome s, Q outcome t s) :
    Meets (System.Called (pass.Makes (some since))) Q (endDemotion since t' u) t s := by
  show Meets _ _ (if _ then _ else _) t s
  split
  · exact Meets.bind (meets_answer rfl fun a s => h _ s)
  · exact h _ s

theorem meets_checkRecords (settings : MonitoringSettings) (steps : Nat)
    (todo : List ServerRecord) (underway : List Underway) (report : PassReport) (t : Nat)
    (s : System) :
    Meets (System.Called (pass.Makes (some since))) (fun _ _ _ => True)
      (checkRecords settings since steps todo underway report) t s := by
  induction steps generalizing todo underway report t s with
  | zero => trivial
  | succ steps ih =>
    unfold checkRecords
    refine Meets.bind (Meets.clock ?_)
    split
    · next u others _ =>
      refine Meets.bind (Meets.clock (Meets.bind (meets_endDemotion _ u fun outcome s => ?_)))
      exact ih todo others _ t s
    · split
      · next record rest =>
        split
        · refine Meets.bind (meets_checked fun verdict => ?_)
          split
          · exact ih rest underway _ t s
          · exact ih rest underway _ t s
          · exact Meets.bind (Meets.clock (Meets.bind (Meets.get (ih rest _ _ t s))))
        · exact Meets.bind (Meets.waiting System.Called.refl fun t s => ih _ _ _ t s)
      · split
        · trivial
        · exact Meets.bind (Meets.waiting System.Called.refl fun t s => ih _ _ _ t s)

theorem meets_scan (settings : MonitoringSettings) {Q : PassReport → Nat → System → Prop}
    (h : ∀ report t s, Q report t s) :
    Meets (System.Called (pass.Makes (some since))) Q (scan settings since) t s := by
  refine Meets.bind (Meets.clock (Meets.bind (Meets.within (fun t s => h _ t s) ?_)))
  refine meets_ask (fun _ => trivial) fun answer t s => ?_
  cases answer with
  | error e => exact h _ t s
  | ok records => exact (meets_checkRecords ..).mono fun report t s _ => h report t s

/-- **A pass asks the store only to list the servers and to turn some off**, and dates that with the
moment it was given at its start, whatever happens while it waits. -/
theorem meets_passAt (since : Instant) (t : Nat) (s : System)
    {Q : PassOutcome → Nat → System → Prop} (h : ∀ outcome t s, Q outcome t s) :
    Meets (System.Called (pass.Makes (some since))) Q (passAt since) t s := by
  refine Meets.bind (Meets.get (Meets.bind (meets_modifyMonitor fun s => ?_)))
  show Meets _ _ (if _ then _ else _) t s
  split
  · refine Meets.guarded (fun t _ _ _ => System.Called.trans) (fun t s => .of_eq rfl rfl rfl) ?_
    refine Meets.bind (Meets.get (Meets.bind (Meets.clock (Meets.bind ?_))))
    refine meets_scan _ fun report t s => ?_
    refine Meets.bind (Meets.clock (Meets.bind (meets_modifyMonitor fun s => ?_)))
    exact h _ t _
  · exact h _ t s

/-! ## Handlers -/

theorem meets_applyHeartbeat (since : Option Instant) (handler : Handler) (event : Event)
    {Q : Except HandlerError Unit → Nat → System → Prop}
    (hdelay : s.disturbance.delay .heartbeat = 0) (h : ∀ result s, Q result t s) :
    Meets (System.Called ((handle handler event).Makes since)) Q (applyHeartbeat ask now event)
      t s := by
  refine Meets.bind (meets_now fun receivedAt hnow => Meets.bind ?_)
  refine meets_ask_of_undelayed hdelay hnow fun answer s => ?_
  cases answer with
  | error e => exact h _ s
  | ok outcome => exact h _ s

/-- **A handler dates a heartbeat with the moment at which it is taken in.** -/
theorem meets_handle (since : Option Instant) (handler : Handler) (event : Event)
    {Q : Except HandlerError Unit → Nat → System → Prop}
    (hdelay : s.disturbance.delay .heartbeat = 0) (h : ∀ result t s, Q result t s) :
    Meets (System.Called ((handle handler event).Makes since)) Q (handler.handle ask now event)
      t s := by
  cases handler with
  | status => exact meets_applyHeartbeat since _ event hdelay fun result s => h result t s
  | metrics =>
    rw [Handler.handle, applyMetrics]
    split
    · exact h _ t s
    · refine Meets.bind (meets_applyHeartbeat since _ event hdelay fun result s => ?_)
      cases result with
      | error e => exact h _ t s
      | ok _ =>
        show Meets _ _ (if _ then _ else _) t s
        split
        · refine Meets.bind (meets_ask (fun _ => trivial) fun answer t s => ?_)
          cases answer with
          | error e => exact h _ t s
          | ok _ => exact h _ t s
        · exact h _ t s

/-! ## Any duty -/

/-- **A duty makes its own calls only**, whatever else goes on while it waits, provided that
heartbeats are taken in without delay. -/
theorem meets_action (duty : Duty) (hdelay : s.disturbance.delay .heartbeat = 0) :
    Meets (System.Called (duty.Makes (s.moment? t))) (fun _ _ _ => True) duty.action t s := by
  cases duty with
  | register r => exact Meets.bind (meets_ask (fun _ => trivial) fun _ _ _ => trivial)
  | handle handler event =>
    exact Meets.bind (meets_handle _ handler event hdelay fun _ _ _ => trivial)
  | pass =>
    refine Meets.bind (Meets.bind (meets_now fun since hsince => ?_))
    rw [hsince]
    exact meets_passAt since t s fun _ _ _ => trivial

end Duty

end Pulse
