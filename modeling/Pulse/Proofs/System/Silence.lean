import Pulse.Proofs.Activity.Alone
import Pulse.Proofs.Handler.Arrivals
import Pulse.Proofs.System.Duties
import Pulse.Proofs.System.Interleaving

/-!
# Silence is detected

A server that falls silent is turned off by the next pass, if nothing goes wrong in it and nobody
interferes.  What counts is the newest stamp that has arrived, not when it arrived: a heartbeat that
was stamped ahead of its time keeps its server on for longer.

* `Action.alone_checkRecords` — a pass that is alone and has no failures leaves nobody on whom it
  has judged silent.
* `silence_detected` — after any occurrences, whoever is on after such a pass has a stamp within its
  window; if nobody stamps ahead of the time, then something has arrived within the window.
* `not_detected_by_receipt` — without that, a server can be on of which nothing has arrived for
  longer than its window.
-/

set_option autoImplicit false

namespace Pulse

open Activity (Alone)
open Time (Instant Span)

/-! ## Stores in which servers fall silent -/

namespace MemoryStore

/-- The server is not both on and last seen before `seenBefore`. -/
def Quiet (store : MemoryStore) (id : String) (seenBefore : Instant) : Prop :=
  ∀ record, store.get? id = some record → record.isSilent seenBefore = false

/-- Some servers may have been turned off, and nothing else has happened to the records. -/
structure Fades (store store' : MemoryStore) : Prop where
  unchanged : ∀ id record, store'.get? id = some record → record.status = .on →
    store.get? id = some record

variable {store store' store'' : MemoryStore}

theorem Fades.refl (store : MemoryStore) : store.Fades store where
  unchanged _ _ hget _ := hget

theorem Fades.trans (h : store.Fades store') (h' : store'.Fades store'') :
    store.Fades store'' where
  unchanged id record hget hon := h.unchanged id record (h'.unchanged id record hget hon) hon

/-- Who is turned off later was not silent and on before. -/
theorem Fades.quiet (h : store.Fades store') {id : String} {seenBefore : Instant}
    (hquiet : store.Quiet id seenBefore) : store'.Quiet id seenBefore := by
  intro record hget
  cases hsilent : record.isSilent seenBefore with
  | false => rfl
  | true =>
    have hget' := h.unchanged id record hget (ServerRecord.status_of_isSilent hsilent)
    exact hsilent.symm.trans (hquiet record hget')

theorem get?_after_demote (store : MemoryStore) (id : String) (seenBefore now : Instant) :
    store.Fades (store.after ⟨.demote id seenBefore now⟩) ∧
      (store.after ⟨.demote id seenBefore now⟩).Quiet id seenBefore := by
  cases hget : store.get? id with
  | none =>
    rw [after_demote_of_none hget]
    refine ⟨.refl store, fun record hget' => ?_⟩
    rw [hget] at hget'
    cases hget'
  | some record =>
    have hrecord : record.serverId = id := serverId_of_get? hget
    have hid : (record.demoted now).serverId = id := hrecord
    rw [after_demote hget]
    by_cases hsilent : record.isSilent seenBefore = true
    · rw [if_pos hsilent]
      refine ⟨⟨fun id' record' hget' hon => ?_⟩, fun record' hget' => ?_⟩
      · rw [get?_log, get?_putRecord, hid] at hget'
        by_cases hid' : id = id'
        · rw [if_pos hid'] at hget'
          cases hget'
          cases hon
        · rwa [if_neg hid'] at hget'
      · rw [get?_log, get?_putRecord, if_pos hid] at hget'
        cases hget'
        rfl
    · rw [if_neg hsilent]
      refine ⟨.refl store, fun record' hget' => ?_⟩
      obtain rfl := Option.some_inj.1 (hget.symm.trans hget')
      exact Bool.not_eq_true _ ▸ hsilent

end MemoryStore

/-! ## Steps of a pass that is alone -/

theorem perm_takeOver {t : Nat} {underway others : List Underway} {u : Underway}
    (h : takeOver t underway = some (u, others)) :
    u.isOver t = true ∧ underway.Perm (u :: others) := by
  induction underway generalizing u others with
  | nil => cases h
  | cons w rest ih =>
    rw [takeOver] at h
    split at h
    · next hover =>
      cases h
      exact ⟨hover, List.Perm.refl _⟩
    · obtain ⟨taken, hrest, heq⟩ := Option.map_eq_some_iff.1 h
      obtain ⟨v, vs⟩ := taken
      cases heq
      obtain ⟨hover, hperm⟩ := ih hrest
      exact ⟨hover, (hperm.cons w).trans (List.Perm.swap ..)⟩

theorem isSome_takeOver {t : Nat} {underway : List Underway} {u : Underway} (hu : u ∈ underway)
    (hover : u.isOver t = true) : (takeOver t underway).isSome = true := by
  induction underway with
  | nil => cases hu
  | cons v rest ih =>
    rw [takeOver]
    split_ifs with hv
    · rfl
    · rcases List.mem_cons.1 hu with rfl | hu
      · exact absurd hover hv
      · rw [Option.isSome_map]
        exact ih hu

/-- Once the first alarm has rung, a demotion is over. -/
theorem isSome_takeOver_of_rang {t : Nat} {underway : List Underway}
    (h : Activity.rang (firstOver underway) t = true) : (takeOver t underway).isSome = true := by
  have hgeneral : ∀ (items : List Underway) (alarm : Option Nat),
      Activity.rang (items.foldl
          (fun a u => Activity.earlier a (some (min u.due u.deadline))) alarm) t = true →
        Activity.rang alarm t = true ∨ ∃ u ∈ items, u.isOver t = true := by
    intro items
    induction items with
    | nil => exact fun alarm h => .inl h
    | cons u rest ih =>
      intro alarm h
      rcases ih _ h with h | ⟨v, hv, hover⟩
      · have hsplit : Activity.rang alarm t = true ∨ u.isOver t = true := by
          cases alarm with
          | none => exact .inr (by simpa [Activity.rang, Activity.earlier, Underway.isOver] using h)
          | some a => simpa [Activity.rang, Activity.earlier, Underway.isOver] using h
        rcases hsplit with halarm | hover
        · exact .inl halarm
        · exact .inr ⟨u, List.mem_cons_self, hover⟩
      · exact .inr ⟨v, List.mem_cons_of_mem u hv, hover⟩
  rcases hgeneral underway none h with hnone | ⟨u, hu, hover⟩
  · cases hnone
  · exact isSome_takeOver hu hover

namespace Action

variable {α : Type} {t t' : Nat} {s s' : System} {c : α}

theorem alone_clock_bind {f : Nat → Action α} (h : Alone (Activity.clock >>= f) t s c t' s') :
    Alone (f t) t s c t' s' := by
  change Alone (Activity.look fun t _ => f t) t s c t' s' at h
  cases h with
  | look h => exact h

theorem alone_state_bind {f : System → Action α} (h : Alone (state >>= f) t s c t' s') :
    Alone (f s) t s c t' s' := by
  change Alone (Activity.look fun _ s => f s) t s c t' s' at h
  cases h with
  | look h => exact h

theorem alone_modifyMonitor_bind {change : Monitor → Monitor} {f : Unit → Action α}
    (h : Alone (modifyMonitor change >>= f) t s c t' s') :
    Alone (f ()) t { s with monitor := change s.monitor } c t' s' := by
  change Alone (Activity.look fun _ s => Activity.put { s with monitor := change s.monitor } (f ()))
    t s c t' s' at h
  cases h with
  | look h =>
    cases h with
    | put h => exact h

theorem alone_done {a : α} (h : Alone (Activity.done a : Action α) t s c t' s') :
    c = a ∧ t' = t ∧ s' = s := by
  cases h with
  | done => exact ⟨rfl, rfl, rfl⟩

theorem alone_checked {x : Time.Checked α} (h : Alone (checked x) t s c t' s') :
    x = .ok c ∧ t' = t ∧ s' = s := by
  cases x with
  | ok a =>
    obtain ⟨rfl, rfl, rfl⟩ := alone_done h
    exact ⟨rfl, rfl, rfl⟩
  | error _ => cases h

theorem alone_now {n : Instant} (h : Alone now t s n t' s') :
    s.moment? t = some n ∧ t' = t ∧ s' = s := by
  have h := alone_state_bind (alone_clock_bind h)
  obtain ⟨hnow, ht, hs⟩ := alone_checked h
  exact ⟨Watch.require_eq_ok_iff.1 hnow, ht, hs⟩

theorem alone_answer {form : Store.Form} {request : Store.Request form}
    {a : Except StorageError form.Answer} (h : Alone (answer request) t s a t' s') :
    t' = t ∧ ((∃ e, a = .error e ∧ s' = s) ∨
      ∃ b store, a = .ok b ∧ s.disturbance.run request s.store = .ok (b, store) ∧
        s' = { s with store }) := by
  cases h with
  | look h =>
    dsimp only at h
    cases hrun : s.disturbance.run request s.store with
    | error e =>
      rw [hrun] at h
      obtain ⟨rfl, rfl, rfl⟩ := alone_done h
      exact ⟨rfl, .inl ⟨e, rfl, rfl⟩⟩
    | ok result =>
      obtain ⟨b, store⟩ := result
      rw [hrun] at h
      cases h with
      | put h =>
        obtain ⟨rfl, rfl, rfl⟩ := alone_done h
        exact ⟨rfl, .inr ⟨b, store, rfl, rfl, rfl⟩⟩

/-- Before a request is answered, only time passes. -/
theorem alone_ask {form : Store.Form} {request : Store.Request form}
    {a : Except StorageError form.Answer} (h : Alone (ask request) t s a t' s') :
    (∃ e, a = .error e ∧ s' = s) ∨
      ∃ b store, a = .ok b ∧ s.disturbance.run request s.store = .ok (b, store) ∧
        s' = { s with store } := by
  have h := alone_state_bind h
  by_cases hdelay : 0 < s.disturbance.delay request.kind
  · rw [if_pos hdelay] at h
    obtain ⟨_, t₁, s₁, hsleep, h⟩ := h.of_bind
    have hsleep := alone_clock_bind hsleep
    cases hsleep with
    | wait _ _ hsleep =>
      cases hsleep with
      | done => exact (alone_answer h).2
  · rw [if_neg hdelay] at h
    exact (alone_answer h).2

end Action

/-! ## Passes that are alone -/

/-- What a pass that is alone makes of the records that it has judged, in so far as there was no
failure. -/
structure Sweep (now : Instant) (grace : Float) (todo : List ServerRecord)
    (underway : List Underway) (report report' : PassReport) (m m' : MemoryStore) : Prop where
  startedAt : report'.startedAt = report.startedAt
  listError : report'.listError = report.listError
  failed_le : report.failed ≤ report'.failed
  fades : m.Fades m'
  underway : report'.failed = report.failed → ∀ u ∈ underway, m'.Quiet u.serverId u.seenBefore
  todo : report'.failed = report.failed → ∀ record ∈ todo, ∀ seenBefore,
    record.verdict now grace = .ok (.silent seenBefore) → m'.Quiet record.serverId seenBefore

namespace PassReport

variable (report : PassReport) (outcome : RecordOutcome)

@[simp]
theorem startedAt_count : (report.count outcome).startedAt = report.startedAt := by
  cases outcome <;> rfl

@[simp]
theorem listError_count : (report.count outcome).listError = report.listError := by
  cases outcome <;> rfl

theorem failed_count :
    (report.count outcome).failed = report.failed + if outcome = .failed then 1 else 0 := by
  cases outcome <;> rfl

end PassReport

namespace Sweep

variable {now : Instant} {grace : Float} {todo : List ServerRecord} {record : ServerRecord}
  {underway others : List Underway} {u : Underway} {report report' : PassReport}
  {outcome : RecordOutcome} {m m₁ m' : MemoryStore}

theorem nothing (now : Instant) (grace : Float) (report : PassReport) (m : MemoryStore) :
    Sweep now grace [] [] report report m m where
  startedAt := rfl
  listError := rfl
  failed_le := le_rfl
  fades := .refl m
  underway _ := List.forall_mem_nil _
  todo _ := List.forall_mem_nil _

/-- A demotion under way comes to its end. -/
theorem ended (h : Sweep now grace todo others (report.count outcome) report' m₁ m')
    (hperm : underway.Perm (u :: others)) (hfades : m.Fades m₁)
    (hquiet : outcome = .failed ∨ m₁.Quiet u.serverId u.seenBefore) :
    Sweep now grace todo underway report report' m m' := by
  have hcount := report.failed_count outcome
  have hle := h.failed_le
  have hkept (hfailed : report'.failed = report.failed) :
      outcome ≠ .failed ∧ report'.failed = (report.count outcome).failed := by
    split_ifs at hcount with ho
    · omega
    · exact ⟨ho, by omega⟩
  constructor
  · simpa using h.startedAt
  · simpa using h.listError
  · omega
  · exact hfades.trans h.fades
  · intro hfailed v hv
    obtain ⟨ho, hsame⟩ := hkept hfailed
    rcases List.mem_cons.1 (hperm.mem_iff.1 hv) with rfl | hv
    · exact h.fades.quiet (hquiet.resolve_left ho)
    · exact h.underway hsame v hv
  · exact fun hfailed => h.todo (hkept hfailed).2

/-- A record is judged not to be silent. -/
theorem judged (h : Sweep now grace todo underway (report.count outcome) report' m m')
    (ho : outcome ≠ .failed)
    (hverdict : ∀ seenBefore, record.verdict now grace ≠ .ok (.silent seenBefore)) :
    Sweep now grace (record :: todo) underway report report' m m' := by
  have hcount : (report.count outcome).failed = report.failed := by
    rw [report.failed_count, if_neg ho]
    rfl
  constructor
  · simpa using h.startedAt
  · simpa using h.listError
  · exact hcount ▸ h.failed_le
  · exact h.fades
  · exact fun hfailed => h.underway (hfailed.trans hcount.symm)
  · intro hfailed other hother seenBefore hsilent
    rcases List.mem_cons.1 hother with rfl | hother
    · exact absurd hsilent (hverdict seenBefore)
    · exact h.todo (hfailed.trans hcount.symm) other hother seenBefore hsilent

/-- A record is judged to be silent, and a demotion is begun. -/
theorem begun {started : Underway}
    (h : Sweep now grace todo (underway ++ [started]) report report' m m')
    (hid : started.serverId = record.serverId)
    (hverdict : record.verdict now grace = .ok (.silent started.seenBefore)) :
    Sweep now grace (record :: todo) underway report report' m m' where
  startedAt := h.startedAt
  listError := h.listError
  failed_le := h.failed_le
  fades := h.fades
  underway hfailed v hv := h.underway hfailed v (List.mem_append_left _ hv)
  todo hfailed other hother seenBefore hsilent := by
    rcases List.mem_cons.1 hother with rfl | hother
    · rw [hverdict] at hsilent
      cases hsilent
      rw [← hid]
      exact h.underway hfailed started (List.mem_append_right _ List.mem_cons_self)
    · exact h.todo hfailed other hother seenBefore hsilent

end Sweep

namespace Action

variable {t t' : Nat} {s s' : System} {m : MemoryStore} {now : Instant}

/-- A demotion that was not given up and did not fail leaves the server off or seen in time. -/
theorem alone_endDemotion {t₀ : Nat} {u : Underway} {outcome : RecordOutcome}
    (h : Alone (endDemotion now t₀ u) t s outcome t' s') (hstore : s.store = .memory m) :
    t' = t ∧ ∃ m', s' = { s with store := .memory m' } ∧ m.Fades m' ∧
      (outcome = .failed ∨ m'.Quiet u.serverId u.seenBefore) := by
  have hsame : s = { s with store := .memory m } := by rw [← hstore]
  rw [endDemotion] at h
  split_ifs at h
  · obtain ⟨a, t₁, s₁, hanswer, h⟩ := h.of_bind
    obtain ⟨rfl, rfl, rfl⟩ := alone_done h
    obtain ⟨rfl, ⟨e, rfl, rfl⟩ | ⟨b, store, rfl, hrun, rfl⟩⟩ := alone_answer hanswer
    · exact ⟨rfl, m, hsame, .refl m, .inl rfl⟩
    · rw [hstore] at hrun
      obtain rfl := Disturbance.run_memory hrun
      obtain ⟨hfades, hquiet⟩ := m.get?_after_demote u.serverId u.seenBefore now
      exact ⟨rfl, _, rfl, hfades, .inr hquiet⟩
  · obtain ⟨rfl, rfl, rfl⟩ := alone_done h
    exact ⟨rfl, m, hsame, .refl m, .inl rfl⟩

/-- When a pass has waited, a demotion is over. -/
theorem alone_wait {underway : List Underway} {u : Unit} {t₁ : Nat} {s₁ : System}
    (h : Alone (Activity.wait (fun _ => false) (firstOver underway) id (.done ()) : Action Unit)
      t s u t₁ s₁) : (takeOver t₁ underway).isSome = true ∧ s₁ = s := by
  cases h with
  | wait _ hgo h =>
    cases h with
    | done => exact ⟨isSome_takeOver_of_rang hgo, rfl⟩

/-- **A pass that is alone** deals with all records that are still to be judged and all demotions
under way. -/
theorem alone_checkRecords (settings : MonitoringSettings) {steps : Nat} {todo : List ServerRecord}
    {underway : List Underway} {report report' : PassReport}
    (h : Alone (checkRecords settings now steps todo underway report) t s report' t' s')
    (hstore : s.store = .memory m)
    (hsteps : 3 * todo.length + 2 * underway.length + 1 ≤
      steps + if (takeOver t underway).isSome then 1 else 0) :
    ∃ m', s' = { s with store := .memory m' } ∧
      Sweep now settings.graceMultiplier todo underway report report' m m' := by
  induction steps generalizing todo underway report t s m with
  | zero =>
    cases underway with
    | nil =>
      rw [takeOver] at hsteps
      simp at hsteps
    | cons u rest =>
      split at hsteps <;> simp at hsteps
  | succ steps ih =>
    unfold checkRecords at h
    replace h := alone_clock_bind h
    split at h
    · next u others htake =>
      obtain ⟨-, hperm⟩ := perm_takeOver htake
      have hlength := hperm.length_eq
      rw [List.length_cons] at hlength
      rw [htake, Option.isSome_some, if_pos rfl] at hsteps
      obtain ⟨outcome, t₁, s₁, hend, hrest⟩ := (alone_clock_bind h).of_bind
      obtain ⟨rfl, m₁, rfl, hfades, hquiet⟩ := alone_endDemotion hend hstore
      obtain ⟨m', rfl, hsweep⟩ := ih hrest rfl (by omega)
      exact ⟨m', rfl, hsweep.ended hperm hfades hquiet⟩
    · next hnone =>
      rw [hnone, Option.isSome_none, if_neg Bool.false_ne_true] at hsteps
      split at h
      · next record rest =>
        rw [List.length_cons] at hsteps
        split at h
        · obtain ⟨verdict, t₁, s₁, hjudged, hrest⟩ := h.of_bind
          obtain ⟨hverdict, rfl, rfl⟩ := alone_checked hjudged
          cases verdict with
          | undefined =>
            obtain ⟨m', rfl, hsweep⟩ := ih hrest hstore (by omega)
            exact ⟨m', rfl, hsweep.judged (by simp) (by simp [hverdict])⟩
          | unchanged =>
            obtain ⟨m', rfl, hsweep⟩ := ih hrest hstore (by omega)
            exact ⟨m', rfl, hsweep.judged (by simp) (by simp [hverdict])⟩
          | silent seenBefore =>
            replace hrest := alone_state_bind (alone_clock_bind hrest)
            obtain ⟨m', rfl, hsweep⟩ := ih hrest hstore (by
              rw [List.length_append, List.length_singleton]
              omega)
            exact ⟨m', rfl, hsweep.begun rfl hverdict⟩
        · obtain ⟨_, t₁, s₁, hwait, hrest⟩ := h.of_bind
          obtain ⟨hover, rfl⟩ := alone_wait hwait
          exact ih hrest hstore (by rw [hover, if_pos rfl, List.length_cons]; omega)
      · split at h
        · next hempty =>
          obtain rfl := List.isEmpty_iff.1 hempty
          obtain ⟨rfl, rfl, rfl⟩ := alone_done h
          exact ⟨m, by rw [← hstore], .nothing ..⟩
        · obtain ⟨_, t₁, s₁, hwait, hrest⟩ := h.of_bind
          obtain ⟨hover, rfl⟩ := alone_wait hwait
          exact ih hrest hstore (by rw [hover, if_pos rfl]; omega)

/-- What a store in memory answers when it lists the records. -/
theorem run_list {d : Disturbance} {records : List ServerRecord} {store : Store}
    (h : d.run .list (.memory m) = .ok (records, store)) :
    records = m.records ∧ store = .memory m := by
  unfold Disturbance.run at h
  split at h
  · cases h
  · cases h
    exact ⟨rfl, rfl⟩

theorem alone_scan (settings : MonitoringSettings) {report : PassReport}
    (h : Alone (scan settings now) t s report t' s') (hstore : s.store = .memory m)
    (hlist : report.listError = none) :
    ∃ m', s' = { s with store := .memory m' } ∧
      Sweep now settings.graceMultiplier m.records []
        { startedAt := now, scanned := m.records.length } report m m' := by
  obtain ⟨listed, t₁, s₁, hlisted, hrest⟩ := (alone_clock_bind h).of_bind
  obtain rfl | ⟨answer, rfl, hask⟩ := hlisted.of_within
  · obtain ⟨rfl, rfl, rfl⟩ := alone_done hrest
    cases hlist
  · obtain ⟨e, rfl, rfl⟩ | ⟨records, store, rfl, hrun, rfl⟩ := alone_ask hask
    · obtain ⟨rfl, rfl, rfl⟩ := alone_done hrest
      cases hlist
    · rw [hstore] at hrun
      obtain ⟨rfl, rfl⟩ := run_list hrun
      change Alone (checkRecords settings now (3 * m.records.length + 1) m.records []
        { startedAt := now, scanned := m.records.length }) _ _ _ _ _ at hrest
      have hlength : 3 * m.records.length + 2 * ([] : List Underway).length + 1 ≤
          3 * m.records.length + 1 + if (takeOver t₁ []).isSome then 1 else 0 := by
        rw [takeOver]
        simp
      exact alone_checkRecords (s := { s with store := .memory m }) settings hrest rfl hlength

/-- **A pass that is alone** and could list the records. -/
theorem alone_pass {report : PassReport} (h : Alone pass t s (.completed report) t' s')
    (hstore : s.store = .memory m) (hlist : report.listError = none) :
    s.moment? t = some report.startedAt ∧ ∃ m', s'.store = .memory m' ∧ m.Fades m' ∧
      (report.failed = 0 → ∀ record ∈ m.records, ∀ seenBefore,
        record.verdict report.startedAt s.monitor.settings.graceMultiplier =
            .ok (.silent seenBefore) →
          m'.Quiet record.serverId seenBefore) := by
  obtain ⟨now, t₁, s₁, hnow, hpass⟩ := h.of_bind
  obtain ⟨hmoment, rfl, rfl⟩ := alone_now hnow
  replace hpass := alone_state_bind hpass
  change Alone (modifyMonitor (fun _ => s₁.monitor.enter.2) >>= fun _ =>
    if s₁.monitor.enter.1 then Activity.guarded release (inspect now) else pure .skipped)
    t₁ s₁ (.completed report) t' s' at hpass
  replace hpass := alone_modifyMonitor_bind hpass
  have hsettings : s₁.monitor.enter.2.settings = s₁.monitor.settings := by
    rw [Monitor.enter]
    split_ifs <;> rfl
  split_ifs at hpass
  · obtain ⟨s₂, hinspect, rfl⟩ := hpass.of_guarded
    replace hinspect := alone_clock_bind (alone_state_bind hinspect)
    obtain ⟨found, t₃, s₃, hscan, hkeep⟩ := hinspect.of_bind
    replace hkeep := alone_modifyMonitor_bind (alone_clock_bind hkeep)
    obtain ⟨houtcome, rfl, rfl⟩ := alone_done hkeep
    cases houtcome
    obtain ⟨m', rfl, hsweep⟩ := alone_scan _ hscan hstore hlist
    dsimp only at hsweep
    rw [hsettings] at hsweep
    have hstarted : found.startedAt = now := hsweep.startedAt
    rw [← hstarted] at hsweep hmoment
    exact ⟨hmoment, m', rfl, hsweep.fades, hsweep.todo⟩
  · obtain ⟨houtcome, -, -⟩ := alone_done hpass
    cases houtcome

theorem memory_of_alone_pass {report : PassReport} (h : Alone pass t s (.completed report) t' s')
    (hstore : s.store = .memory m) (hlist : report.listError = none) :
    s'.store = .memory s'.memory := by
  obtain ⟨-, m', hm', -⟩ := alone_pass h hstore hlist
  rw [System.memory, hm']

/-- The report of a pass that has come to its end. -/
def reportOf? : Activity.Progress System Process PassOutcome → Option PassReport
  | .finished (.completed report) => some report
  | _ => none

theorem alone_pass_of_reportOf? {a : Action PassOutcome} {report : PassReport}
    {started : List Process} (h : reportOf? (a.run t s started).1 = some report) :
    Alone a t s (.completed report) t (a.run t s started).2.1 := by
  refine .of_run ?_
  unfold reportOf? at h
  split at h
  · next found hfinished =>
    cases h
    exact hfinished
  · cases h

end Action

/-! ## After a pass -/

/-- A server that is not judged silent, though it is on and was heard. -/
theorem not_stale_of_verdict {record : ServerRecord} {now newest cutoff : Instant} {grace : Float}
    {window : Span} (hon : record.status = .on) (hseen : record.lastSeen = some newest)
    (hwindow : record.window? grace = some window) (hcutoff : now.sub window = .ok cutoff)
    (hverdict : record.verdict now grace ≠ .ok (.silent cutoff)) : ¬ window < now.since newest := by
  intro hlt
  refine hverdict ?_
  have hstale : record.isStale? now grace = some true := by
    rw [ServerRecord.isStale?, hseen]
    simp [hwindow, hlt]
  rw [ServerRecord.verdict, hstale, hwindow, hseen, if_neg (by simp), if_neg (by simp [hon])]
  simp only [Time.require, bind, Except.bind, if_true, hcutoff]
  rfl

/-- Whoever is on was last seen at the newest stamp that has arrived. -/
theorem MemoryStore.exists_newest {occurrences : List Occurrence} {id : String}
    {record : ServerRecord} (hget : (MemoryStore.empty.through occurrences).get? id = some record)
    (hon : record.status = .on) :
    ∃ newest, record.lastSeen = some newest ∧
      ((MemoryStore.empty.arrivals id occurrences).map Arrival.stamp).max? = some newest := by
  obtain ⟨newest, hseen⟩ := Option.ne_none_iff_exists'.1
    (MemoryStore.hasStamp_through occurrences id record hget hon)
  have hlast := MemoryStore.empty.lastSeen?_through id occurrences
  rw [MemoryStore.lastSeen?, hget, Option.bind_some, hseen] at hlast
  refine ⟨newest, hseen, ?_⟩
  rw [hlast, ← MemoryStore.foldl_laterOf]
  rfl

/-- Whoever is on after a pass that was alone and had no failures was on before it with the same
record, and is not silent by both tests. -/
theorem Action.not_silent_of_alone_pass {s s' : System} {t t' : Nat} {report : PassReport}
    {m₀ m : MemoryStore} (hstore : s.store = .memory m₀)
    (hpass : Alone Action.pass t s (.completed report) t' s') (hlist : report.listError = none)
    (hfailed : report.failed = 0) (hstore' : s'.store = .memory m) {id : String}
    {record : ServerRecord} {cutoff : Instant} {window : Span}
    (hget : m.get? id = some record) (hon : record.status = .on)
    (hwindow : record.window? s.monitor.settings.graceMultiplier = some window)
    (hcutoff : report.startedAt.sub window = .ok cutoff) :
    m₀.get? id = some record ∧ ∀ newest, record.lastSeen = some newest →
      ¬ (newest < cutoff ∧ window < report.startedAt.since newest) := by
  obtain ⟨-, m', hm', hfades, hquiet⟩ := Action.alone_pass hpass hstore hlist
  obtain rfl : m' = m := by
    rw [hstore', Store.memory.injEq] at hm'
    exact hm'.symm
  have hget₀ := hfades.unchanged id record hget hon
  have hid := MemoryStore.serverId_of_get? hget₀
  refine ⟨hget₀, fun newest hseen => ?_⟩
  rintro ⟨hlt, hstale⟩
  by_cases hverdict : record.verdict report.startedAt s.monitor.settings.graceMultiplier =
      .ok (.silent cutoff)
  · have hsilent := hquiet hfailed record (Ordered.mem_of_get? hget₀) cutoff hverdict record
      (hid ▸ hget)
    simp [ServerRecord.isSilent, hon, hseen, hlt] at hsilent
  · exact not_stale_of_verdict hon hseen hwindow hcutoff hverdict hstale

/-- **Silence is detected.**  After any messages and other calls of a store in memory, let a pass
that is alone list the servers and turn some off without a failure.  Whoever is on then has a
heartbeat whose stamp is not, by either of the two tests, before the beginning of the window.  The
two tests are one unless the stamp is a leap second; so if no heartbeat of a server bears a stamp
after its arrival, or that of a leap second, then one has arrived within the window. -/
theorem silence_detected {occurrences : List Occurrence} {s s' : System} {t t' : Nat}
    {report : PassReport} (hstore : s.store = .memory (MemoryStore.empty.through occurrences))
    (hpass : Alone Action.pass t s (.completed report) t' s') (hlist : report.listError = none)
    (hfailed : report.failed = 0) {m : MemoryStore} (hstore' : s'.store = .memory m)
    {id : String} {record : ServerRecord} {window : Span} {cutoff : Instant}
    (hget : m.get? id = some record) (hon : record.status = .on)
    (hwindow : record.window? s.monitor.settings.graceMultiplier = some window)
    (hcutoff : report.startedAt.sub window = .ok cutoff) :
    let arrivals := MemoryStore.empty.arrivals id occurrences
    (∃ newest, (arrivals.map Arrival.stamp).max? = some newest ∧
        ¬ (newest < cutoff ∧ window < report.startedAt.since newest)) ∧
      (s.origin.isLeap = false →
        (∀ a ∈ arrivals, a.stamp ≤ a.receivedAt ∧ a.stamp.isLeap = false) →
        ∃ a ∈ arrivals, cutoff ≤ a.receivedAt) := by
  intro arrivals
  have hmoment := (Action.alone_pass hpass hstore hlist).1
  obtain ⟨hget₀, hquiet⟩ :=
    Action.not_silent_of_alone_pass hstore hpass hlist hfailed hstore' hget hon hwindow hcutoff
  obtain ⟨newest, hseen, hnewest⟩ := MemoryStore.exists_newest hget₀ hon
  have htests := hquiet newest hseen
  refine ⟨⟨newest, hnewest, htests⟩, fun horigin hplain => ?_⟩
  obtain ⟨a, ha, rfl⟩ := List.mem_map.1 (List.max?_mem hnewest)
  obtain ⟨hreceived, hleap⟩ := hplain a ha
  have hstarted : report.startedAt.isLeap = false := by
    simpa [Instant.isLeap] using (Instant.nanos_of_add? horigin hmoment).1
  have hsame : a.stamp < cutoff ↔ window < report.startedAt.since a.stamp :=
    Instant.lt_sub?_iff hleap hstarted (Watch.require_eq_ok_iff.1 hcutoff)
  rw [← hsame, and_self, not_lt] at htests
  exact ⟨a, ha, htests.trans hreceived⟩

/-- Two servers with a period of ten seconds are heard, one of them half a minute later. -/
private def heardInTurn : List Occurrence :=
  [.call ⟨.register ⟨"a", "10.0.0.1", 10⟩⟩, .call ⟨.register ⟨"b", "10.0.0.2", 10⟩⟩,
    .message .status (.ofMillis 1741953600000) ⟨"a", .ofMillis 1741953599000, none, none, none⟩,
    .message .metrics (.ofMillis 1741953630000)
      ⟨"b", .ofMillis 1741953629000, some 12.5, none, none⟩]

/-- A system that has not done anything but to take notice of these occurrences. -/
private def attentive (occurrences : List Occurrence) : System where
  origin := .ofMillis 1741953600000
  store := .memory (MemoryStore.empty.through occurrences)
  bus := .new 1
  monitor := { settings := {} }
  scheduler := { timeout := 5000 }

/-- The server that was heard later is on after a pass, since it was heard within its window; the
other one is not. -/
theorem silence_detected_inTurn :
    let s := attentive heardInTurn
    let t := 40000
    let report : PassReport := { startedAt := .ofMillis 1741953640000, scanned := 2, demoted := 1 }
    let s' := (Action.pass.run t s []).2.1
    Alone Action.pass t s (.completed report) t s' ∧
      s'.memory.statusOf "a" = .off ∧ s'.memory.statusOf "b" = .on ∧
      ∃ a ∈ MemoryStore.empty.arrivals "b" heardInTurn, .ofMillis 1741953620000 ≤ a.receivedAt := by
  intro s t report s'
  have halone : Alone Action.pass t s (.completed report) t s' :=
    Action.alone_pass_of_reportOf? (by decide +kernel)
  have hmemory : s'.store = .memory s'.memory := Action.memory_of_alone_pass halone rfl rfl
  let b : ServerRecord := ⟨"b", "10.0.0.2", 10, .on, some (.ofMillis 1741953629000),
    some (.ofMillis 1741953630000)⟩
  have hget : s'.memory.get? "b" = some b := by decide +kernel
  have hwindow : b.window? s.monitor.settings.graceMultiplier = some (Span.ofMillis 20000) := by
    decide +kernel
  have hcutoff : report.startedAt.sub (Span.ofMillis 20000) = .ok (.ofMillis 1741953620000) := by
    rw [Instant.sub, Watch.require_eq_ok_iff]
    decide +kernel
  exact ⟨halone, by decide +kernel, by decide +kernel,
    (silence_detected rfl halone rfl rfl hmemory hget rfl hwindow hcutoff).2
      (by decide +kernel) (by decide +kernel)⟩

/-- A server is heard with a heartbeat that was stamped an hour ahead of its time. -/
private def heardAhead : List Occurrence :=
  [.call ⟨.register ⟨"a", "10.0.0.1", 10⟩⟩,
    .message .status (.ofMillis 1741953600000) ⟨"a", .ofMillis 1741957200000, none, none, none⟩]

/-- **The time of arrival does not count**: a server can be on after a pass although nothing of it
has arrived within its window, also if the producer accepts all events and time never goes back. -/
theorem not_detected_by_receipt :
    ¬ ∀ (occurrences : List Occurrence) (s s' : System) (t t' : Nat) (report : PassReport)
        (m : MemoryStore) (id : String) (record : ServerRecord) (window : Span) (cutoff : Instant),
      (∀ handler receivedAt event, .message handler receivedAt event ∈ occurrences →
        event.refusal? = none ∧ receivedAt ≤ report.startedAt) →
      s.store = .memory (MemoryStore.empty.through occurrences) →
      Alone Action.pass t s (.completed report) t' s' → report.listError = none →
      report.failed = 0 → s'.store = .memory m → m.get? id = some record → record.status = .on →
      record.window? s.monitor.settings.graceMultiplier = some window →
      report.startedAt.sub window = .ok cutoff →
      ∃ a ∈ MemoryStore.empty.arrivals id occurrences, cutoff ≤ a.receivedAt := by
  intro hclaim
  let s := attentive heardAhead
  let report : PassReport := { startedAt := .ofMillis 1741953660000, scanned := 1 }
  let s' := (Action.pass.run 60000 s []).2.1
  have halone : Alone Action.pass 60000 s (.completed report) 60000 s' :=
    Action.alone_pass_of_reportOf? (by decide +kernel)
  have hmemory : s'.store = .memory s'.memory := Action.memory_of_alone_pass halone rfl rfl
  let a : ServerRecord := ⟨"a", "10.0.0.1", 10, .on, some (.ofMillis 1741957200000),
    some (.ofMillis 1741953600000)⟩
  have hget : s'.memory.get? "a" = some a := by decide +kernel
  have hwindow : a.window? s.monitor.settings.graceMultiplier = some (Span.ofMillis 20000) := by
    decide +kernel
  have hcutoff : report.startedAt.sub (Span.ofMillis 20000) = .ok (.ofMillis 1741953640000) := by
    rw [Instant.sub, Watch.require_eq_ok_iff]
    decide +kernel
  have haccepted : ∀ handler receivedAt event, .message handler receivedAt event ∈ heardAhead →
      event.refusal? = none ∧ receivedAt ≤ report.startedAt := by
    simp only [heardAhead, List.mem_cons, reduceCtorEq, false_or, List.not_mem_nil, or_false,
      Occurrence.message.injEq]
    rintro handler receivedAt event ⟨-, rfl, rfl⟩
    decide +kernel
  have hnone : ¬ ∃ a ∈ MemoryStore.empty.arrivals "a" heardAhead,
      .ofMillis 1741953640000 ≤ a.receivedAt := by
    decide +kernel
  exact hnone (hclaim heardAhead s s' 60000 60000 report _ "a" a _ _ haccepted rfl halone rfl rfl
    hmemory hget rfl hwindow hcutoff)

end Pulse
