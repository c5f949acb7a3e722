import Pulse.Proofs.Monitor.Judgement
import Pulse.Proofs.Store.Calls
import Pulse.Proofs.Time.Shift

/-!
# Inspections

An inspection deals with the records of a store in any order: a record is judged, and one that is
due is turned off, a limited number of them at a time.  A demotion that is under way is answered by
the store or fails, whenever it likes.  What comes of it does not depend on all this, but only on
which demotions failed.

* `ServerRecord.isDue` — the server is on and stale.  `isDue_of_verdict` and `isSilent_of_verdict`
  say that the test of a pass and the one of the store come to the same, leap seconds apart.
* `Inspection.Step` — one thing that can happen in an inspection, and `Inspection.Sound`, what each
  of them keeps.
* `Swept` — what an inspection comes to, with a given set of failures: the records, the log and the
  report.  `Inspection.Sound.swept` says that it does.
* `Swept.not_isDue`, `Swept.eq_self` — after an inspection without failures nobody is due, and an
  inspection in which nobody is due does nothing.
-/

set_option autoImplicit false

namespace Pulse

open Ordered (Ascending)
open Time (Instant Span)

/-! ## Records that are due -/

namespace ServerRecord

variable {record : ServerRecord} {now cutoff : Instant} {grace : Float}

/-- The server is on, and its newest heartbeat is older than the window. -/
def isDue (record : ServerRecord) (now : Instant) (grace : Float) : Bool :=
  record.status = .on && record.isStale? now grace = some true

theorem isDue_iff : record.isDue now grace = true ↔ record.status = .on ∧ ∃ seen window,
    record.lastSeen = some seen ∧ record.window? grace = some window ∧ window < now.since seen := by
  rw [isDue, isStale?]
  cases record.lastSeen with
  | none => simp
  | some seen => cases hwindow : record.window? grace <;> simp

theorem isDue_demoted (record : ServerRecord) (at' now : Instant) (grace : Float) :
    (record.demoted at').isDue now grace = false := by
  simp [isDue, demoted]

theorem lastSeen_of_isDue (h : record.isDue now grace = true) : record.lastSeen ≠ none := by
  obtain ⟨-, seen, -, hseen, -⟩ := isDue_iff.1 h
  rw [hseen]
  exact Option.some_ne_none seen

theorem status_of_isDue (h : record.isDue now grace = true) : record.status = .on :=
  (isDue_iff.1 h).1

/-- What a judgement says about a record. -/
inductive Judged (record : ServerRecord) (now : Instant) (grace : Float) : Verdict → Prop
  | undefined (hseen : record.lastSeen = none) (hdue : record.isDue now grace = false) :
    Judged record now grace .undefined
  | unchanged (hseen : record.lastSeen ≠ none) (hdue : record.isDue now grace = false) :
    Judged record now grace .unchanged
  | silent {seen cutoff : Instant} {window : Span} (hdue : record.isDue now grace = true)
    (hseen : record.lastSeen = some seen) (hstale : window < now.since seen)
    (hcutoff : now.sub? window = some cutoff) : Judged record now grace (.silent cutoff)

theorem judged_of_verdict {verdict : Verdict} (h : record.verdict now grace = .ok verdict) :
    Judged record now grace verdict := by
  rw [ServerRecord.verdict] at h
  cases hseen : record.lastSeen with
  | none =>
    rw [hseen, if_pos Option.isNone_none] at h
    cases h
    exact .undefined hseen (by simp [isDue, isStale?, hseen])
  | some seen =>
    rw [hseen, if_neg (by simp)] at h
    by_cases hon : record.status = .on
    · rw [if_neg (by simp [hon])] at h
      cases hwindow : record.window? grace with
      | none =>
        simp [isStale?, hseen, hwindow, Time.require, bind, Except.bind] at h
      | some window =>
        have hstale : record.isStale? now grace = some (decide (window < now.since seen)) := by
          rw [isStale?, hseen, hwindow]
          rfl
        rw [hstale, hwindow] at h
        by_cases hlt : window < now.since seen
        · have hdue : record.isDue now grace = true := by simp [isDue, hon, hstale, hlt]
          cases hcutoff : now.sub? window with
          | none =>
            simp [Time.require, Instant.sub, hlt, hcutoff, bind, Except.bind] at h
          | some cutoff =>
            simp only [Time.require, Instant.sub, hlt, hcutoff, bind, Except.bind, pure,
              Except.pure, decide_true, if_true, Except.ok.injEq] at h
            subst h
            exact .silent hdue hseen hlt hcutoff
        · have hdue : record.isDue now grace = false := by simp [isDue, hstale, hlt]
          simp only [Time.require, hlt, bind, Except.bind, pure, Except.pure, decide_false,
            Bool.false_eq_true, if_false, Except.ok.injEq] at h
          subst h
          exact .unchanged (by simp [hseen]) hdue
    · rw [if_pos hon] at h
      cases h
      exact .unchanged (by simp [hseen]) (by simp [isDue, hon])

theorem isDue_of_verdict (h : record.verdict now grace = .ok (.silent cutoff)) :
    record.isDue now grace = true := by
  cases judged_of_verdict h with
  | silent hdue => exact hdue

/-- **The test of the store is the test of the pass**, leap seconds apart. -/
theorem isSilent_of_verdict (h : record.verdict now grace = .ok (.silent cutoff))
    (hnow : now.isLeap = false)
    (hplain : ∀ seen, record.lastSeen = some seen → seen.isLeap = false) :
    record.isSilent cutoff = true := by
  have hjudged := judged_of_verdict h
  cases hjudged with
  | silent hdue hseen hstale hcutoff =>
    have hlt := (Instant.lt_sub?_iff (hplain _ hseen) hnow hcutoff).2 hstale
    simp [isSilent, status_of_isDue hdue, hseen, hlt]

end ServerRecord

/-! ## Turning servers off -/

theorem Ordered.Ascending.put_eq_map {α κ : Type} [LinearOrder κ] {key : α → κ} {items : List α}
    (h : Ascending key items) {a : α} (ha : ∃ b ∈ items, key b = key a) :
    Ordered.put key a items = items.map fun b => if key b = key a then a else b := by
  have hkey (b : α) : key (if key b = key a then a else b) = key b := by
    split_ifs with hb
    · exact hb.symm
    · rfl
  have hmap : Ascending key (items.map fun b => if key b = key a then a else b) := by
    refine List.pairwise_map.2 (List.Pairwise.imp ?_ h)
    intro b c hbc
    rwa [hkey, hkey]
  refine (h.put a).ext hmap fun c => ?_
  rw [h.mem_put_iff, List.mem_map]
  constructor
  · rintro (rfl | ⟨hc, hne⟩)
    · obtain ⟨b, hb, hba⟩ := ha
      exact ⟨b, hb, if_pos hba⟩
    · exact ⟨c, hc, if_neg hne⟩
  · rintro ⟨b, hb, rfl⟩
    split_ifs with hba
    · exact .inl rfl
    · exact .inr ⟨hb, hba⟩

namespace MemoryStore

variable {store : MemoryStore} {now : Instant}

/-- The store after servers were turned off, one after the other. -/
def turnOff (store : MemoryStore) (now : Instant) (records : List ServerRecord) : MemoryStore where
  records := store.records.map fun r => if r ∈ records then r.demoted now else r
  series := store.series
  transitions := store.transitions ++ records.map fun r => ⟨r.serverId, .on, .off, now⟩

theorem turnOff_nil (store : MemoryStore) (now : Instant) : store.turnOff now [] = store := by
  simp [turnOff]

theorem ascending_turnOff (h : Ascending ServerRecord.serverId store.records) (now : Instant)
    (records : List ServerRecord) :
    Ascending ServerRecord.serverId (store.turnOff now records).records := by
  have hid (r : ServerRecord) : (if r ∈ records then r.demoted now else r).serverId = r.serverId := by
    split_ifs <;> rfl
  refine List.pairwise_map.2 (List.Pairwise.imp ?_ h)
  intro r r' hlt
  rwa [hid, hid]

/-- Records are known by their identifiers. -/
theorem eq_of_serverId_eq (h : Ascending ServerRecord.serverId store.records)
    {r r' : ServerRecord} (hr : r ∈ store.records) (hr' : r' ∈ store.records)
    (hid : r.serverId = r'.serverId) : r = r' := by
  have hget := h.get?_eq_some_iff.2 ⟨hr, hid⟩
  rw [h.get?_eq_some_iff.2 ⟨hr', rfl⟩] at hget
  exact (Option.some_inj.1 hget).symm

/-- One more server is turned off. -/
theorem demote_turnOff (h : Ascending ServerRecord.serverId store.records)
    {records : List ServerRecord} {record : ServerRecord} (hmem : record ∈ store.records)
    (hnew : record ∉ records) {cutoff : Instant} (hsilent : record.isSilent cutoff = true) :
    (store.turnOff now records).demote record.serverId cutoff now =
      .ok (true, store.turnOff now (records ++ [record])) := by
  have hasc := ascending_turnOff h now records
  have hstill : record ∈ (store.turnOff now records).records :=
    List.mem_map.2 ⟨record, hmem, if_neg hnew⟩
  have hget : (store.turnOff now records).get? record.serverId = some record :=
    hasc.get?_eq_some_iff.2 ⟨hstill, rfl⟩
  have hrecords : Ordered.put ServerRecord.serverId (record.demoted now)
      (store.turnOff now records).records = (store.turnOff now (records ++ [record])).records := by
    have hkey : ∃ r ∈ (store.turnOff now records).records,
        r.serverId = (record.demoted now).serverId := ⟨record, hstill, rfl⟩
    rw [hasc.put_eq_map hkey, turnOff, turnOff, List.map_map]
    refine List.map_congr_left fun r hr => ?_
    have hsame : r.serverId = record.serverId ↔ r = record :=
      ⟨eq_of_serverId_eq h hr hmem, fun heq => heq ▸ rfl⟩
    have hid : (if r ∈ records then r.demoted now else r).serverId = r.serverId := by
      split_ifs <;> rfl
    have hown : (if r ∈ records ++ [record] then r.demoted now else r) =
        if r = record then record.demoted now else if r ∈ records then r.demoted now else r := by
      by_cases heq : r = record
      · simp [heq]
      · simp [heq]
    show (if (if r ∈ records then r.demoted now else r).serverId = record.serverId
      then record.demoted now else if r ∈ records then r.demoted now else r) = _
    rw [hid, hown]
    simp only [hsame]
  rw [demote, hget]
  simp only [hsilent, if_true]
  rw [putRecord, hrecords, log, turnOff, turnOff]
  simp

/-- A store whose records can be judged: the windows are not negative, and no time is that of a leap
second. -/
structure Inspectable (grace : Float) (now : Instant) (store : MemoryStore) : Prop where
  ascending : Ascending ServerRecord.serverId store.records
  window : ∀ r ∈ store.records, ∃ window, 0 ≤ window ∧ r.window? grace = some window
  now_plain : now.isLeap = false
  seen_plain : ∀ r ∈ store.records, ∀ seen, r.lastSeen = some seen → seen.isLeap = false

namespace Inspectable

variable {grace : Float}

theorem nodup (h : store.Inspectable grace now) : store.records.Nodup :=
  List.Pairwise.imp (fun hlt heq => absurd (heq ▸ hlt) (lt_irrefl _)) h.ascending

/-- No arithmetic with times fails. -/
theorem exists_verdict (h : store.Inspectable grace now) {r : ServerRecord}
    (hr : r ∈ store.records) : ∃ verdict, r.verdict now grace = .ok verdict := by
  obtain ⟨window, hnonneg, hwindow⟩ := h.window r hr
  exact ServerRecord.exists_verdict_of_window? hwindow hnonneg now

/-- What a pass judges silent is silent to the store. -/
theorem isSilent (h : store.Inspectable grace now) {r : ServerRecord} (hr : r ∈ store.records)
    {cutoff : Instant} (hverdict : r.verdict now grace = .ok (.silent cutoff)) :
    r.isSilent cutoff = true :=
  ServerRecord.isSilent_of_verdict hverdict h.now_plain (h.seen_plain r hr)

end Inspectable

end MemoryStore

/-! ## What can happen -/

/-- An inspection: the records that were not judged yet, the demotions under way with the moment
before which their servers were last seen, and what has come of the others. -/
structure Inspection where
  todo : List ServerRecord
  underway : List (ServerRecord × Instant) := []
  /-- The servers that were turned off. -/
  demoted : List ServerRecord := []
  /-- The servers whose demotion failed or was given up. -/
  failed : List ServerRecord := []
  report : PassReport
  store : MemoryStore

namespace Inspection

/-- All records of a store are to be judged at `now`. -/
def start (now : Instant) (m : MemoryStore) : Inspection where
  todo := m.records
  report := { startedAt := now, scanned := m.records.length }
  store := m

/-- Nothing is left to do. -/
def IsFinished (i : Inspection) : Prop :=
  i.todo = [] ∧ i.underway = []

/-- One thing that can happen in an inspection.  Any record can be the next, as long as there is room
for its demotion, and any demotion under way can be the next to end. -/
inductive Step (maxConcurrency : Nat) (grace : Float) (now : Instant) :
    Inspection → Inspection → Prop
  | undefined {i : Inspection} {record : ServerRecord} {rest : List ServerRecord}
    (hpick : i.todo.Perm (record :: rest)) (hroom : i.underway.length < max maxConcurrency 1)
    (hverdict : record.verdict now grace = .ok .undefined) :
    Step maxConcurrency grace now i { i with todo := rest, report := i.report.count .undefined }
  | unchanged {i : Inspection} {record : ServerRecord} {rest : List ServerRecord}
    (hpick : i.todo.Perm (record :: rest)) (hroom : i.underway.length < max maxConcurrency 1)
    (hverdict : record.verdict now grace = .ok .unchanged) :
    Step maxConcurrency grace now i { i with todo := rest, report := i.report.count .unchanged }
  | begins {i : Inspection} {record : ServerRecord} {rest : List ServerRecord} {cutoff : Instant}
    (hpick : i.todo.Perm (record :: rest)) (hroom : i.underway.length < max maxConcurrency 1)
    (hverdict : record.verdict now grace = .ok (.silent cutoff)) :
    Step maxConcurrency grace now i
      { i with todo := rest, underway := i.underway ++ [(record, cutoff)] }
  | answered {i : Inspection} {record : ServerRecord} {cutoff : Instant}
    {rest : List (ServerRecord × Instant)} {turned : Bool} {store : MemoryStore}
    (hpick : i.underway.Perm ((record, cutoff) :: rest))
    (hrun : i.store.demote record.serverId cutoff now = .ok (turned, store)) :
    Step maxConcurrency grace now i
      { i with
        underway := rest
        demoted := if turned then i.demoted ++ [record] else i.demoted
        report := i.report.count (.ofDemotion (some (.ok turned)))
        store }
  | fails {i : Inspection} {record : ServerRecord} {cutoff : Instant}
    {rest : List (ServerRecord × Instant)}
    (hpick : i.underway.Perm ((record, cutoff) :: rest)) :
    Step maxConcurrency grace now i
      { i with
        underway := rest
        failed := i.failed ++ [record]
        report := i.report.count (.ofDemotion none) }

/-- What can happen to a store whose records are inspected, from the beginning. -/
def Reaches (maxConcurrency : Nat) (grace : Float) (now : Instant) (m : MemoryStore)
    (i : Inspection) : Prop :=
  Relation.ReflTransGen (Step maxConcurrency grace now) (start now m) i

/-! ## What stays true -/

/-- What each step keeps. -/
structure Sound (grace : Float) (now : Instant) (m : MemoryStore) (i : Inspection) : Prop where
  /-- Every record has its place, and those that were settled without a demotion are not due. -/
  places : ∃ calm : List ServerRecord,
    m.records.Perm (i.todo ++ i.underway.map Prod.fst ++ i.demoted ++ i.failed ++ calm) ∧
      (∀ r ∈ calm, r.isDue now grace = false) ∧
      i.report.undefined = calm.countP fun r => r.lastSeen.isNone
  underway : ∀ u ∈ i.underway, u.1.verdict now grace = .ok (.silent u.2)
  due : ∀ r ∈ i.demoted ++ i.failed, r.isDue now grace = true
  stored : i.store = m.turnOff now i.demoted
  startedAt : i.report.startedAt = now
  scanned : i.report.scanned = m.records.length
  demoted : i.report.demoted = i.demoted.length
  failed : i.report.failed = i.failed.length
  listError : i.report.listError = none

variable {maxConcurrency : Nat} {grace : Float} {now : Instant} {m : MemoryStore}
  {i j : Inspection}

theorem sound_start (grace : Float) (now : Instant) (m : MemoryStore) :
    (start now m).Sound grace now m where
  places := ⟨[], by simp [start], by simp, rfl⟩
  underway := by simp [start]
  due := by simp [start]
  stored := (m.turnOff_nil now).symm
  startedAt := rfl
  scanned := rfl
  demoted := rfl
  failed := rfl
  listError := rfl

/-- A record that is not due has been judged. -/
theorem Sound.settle (h : i.Sound grace now m) {record : ServerRecord} {rest : List ServerRecord}
    {outcome : RecordOutcome} (hpick : i.todo.Perm (record :: rest))
    (hdue : record.isDue now grace = false)
    (houtcome : outcome = if record.lastSeen.isNone then .undefined else .unchanged) :
    Sound grace now m { i with todo := rest, report := i.report.count outcome } where
  places := by
    obtain ⟨calm, hperm, hcalm, hundefined⟩ := h.places
    refine ⟨record :: calm, ?_, List.forall_mem_cons.2 ⟨hdue, hcalm⟩, ?_⟩
    · rw [List.perm_iff_count] at hperm hpick ⊢
      intro r
      have hr := hperm r
      have hp := hpick r
      simp only [List.count_append, List.count_cons] at hr hp ⊢
      omega
    · rw [List.countP_cons, ← hundefined, houtcome]
      split_ifs <;> rfl
  underway := h.underway
  due := h.due
  stored := h.stored
  startedAt := by rw [houtcome]; split_ifs <;> exact h.startedAt
  scanned := by rw [houtcome]; split_ifs <;> exact h.scanned
  demoted := by rw [houtcome]; split_ifs <;> exact h.demoted
  failed := by rw [houtcome]; split_ifs <;> exact h.failed
  listError := by rw [houtcome]; split_ifs <;> exact h.listError

/-- A demotion begins. -/
theorem Sound.begin (h : i.Sound grace now m) {record : ServerRecord} {rest : List ServerRecord}
    {cutoff : Instant} (hpick : i.todo.Perm (record :: rest))
    (hverdict : record.verdict now grace = .ok (.silent cutoff)) :
    Sound grace now m { i with todo := rest, underway := i.underway ++ [(record, cutoff)] } :=
  { h with
    places := by
      obtain ⟨calm, hperm, hcalm, hundefined⟩ := h.places
      refine ⟨calm, ?_, hcalm, hundefined⟩
      rw [List.perm_iff_count] at hperm hpick ⊢
      intro r
      have hr := hperm r
      have hp := hpick r
      simp only [List.count_append, List.count_cons, List.map_append, List.map_cons, List.map_nil,
        List.count_nil] at hr hp ⊢
      omega
    underway := by
      intro u hu
      rcases List.mem_append.1 hu with hu | hu
      · exact h.underway u hu
      · rw [List.mem_singleton.1 hu]
        exact hverdict }

section

variable {record : ServerRecord} {cutoff : Instant} {rest : List (ServerRecord × Instant)}

/-- The record of a demotion that has ended is at another place. -/
theorem Sound.places_ended (h : i.Sound grace now m)
    (hpick : i.underway.Perm ((record, cutoff) :: rest)) {demoted failed : List ServerRecord}
    (hended : (demoted ++ failed).Perm (record :: (i.demoted ++ i.failed))) :
    ∃ calm : List ServerRecord,
      m.records.Perm (i.todo ++ rest.map Prod.fst ++ demoted ++ failed ++ calm) ∧
        (∀ r ∈ calm, r.isDue now grace = false) ∧
        i.report.undefined = calm.countP fun r => r.lastSeen.isNone := by
  obtain ⟨calm, hperm, hcalm, hundefined⟩ := h.places
  refine ⟨calm, ?_, hcalm, hundefined⟩
  have hfst := hpick.map Prod.fst
  rw [List.perm_iff_count] at hperm hfst hended ⊢
  intro r
  have hr := hperm r
  have hp := hfst r
  have he := hended r
  simp only [List.count_append, List.count_cons, List.map_cons] at hr hp he ⊢
  omega

theorem Sound.due_ended (h : i.Sound grace now m)
    (hpick : i.underway.Perm ((record, cutoff) :: rest)) {demoted failed : List ServerRecord}
    (hended : (demoted ++ failed).Perm (record :: (i.demoted ++ i.failed))) :
    ∀ r ∈ demoted ++ failed, r.isDue now grace = true := by
  intro r hr
  rcases List.mem_cons.1 (hended.mem_iff.1 hr) with rfl | hr
  · exact ServerRecord.isDue_of_verdict (h.underway _ (hpick.mem_iff.2 List.mem_cons_self))
  · exact h.due r hr

/-- A demotion fails or is given up. -/
theorem Sound.giveUp (h : i.Sound grace now m)
    (hpick : i.underway.Perm ((record, cutoff) :: rest)) :
    Sound grace now m { i with
      underway := rest
      failed := i.failed ++ [record]
      report := i.report.count .failed } :=
  have hended : (i.demoted ++ (i.failed ++ [record])).Perm (record :: (i.demoted ++ i.failed)) := by
    rw [← List.append_assoc]
    exact List.perm_append_singleton ..
  { h with
    places := h.places_ended hpick hended
    underway := fun u hu => h.underway u (hpick.mem_iff.2 (List.mem_cons_of_mem _ hu))
    due := h.due_ended hpick hended
    failed := by simp [PassReport.count, h.failed] }

/-- The store turns a server off. -/
theorem Sound.turnOff (h : i.Sound grace now m)
    (hpick : i.underway.Perm ((record, cutoff) :: rest)) :
    Sound grace now m { i with
      underway := rest
      demoted := i.demoted ++ [record]
      report := i.report.count .demoted
      store := m.turnOff now (i.demoted ++ [record]) } :=
  have hended : (i.demoted ++ [record] ++ i.failed).Perm (record :: (i.demoted ++ i.failed)) := by
    rw [List.append_assoc]
    exact List.perm_middle
  { h with
    places := h.places_ended hpick hended
    underway := fun u hu => h.underway u (hpick.mem_iff.2 (List.mem_cons_of_mem _ hu))
    due := h.due_ended hpick hended
    stored := rfl
    demoted := by simp [PassReport.count, h.demoted] }

end

theorem Sound.mem_of_todo (h : i.Sound grace now m) {r : ServerRecord} (hr : r ∈ i.todo) :
    r ∈ m.records := by
  obtain ⟨calm, hperm, -⟩ := h.places
  simp [hperm.mem_iff, hr]

/-- A demotion under way is of a record that was not turned off yet. -/
theorem Sound.mem_of_underway (h : i.Sound grace now m) (hm : m.Inspectable grace now)
    {u : ServerRecord × Instant} (hu : u ∈ i.underway) : u.1 ∈ m.records ∧ u.1 ∉ i.demoted := by
  obtain ⟨calm, hperm, -⟩ := h.places
  have hone := List.nodup_iff_count_le_one.1 (hperm.nodup_iff.1 hm.nodup) u.1
  have hthere : 0 < (i.underway.map Prod.fst).count u.1 :=
    List.count_pos_iff.2 (List.mem_map_of_mem hu)
  simp only [List.count_append] at hone
  constructor
  · rw [hperm.mem_iff, ← List.count_pos_iff]
    simp only [List.count_append]
    omega
  · rw [← List.count_eq_zero]
    omega

/-- **A demotion that is answered** turns the server off. -/
theorem Sound.demote (h : i.Sound grace now m) (hm : m.Inspectable grace now)
    {record : ServerRecord} {cutoff : Instant} (hu : (record, cutoff) ∈ i.underway) :
    i.store.demote record.serverId cutoff now =
      .ok (true, m.turnOff now (i.demoted ++ [record])) := by
  obtain ⟨hmem, hnew⟩ := h.mem_of_underway hm hu
  rw [h.stored]
  exact MemoryStore.demote_turnOff hm.ascending hmem hnew (hm.isSilent hmem (h.underway _ hu))

theorem Sound.step (h : i.Sound grace now m) (hm : m.Inspectable grace now)
    (hstep : Step maxConcurrency grace now i j) : j.Sound grace now m := by
  cases hstep with
  | undefined hpick _ hverdict =>
    cases ServerRecord.judged_of_verdict hverdict with
    | undefined hseen hdue => exact h.settle hpick hdue (by simp [hseen])
  | unchanged hpick _ hverdict =>
    cases ServerRecord.judged_of_verdict hverdict with
    | unchanged hseen hdue => exact h.settle hpick hdue (by simp [hseen])
  | begins hpick _ hverdict => exact h.begin hpick hverdict
  | answered hpick hrun =>
    rw [h.demote hm (hpick.mem_iff.2 List.mem_cons_self)] at hrun
    cases hrun
    exact h.turnOff hpick
  | fails hpick => exact h.giveUp hpick

theorem sound_of_reaches (hm : m.Inspectable grace now) (h : Reaches maxConcurrency grace now m i) :
    i.Sound grace now m := by
  induction h with
  | refl => exact sound_start grace now m
  | tail _ hstep ih => exact ih.step hm hstep

/-! ## Coming to an end -/

/-- How many steps are still to come, at most. -/
def remaining (i : Inspection) : Nat :=
  2 * i.todo.length + i.underway.length

/-- No inspection goes on for ever. -/
theorem Step.remaining_lt (h : Step maxConcurrency grace now i j) : j.remaining < i.remaining := by
  cases h with
  | undefined hpick | unchanged hpick =>
    simp only [remaining, hpick.length_eq, List.length_cons]
    omega
  | begins hpick =>
    simp only [remaining, hpick.length_eq, List.length_cons, List.length_append, List.length_nil]
    omega
  | answered hpick | fails hpick =>
    simp only [remaining, hpick.length_eq, List.length_cons]
    omega

/-- The servers whose demotion failed are among `fails`, and the others that were due are not. -/
structure Fits (fails : String → Bool) (i : Inspection) : Prop where
  demoted : ∀ r ∈ i.demoted, fails r.serverId = false
  failed : ∀ r ∈ i.failed, fails r.serverId = true

/-- Failures that have happened, and more of servers that were not turned off. -/
theorem Sound.exists_fits (h : i.Sound grace now m) (hm : m.Inspectable grace now)
    (more : String → Bool) (hmore : ∀ r ∈ i.demoted, more r.serverId = false) :
    ∃ fails : String → Bool, i.Fits fails ∧ (∀ id, more id = true → fails id = true) ∧
      ∀ id, fails id = true → more id = true ∨ ∃ r ∈ i.failed, r.serverId = id := by
  refine ⟨fun id => more id || i.failed.any fun r => r.serverId = id, ⟨fun r hr => ?_, fun r hr => ?_⟩,
    fun id hid => by simp [hid], fun id hid => by simpa using hid⟩
  · rw [hmore r hr, Bool.false_or, List.any_eq_false]
    intro r' hr' heq
    obtain ⟨calm, hperm, -⟩ := h.places
    have hsame : r' = r := MemoryStore.eq_of_serverId_eq hm.ascending
      (hperm.mem_iff.2 (by simp [hr'])) (hperm.mem_iff.2 (by simp [hr])) (of_decide_eq_true heq)
    subst hsame
    have hone := List.nodup_iff_count_le_one.1 (hperm.nodup_iff.1 hm.nodup) r'
    have hdemoted := List.count_pos_iff.2 hr
    have hfailed := List.count_pos_iff.2 hr'
    simp only [List.count_append] at hone
    omega
  · rw [Bool.or_eq_true, List.any_eq_true]
    exact .inr ⟨r, hr, decide_eq_true rfl⟩

/-- An inspection that is not finished can go on, and whatever is to fail can fail. -/
theorem Sound.exists_step (h : i.Sound grace now m) (hm : m.Inspectable grace now)
    (hmore : ¬ i.IsFinished) (maxConcurrency : Nat) {fails : String → Bool} (hfits : i.Fits fails) :
    ∃ j, Step maxConcurrency grace now i j ∧ j.Fits fails := by
  cases hunderway : i.underway with
  | cons u rest =>
    obtain ⟨record, cutoff⟩ := u
    have hpick : i.underway.Perm ((record, cutoff) :: rest) := by rw [hunderway]
    cases hfail : fails record.serverId with
    | true =>
      refine ⟨_, .fails hpick, hfits.demoted, fun r hr => ?_⟩
      rcases List.mem_append.1 hr with hr | hr
      · exact hfits.failed r hr
      · rwa [List.mem_singleton.1 hr]
    | false =>
      refine ⟨_, .answered hpick (h.demote hm (hpick.mem_iff.2 List.mem_cons_self)),
        fun r hr => ?_, hfits.failed⟩
      rcases List.mem_append.1 hr with hr | hr
      · exact hfits.demoted r hr
      · rwa [List.mem_singleton.1 hr]
  | nil =>
    have hroom : i.underway.length < max maxConcurrency 1 := by simp [hunderway]
    cases htodo : i.todo with
    | nil => exact absurd ⟨htodo, hunderway⟩ hmore
    | cons record rest =>
      have hpick : i.todo.Perm (record :: rest) := by rw [htodo]
      obtain ⟨verdict, hverdict⟩ :=
        hm.exists_verdict (h.mem_of_todo (hpick.mem_iff.2 List.mem_cons_self))
      cases verdict with
      | undefined => exact ⟨_, .undefined hpick hroom hverdict, hfits.demoted, hfits.failed⟩
      | unchanged => exact ⟨_, .unchanged hpick hroom hverdict, hfits.demoted, hfits.failed⟩
      | silent cutoff => exact ⟨_, .begins hpick hroom hverdict, hfits.demoted, hfits.failed⟩

/-- An inspection can be brought to its end. -/
theorem exists_finished (hm : m.Inspectable grace now) (maxConcurrency : Nat)
    {fails : String → Bool} (h : Reaches maxConcurrency grace now m i) (hfits : i.Fits fails) :
    ∃ j, Reaches maxConcurrency grace now m j ∧ j.IsFinished ∧ j.Fits fails := by
  induction hn : i.remaining using Nat.strong_induction_on generalizing i with
  | _ n ih =>
    by_cases hmore : i.IsFinished
    · exact ⟨i, h, hmore, hfits⟩
    · obtain ⟨j, hstep, hfits'⟩ :=
        (sound_of_reaches hm h).exists_step hm hmore maxConcurrency hfits
      exact ih _ (hn ▸ hstep.remaining_lt) (h.tail hstep) hfits' rfl

end Inspection

/-! ## What an inspection comes to -/

/-- What an inspection comes to if the demotions of the servers in `fails` fail: the others that are
due are turned off, which is added to the log, and nothing else changes. -/
structure Swept (grace : Float) (now : Instant) (fails : String → Bool) (m : MemoryStore)
    (report : PassReport) (m' : MemoryStore) : Prop where
  records : m'.records = m.records.map fun r =>
    if r.isDue now grace && !fails r.serverId then
      { r with status := .off, statusChangedAt := some now }
    else r
  transitions : ∃ changes, m'.transitions = m.transitions ++ changes ∧
    changes.Perm ((m.records.filter fun r => r.isDue now grace && !fails r.serverId).map
      fun r => ⟨r.serverId, .on, .off, now⟩)
  series : m'.series = m.series
  startedAt : report.startedAt = now
  scanned : report.scanned = m.records.length
  demoted : report.demoted = m.records.countP fun r => r.isDue now grace && !fails r.serverId
  undefined : report.undefined = m.records.countP fun r => r.lastSeen.isNone
  failed : report.failed = m.records.countP fun r => r.isDue now grace && fails r.serverId
  listError : report.listError = none

variable {grace : Float} {now : Instant} {fails : String → Bool} {m m' : MemoryStore}
  {report : PassReport} {i : Inspection}

/-- **What an inspection comes to** depends only on which demotions failed. -/
theorem Inspection.Sound.swept (h : i.Sound grace now m) (hfinished : i.IsFinished)
    (hfits : i.Fits fails) : Swept grace now fails m i.report i.store := by
  obtain ⟨calm, hperm, hcalm, hundefined⟩ := h.places
  rw [hfinished.1, hfinished.2, List.map_nil, List.nil_append, List.nil_append] at hperm
  have hdemoted : ∀ r ∈ i.demoted, (r.isDue now grace && !fails r.serverId) = true := by
    intro r hr
    simp [h.due r (List.mem_append_left _ hr), hfits.demoted r hr]
  have hfailed : ∀ r ∈ i.failed, (r.isDue now grace && fails r.serverId) = true := by
    intro r hr
    simp [h.due r (List.mem_append_right _ hr), hfits.failed r hr]
  have hseen : ∀ r ∈ i.demoted ++ i.failed, ¬ r.lastSeen.isNone = true := by
    intro r hr
    simpa using ServerRecord.lastSeen_of_isDue (h.due r hr)
  have hoff : (m.records.filter fun r => r.isDue now grace && !fails r.serverId).Perm
      i.demoted := by
    refine (hperm.filter _).trans ?_
    rw [List.filter_append, List.filter_append, List.filter_eq_self.2 hdemoted,
      List.filter_eq_nil_iff.2 (fun r hr => by simp [hfits.failed r hr]),
      List.filter_eq_nil_iff.2 (fun r hr => by simp [hcalm r hr]), List.append_nil,
      List.append_nil]
  refine ⟨?_, ?_, ?_, h.startedAt, h.scanned, ?_, ?_, ?_, h.listError⟩
  · rw [h.stored, MemoryStore.turnOff]
    refine List.map_congr_left fun r hr => if_congr ?_ rfl rfl
    rw [← hoff.mem_iff, List.mem_filter]
    exact and_iff_right hr
  · refine ⟨_, by rw [h.stored]; rfl, hoff.symm.map _⟩
  · rw [h.stored]
    rfl
  · rw [h.demoted, List.countP_eq_length_filter, hoff.length_eq]
  · rw [hundefined, hperm.countP_eq, List.countP_append, List.countP_eq_zero.2 hseen, Nat.zero_add]
  · rw [h.failed, hperm.countP_eq, List.countP_append, List.countP_append,
      List.countP_eq_zero.2 (fun r hr => by simp [hfits.demoted r hr]),
      List.countP_eq_length.2 hfailed, List.countP_eq_zero.2 (fun r hr => by simp [hcalm r hr]),
      Nat.zero_add, Nat.add_zero]

namespace Swept

/-- The records can be judged as before. -/
theorem inspectable (h : Swept grace now fails m report m') (hm : m.Inspectable grace now) :
    m'.Inspectable grace now := by
  have hback : ∀ r' ∈ m'.records, ∃ r ∈ m.records,
      r'.lastSeen = r.lastSeen ∧ r'.window? grace = r.window? grace := by
    intro r' hr'
    rw [h.records] at hr'
    obtain ⟨r, hr, rfl⟩ := List.mem_map.1 hr'
    refine ⟨r, hr, ?_⟩
    split_ifs <;> exact ⟨rfl, rfl⟩
  refine ⟨?_, fun r' hr' => ?_, hm.now_plain, fun r' hr' seen hseen => ?_⟩
  · rw [h.records]
    refine List.pairwise_map.2 (List.Pairwise.imp ?_ hm.ascending)
    intro r r' hlt
    split_ifs <;> exact hlt
  · obtain ⟨r, hr, -, hwindow⟩ := hback r' hr'
    rw [hwindow]
    exact hm.window r hr
  · obtain ⟨r, hr, hsame, -⟩ := hback r' hr'
    exact hm.seen_plain r hr seen (hsame ▸ hseen)

/-- After an inspection without failures nobody is due. -/
theorem not_isDue (h : Swept grace now fails m report m') (hfailed : report.failed = 0) :
    ∀ r ∈ m'.records, r.isDue now grace = false := by
  intro r' hr'
  rw [h.records] at hr'
  obtain ⟨r, hr, rfl⟩ := List.mem_map.1 hr'
  have hnone := List.countP_eq_zero.1 (h.failed.symm.trans hfailed) r hr
  split_ifs with hoff
  · exact r.isDue_demoted now now grace
  · simp only [Bool.and_eq_true, Bool.not_eq_true'] at hoff hnone
    rw [Bool.eq_false_iff]
    intro hdue
    cases hfails : fails r.serverId with
    | false => exact hoff ⟨hdue, hfails⟩
    | true => exact hnone ⟨hdue, hfails⟩

/-- An inspection in which nobody is due does nothing. -/
theorem eq_self (h : Swept grace now fails m report m')
    (hcalm : ∀ r ∈ m.records, r.isDue now grace = false) :
    report.demoted = 0 ∧ report.failed = 0 ∧ m' = m := by
  have hoff : ∀ r ∈ m.records, ¬ (r.isDue now grace && !fails r.serverId) = true := by
    intro r hr
    simp [hcalm r hr]
  refine ⟨?_, ?_, ?_⟩
  · rw [h.demoted, List.countP_eq_zero.2 hoff]
  · rw [h.failed, List.countP_eq_zero.2 fun r hr => by simp [hcalm r hr]]
  · obtain ⟨changes, htransitions, hperm⟩ := h.transitions
    rw [List.filter_eq_nil_iff.2 hoff, List.map_nil, List.perm_nil] at hperm
    have hrecords : m'.records = m.records := by
      rw [h.records]
      exact (List.map_congr_left fun r hr => if_neg (hoff r hr)).trans (List.map_id' _)
    obtain ⟨records, series, transitions⟩ := m'
    have hseries := h.series
    simp only at hrecords hseries htransitions
    rw [hrecords, hseries, htransitions, hperm, List.append_nil]

end Swept

end Pulse
