import Mathlib.Data.List.Dedup
import Mathlib.Data.List.Perm.Subperm
import Pulse.Proofs.Store.Mirror.Metrics
import Pulse.Proofs.Store.Mirror.Relation
import Pulse.Proofs.Store.Series

/-!
# Samples in both stores

A database keeps the samples of all servers in one table, the store in memory keeps a series for
each server and gives up the oldest of a series that is too long.  A server whose samples are at few
enough moments never comes to that, and then both stores keep and find the same samples
(`Mirrors.insertSample`, `Mirrors.latestSamples`, `Mirrors.cleanupSamples`).

How many samples there are follows: every row belongs to exactly one series
(`Mirrors.sampleCount_eq`).
-/

set_option autoImplicit false

namespace Pulse

open Ordered (Ascending)
open Time (Instant)

/-- Samples at different moments are no more than the moments. -/
theorem length_le_of_timely {samples : List Sample} {times : List Instant}
    (h : Ascending Sample.timestamp samples) (htimes : ∀ s ∈ samples, s.timestamp ∈ times) :
    samples.length ≤ times.dedup.length := by
  have hnodup : (samples.map Sample.timestamp).Nodup :=
    List.pairwise_map.2 (h.imp fun hlt => hlt.ne)
  have hsub : samples.map Sample.timestamp ⊆ times.dedup := by
    intro time htime
    obtain ⟨s, hs, rfl⟩ := List.mem_map.1 htime
    exact List.mem_dedup.2 (htimes s hs)
  simpa using (List.subperm_of_subset hnodup hsub).length_le

/-- Rows that all belong to one of some servers are counted server by server. -/
theorem sum_length_filter {ids : List String} (hids : ids.Nodup) {rows : List SampleRow}
    (hrows : ∀ row ∈ rows, row.serverId ∈ ids) :
    (ids.map fun id => (rows.filter fun row => row.serverId = id).length).foldr (· + ·) 0 =
      rows.length := by
  induction ids generalizing rows with
  | nil =>
    cases rows with
    | nil => rfl
    | cons row rest => exact absurd (hrows row List.mem_cons_self) List.not_mem_nil
  | cons id ids ih =>
    obtain ⟨hid, hids⟩ := List.nodup_cons.1 hids
    have hothers := @ih hids (rows.filter fun row => !decide (row.serverId = id)) ?_
    · rw [List.map_cons, List.foldr_cons,
        List.length_eq_length_filter_add (l := rows) fun row => row.serverId = id, ← hothers]
      congr 2
      refine List.map_congr_left fun id' hid' => ?_
      rw [List.filter_filter]
      congr 1
      refine List.filter_congr fun row _ => ?_
      by_cases h : row.serverId = id'
      · have hne : id' ≠ id := fun h' => hid (h' ▸ hid')
        simp [h, hne]
      · simp [h]
    · intro row hrow
      obtain ⟨hmem, hne⟩ := List.mem_filter.1 hrow
      rcases List.mem_cons.1 (hrows row hmem) with heq | hmem
      · simp [heq] at hne
      · exact hmem

namespace Mirrors

variable {times : String → List Instant} {d : DurableStore} {m : MemoryStore}

theorem samplesOf_of_mem (h : Mirrors times d m) {series : Series} (hseries : series ∈ m.series) :
    m.samplesOf series.serverId = series.samples := by
  rw [MemoryStore.samplesOf, h.ascending.get?_eq_some_iff.2 ⟨hseries, rfl⟩]

theorem timely_samplesOf (h : Mirrors times d m) (id : String) :
    Ascending Sample.timestamp (m.samplesOf id) ∧
      ∀ s ∈ m.samplesOf id, s.timestamp ∈ times id := by
  rw [MemoryStore.samplesOf]
  cases hget : Ordered.get? Series.serverId id m.series with
  | none => exact ⟨List.Pairwise.nil, by simp⟩
  | some series =>
    obtain rfl : series.serverId = id := Ordered.key_of_get? hget
    exact h.timely series (Ordered.mem_of_get? hget)

/-- Both stores hold the same number of samples. -/
theorem sampleCount_eq (h : Mirrors times d m) : m.sampleCount = d.samples.length := by
  have hids : (m.series.map Series.serverId).Nodup :=
    List.pairwise_map.2 (h.ascending.imp fun hlt => hlt.ne)
  have hrows : ∀ row ∈ d.samples, row.serverId ∈ m.series.map Series.serverId := by
    intro row hrow
    obtain ⟨series, hseries, hid⟩ := h.covered row hrow
    exact List.mem_map.2 ⟨series, hseries, hid⟩
  rw [← sum_length_filter hids hrows, MemoryStore.sampleCount, List.map_map]
  congr 1
  refine List.map_congr_left fun series hseries => ?_
  have hlength := congrArg List.length (h.samples series.serverId)
  rwa [h.samplesOf_of_mem hseries, List.length_map] at hlength

/-! ## Inserting -/

/-- What a row holds of a sample. -/
theorem sample_of_row {s : Sample} (htime : s.timestamp.isLeap = false)
    (hcpu : DurableStore.IsPlain s.cpu) (hram : DurableStore.IsPlain s.ram)
    (hdisk : DurableStore.IsPlain s.disk) :
    SampleRow.sample ⟨s.serverId, s.timestamp.toMillis, DurableStore.storedMetric s.cpu,
      DurableStore.storedMetric s.ram, DurableStore.storedMetric s.disk⟩ =
      { s with timestamp := s.timestamp.floor } := by
  rw [SampleRow.sample, DurableStore.storedMetric_eq_self hcpu,
    DurableStore.storedMetric_eq_self hram, DurableStore.storedMetric_eq_self hdisk,
    Instant.ofMillis_toMillis htime]

/-- The rows of each server after the rows of one server were replaced. -/
theorem filter_replace {id : String} {own rows : List SampleRow}
    (hown : ∀ row ∈ own, row.serverId = id) (id' : String) :
    (own ++ rows.filter fun row => row.serverId ≠ id).filter (fun row => row.serverId = id') =
      if id = id' then own else rows.filter fun row => row.serverId = id' := by
  rw [List.filter_append, List.filter_filter]
  split_ifs with hid
  · subst hid
    rw [List.filter_eq_self.2 fun row hrow => decide_eq_true (hown row hrow)]
    simp
  · rw [List.filter_eq_nil_iff.2 fun row hrow => by simp [hown row hrow, hid], List.nil_append]
    refine List.filter_congr fun row _ => ?_
    by_cases h : row.serverId = id'
    · simp [h, Ne.symm hid]
    · simp [h]

theorem mem_samplesOf {id : String} {row : SampleRow} :
    row ∈ d.samplesOf id ↔ row ∈ d.samples ∧ row.serverId = id := by
  simp [DurableStore.samplesOf]

/-- The database with a row of samples replaced or added. -/
def putSampleRow (d : DurableStore) (row : SampleRow) : DurableStore :=
  { d with
    samples := Ordered.put SampleRow.timestamp row (d.samplesOf row.serverId)
      ++ d.samples.filter fun other => other.serverId ≠ row.serverId }

theorem samplesOf_putSampleRow (d : DurableStore) (row : SampleRow) (id : String) :
    (putSampleRow d row).samplesOf id =
      if row.serverId = id then Ordered.put SampleRow.timestamp row (d.samplesOf row.serverId)
      else d.samplesOf id := by
  refine filter_replace (fun other hother => ?_) id
  rcases Ordered.mem_put hother with rfl | hother
  · rfl
  · exact (mem_samplesOf.1 hother).2

theorem mem_putSampleRow {row other : SampleRow} (h : other ∈ (putSampleRow d row).samples) :
    other = row ∨ other ∈ d.samples := by
  rcases List.mem_append.1 h with hother | hother
  · exact (Ordered.mem_put hother).imp_right fun hother => (mem_samplesOf.1 hother).1
  · exact .inr (List.mem_filter.1 hother).1

/-- The samples of a server after one more, of which none has to be given up. -/
theorem put_sample (h : Mirrors times d m) {row : SampleRow}
    (hrow : Instant.IsWhole row.timestamp) :
    Ordered.put Sample.timestamp row.sample (m.samplesOf row.serverId) =
      (Ordered.put SampleRow.timestamp row (d.samplesOf row.serverId)).map SampleRow.sample := by
  rw [h.samples]
  have hwhole (other : SampleRow) (hother : other ∈ d.samplesOf row.serverId) :
      Instant.IsWhole other.timestamp :=
    h.wholeSamples other (mem_samplesOf.1 hother).1
  refine (Ordered.map_put (fun other hother => ?_) fun other hother => ?_).symm
  · exact Instant.ofMillis_inj hrow (hwhole other hother)
  · exact Instant.ofMillis_lt_ofMillis_iff hrow (hwhole other hother)

theorem timely_put (h : Mirrors times d m) {s : Sample} (hmem : s.timestamp ∈ times s.serverId) :
    Ascending Sample.timestamp (Ordered.put Sample.timestamp s (m.samplesOf s.serverId)) ∧
      ∀ other ∈ Ordered.put Sample.timestamp s (m.samplesOf s.serverId),
        other.timestamp ∈ times s.serverId := by
  obtain ⟨hascending, htimely⟩ := h.timely_samplesOf s.serverId
  refine ⟨hascending.put s, fun other hother => ?_⟩
  rcases Ordered.mem_put hother with rfl | hother
  · exact hmem
  · exact htimely other hother

theorem insertRow (h : Mirrors times d m) {row : SampleRow} (hrow : Instant.IsWhole row.timestamp)
    (hmem : row.sample.timestamp ∈ times row.serverId)
    (hfew : (times row.serverId).dedup.length ≤ MemoryStore.seriesLimit) :
    Mirrors times (putSampleRow d row) (m.insertSample row.sample) := by
  obtain ⟨hascending, htimely⟩ := h.timely_put (s := row.sample) hmem
  have hlast := MemoryStore.lastItems_of_length_le ((length_le_of_timely hascending htimely).trans hfew)
  rw [MemoryStore.insertSample, hlast]
  exact
    { opened := h.opened
      records := h.records
      wholeServers := h.wholeServers
      changes := h.changes
      wholeChanges := h.wholeChanges
      samples := fun id => by
        rw [MemoryStore.samplesOf_putSeries, samplesOf_putSampleRow]
        show (if row.serverId = id then _ else _) = List.map _ (if row.serverId = id then _ else _)
        split_ifs with hid
        · exact h.put_sample hrow
        · exact h.samples id
      wholeSamples := fun other hother => by
        rcases mem_putSampleRow hother with rfl | hother
        · exact hrow
        · exact h.wholeSamples other hother
      ascending := h.ascending.put _
      covered := fun other hother => by
        by_cases hid : other.serverId = row.serverId
        · exact ⟨_, h.ascending.mem_put_iff.2 (.inl rfl), hid.symm⟩
        · rcases mem_putSampleRow hother with rfl | hother
          · exact absurd rfl hid
          · obtain ⟨series, hseries, hseriesId⟩ := h.covered other hother
            refine ⟨series, h.ascending.mem_put_iff.2 (.inr ⟨hseries, ?_⟩), hseriesId⟩
            rwa [hseriesId]
      timely := fun series hseries => by
        rcases Ordered.mem_put hseries with rfl | hseries
        · exact ⟨hascending, htimely⟩
        · exact h.timely series hseries }

/-- **A sample does the same to both stores**, if the moments of its server are few enough. -/
theorem insertSample (h : Mirrors times d m) {s : Sample} (htime : s.timestamp.isLeap = false)
    (hcpu : DurableStore.IsPlain s.cpu) (hram : DurableStore.IsPlain s.ram)
    (hdisk : DurableStore.IsPlain s.disk) (hmem : s.timestamp.floor ∈ times s.serverId)
    (hfew : (times s.serverId).dedup.length ≤ MemoryStore.seriesLimit) :
    Mirrors times (d.insertSample s)
      (m.insertSample { s with timestamp := s.timestamp.floor }) := by
  rw [← sample_of_row htime hcpu hram hdisk]
  refine h.insertRow (Instant.isWhole_toMillis htime) ?_ hfew
  rw [sample_of_row htime hcpu hram hdisk]
  exact hmem

/-! ## Finding and cleaning -/

/-- **Both stores find the same newest samples**, for any limit: one that is so large that it wraps
round to no limit is no limit in memory either. -/
theorem latestSamples (h : Mirrors times d m) {id : String}
    (hfew : (times id).dedup.length ≤ MemoryStore.seriesLimit) (limit : Nat) :
    d.latestSamples id limit = m.latestSamples id limit := by
  obtain ⟨hascending, htimely⟩ := h.timely_samplesOf id
  have hlength := (length_le_of_timely hascending htimely).trans hfew
  rw [h.samples, List.length_map] at hlength
  rw [DurableStore.latestSamples, DurableStore.limited, MemoryStore.latestSamples, h.samples]
  split_ifs with hlimit
  · rw [List.take_reverse, List.reverse_reverse, MemoryStore.lastItems, List.length_map,
      List.map_drop]
  · have hle : (d.samplesOf id).length ≤ limit :=
      hlength.trans ((by decide : MemoryStore.seriesLimit ≤ 9223372036854775808).trans
        (not_lt.1 hlimit))
    rw [List.reverse_reverse, MemoryStore.lastItems_of_length_le (by rwa [List.length_map])]

/-- The database with the samples from a moment on. -/
theorem samplesOf_filter (d : DurableStore) (p : SampleRow → Bool) (id : String) :
    ({ d with samples := d.samples.filter p } : DurableStore).samplesOf id =
      (d.samplesOf id).filter p := by
  simp only [DurableStore.samplesOf, List.filter_filter, Bool.and_comm]

theorem mirrors_filter (h : Mirrors times d m) {before : Instant}
    (hbefore : before.isLeap = false) :
    Mirrors times
      { d with samples := d.samples.filter fun row => !decide (row.timestamp < before.toMillis) }
      { m with
        series := m.series.map fun series =>
          { series with
            samples := series.samples.filter fun s => before.floor ≤ s.timestamp } } where
  opened := h.opened
  records := h.records
  wholeServers := h.wholeServers
  changes := h.changes
  wholeChanges := h.wholeChanges
  samples id := by
    rw [samplesOf_filter, MemoryStore.samplesOf_map_filter, h.samples, List.filter_map,
      ← Instant.ofMillis_toMillis hbefore]
    congr 1
    refine List.filter_congr fun row hrow => ?_
    have hwhole := h.wholeSamples row (mem_samplesOf.1 hrow).1
    have hle := Instant.ofMillis_le_ofMillis_iff (Instant.isWhole_toMillis hbefore) hwhole
    show decide (Instant.ofMillis before.toMillis ≤ Instant.ofMillis row.timestamp) = _
    simp only [hle, ← not_lt, decide_not]
  wholeSamples row hrow := h.wholeSamples row (List.mem_filter.1 hrow).1
  ascending := List.pairwise_map.2 h.ascending
  covered row hrow := by
    obtain ⟨series, hseries, hid⟩ := h.covered row (List.mem_filter.1 hrow).1
    exact ⟨_, List.mem_map_of_mem hseries, hid⟩
  timely series hseries := by
    obtain ⟨full, hfull, rfl⟩ := List.mem_map.1 hseries
    obtain ⟨hascending, htimely⟩ := h.timely full hfull
    exact ⟨hascending.sublist List.filter_sublist,
      fun s hs => htimely s (List.mem_filter.1 hs).1⟩

/-- **Cleaning the samples does the same to both stores.** -/
theorem cleanupSamples (h : Mirrors times d m) {before : Instant}
    (hbefore : before.isLeap = false) :
    Agree times (.ok (d.cleanupSamples before)) (.ok (m.cleanupSamples before.floor)) := by
  have hkept := h.mirrors_filter hbefore
  have hcount := List.length_eq_length_filter_add (l := d.samples)
    fun row => row.timestamp < before.toMillis
  rw [DurableStore.cleanupSamples, List.partition_eq_filter_filter, MemoryStore.cleanupSamples]
  show Agree times _ (.ok (_ - _, _))
  rw [h.sampleCount_eq, hkept.sampleCount_eq, hcount, Nat.add_sub_cancel]
  exact .ok hkept

end Mirrors

end Pulse
