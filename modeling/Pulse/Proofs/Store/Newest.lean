import Mathlib.Algebra.BigOperators.Group.Finset.Basic
import Mathlib.Algebra.GroupWithZero.Nat
import Mathlib.Data.List.Dedup
import Pulse.Proofs.Store.Series

/-!
# The newest samples of a server

A series gives up its oldest sample whenever it has become too long, and nobody can tell: what it
holds after any insertions is what would be left if all of them were kept and the limit were applied
once, at the end (`samplesOf_insertAll`).  So the samples that are found are known from the
insertions alone.

* `IsLatest` — a sample is the last one that was inserted for its server and time.
* `AreNewest` — the samples of the newest times, each the last one of its time, oldest first.
* `insertAll_newest` — these are the samples that are found, in whatever order they were inserted,
  and cleaning removes and counts those that are too old.
-/

set_option autoImplicit false

namespace Pulse

open Ordered (Ascending)
open Time (Instant)

/-! ## Samples by server and time -/

/-- The samples are of different servers or times. -/
def Sample.Apart (s u : Sample) : Prop :=
  s.serverId = u.serverId → s.timestamp ≠ u.timestamp

theorem Sample.Apart.symm {s u : Sample} (h : s.Apart u) : u.Apart s :=
  fun hid htime => h hid.symm htime.symm

/-- The last sample of its server and time among samples in the order of their insertion. -/
def IsLatest (inserted : List Sample) (s : Sample) : Prop :=
  ∃ earlier later, inserted = earlier ++ s :: later ∧ ∀ u ∈ later, u.Apart s

/-- The times of the samples of a server, each once. -/
def timesOf (id : String) (inserted : List Sample) : List Instant :=
  ((inserted.filter fun s => s.serverId = id).map Sample.timestamp).dedup

/-- The samples of the newest times of a server, at most `limit` of them, each the last one of its
time, oldest first. -/
structure AreNewest (inserted : List Sample) (id : String) (limit : Nat) (found : List Sample) :
    Prop where
  ascending : Ascending Sample.timestamp found
  length_eq : found.length = min limit (timesOf id inserted).length
  mem_iff (s : Sample) : s ∈ found ↔ s.serverId = id ∧ IsLatest inserted s ∧
    ((timesOf id inserted).filter fun time => s.timestamp < time).length < limit

variable {inserted : List Sample} {id : String} {s u : Sample}

theorem mem_timesOf {time : Instant} :
    time ∈ timesOf id inserted ↔ ∃ s ∈ inserted, s.serverId = id ∧ s.timestamp = time := by
  simp [timesOf, and_assoc]

theorem IsLatest.mem (h : IsLatest inserted s) : s ∈ inserted := by
  obtain ⟨earlier, later, rfl, -⟩ := h
  simp

/-- One more insertion. -/
theorem isLatest_concat :
    IsLatest (inserted ++ [u]) s ↔ s = u ∨ IsLatest inserted s ∧ u.Apart s := by
  constructor
  · rintro ⟨earlier, later, hsplit, hlater⟩
    rcases List.eq_nil_or_concat later with rfl | ⟨later, v, rfl⟩
    · obtain ⟨-, hu⟩ := List.append_inj' hsplit rfl
      exact .inl (List.singleton_inj.1 hu).symm
    · rw [List.concat_eq_append, ← List.cons_append, ← List.append_assoc] at hsplit
      obtain ⟨rfl, hu⟩ := List.append_inj' hsplit rfl
      obtain rfl := List.singleton_inj.1 hu
      rw [List.concat_eq_append, List.forall_mem_append, List.forall_mem_singleton] at hlater
      exact .inr ⟨⟨earlier, later, rfl, hlater.1⟩, hlater.2⟩
  · rintro (rfl | ⟨⟨earlier, later, rfl, hlater⟩, hu⟩)
    · exact ⟨inserted, [], rfl, by simp⟩
    · refine ⟨earlier, later ++ [u], by simp, ?_⟩
      rw [List.forall_mem_append, List.forall_mem_singleton]
      exact ⟨hlater, hu⟩

/-! ## Without a limit -/

/-- The samples of a server, oldest first, one for each time, if none is given up. -/
def seriesOf (id : String) (inserted : List Sample) : List Sample :=
  (inserted.filter fun s => s.serverId = id).foldl
    (fun items s => Ordered.put Sample.timestamp s items) []

theorem seriesOf_concat (id : String) (inserted : List Sample) (u : Sample) :
    seriesOf id (inserted ++ [u]) =
      if u.serverId = id then Ordered.put Sample.timestamp u (seriesOf id inserted)
      else seriesOf id inserted := by
  rw [seriesOf, List.filter_append, List.foldl_append]
  split_ifs with hid <;> simp [seriesOf, hid]

theorem ascending_seriesOf (id : String) (inserted : List Sample) :
    Ascending Sample.timestamp (seriesOf id inserted) := by
  induction inserted using List.reverseRecOn with
  | nil => exact List.Pairwise.nil
  | append_singleton inserted u ih =>
    rw [seriesOf_concat]
    split_ifs
    · exact ih.put u
    · exact ih

theorem mem_seriesOf : s ∈ seriesOf id inserted ↔ s.serverId = id ∧ IsLatest inserted s := by
  induction inserted using List.reverseRecOn with
  | nil => simp [seriesOf, IsLatest]
  | append_singleton inserted u ih =>
    rw [seriesOf_concat, isLatest_concat]
    split_ifs with hid
    · rw [(ascending_seriesOf id inserted).mem_put_iff, ih]
      constructor
      · rintro (rfl | ⟨⟨hs, hlatest⟩, hne⟩)
        · exact ⟨hid, .inl rfl⟩
        · exact ⟨hs, .inr ⟨hlatest, fun _ => hne.symm⟩⟩
      · rintro ⟨hs, rfl | ⟨hlatest, hapart⟩⟩
        · exact .inl rfl
        · exact .inr ⟨⟨hs, hlatest⟩, (hapart (hid.trans hs.symm)).symm⟩
    · rw [ih]
      constructor
      · rintro ⟨hs, hlatest⟩
        exact ⟨hs, .inr ⟨hlatest, fun heq => absurd (heq.trans hs) hid⟩⟩
      · rintro ⟨hs, rfl | ⟨hlatest, -⟩⟩
        · exact absurd hs hid
        · exact ⟨hs, hlatest⟩

/-- Of every sample that was inserted there is a latest one of its server and time. -/
theorem exists_isLatest (h : s ∈ inserted) :
    ∃ u, IsLatest inserted u ∧ u.serverId = s.serverId ∧ u.timestamp = s.timestamp := by
  induction inserted using List.reverseRecOn with
  | nil => cases h
  | append_singleton inserted u ih =>
    by_cases hkey : u.serverId = s.serverId ∧ u.timestamp = s.timestamp
    · exact ⟨u, isLatest_concat.2 (.inl rfl), hkey⟩
    · have hs : s ∈ inserted := by
        refine (List.mem_append.1 h).resolve_right fun hs => hkey ?_
        rw [List.mem_singleton.1 hs]
        exact ⟨rfl, rfl⟩
      obtain ⟨v, hv, hid, htime⟩ := ih hs
      refine ⟨v, isLatest_concat.2 (.inr ⟨hv, fun hid' htime' => hkey ?_⟩), hid, htime⟩
      exact ⟨hid'.trans hid, htime'.trans htime⟩

/-- There is one sample for each time. -/
theorem perm_times_seriesOf (id : String) (inserted : List Sample) :
    ((seriesOf id inserted).map Sample.timestamp).Perm (timesOf id inserted) := by
  have hnodup : ((seriesOf id inserted).map Sample.timestamp).Nodup :=
    List.pairwise_map.2 ((ascending_seriesOf id inserted).imp fun hlt => hlt.ne)
  refine (List.perm_ext_iff_of_nodup hnodup (List.nodup_dedup _)).2 fun time => ?_
  rw [← timesOf, mem_timesOf, List.mem_map]
  constructor
  · rintro ⟨s, hs, rfl⟩
    obtain ⟨hid, hlatest⟩ := mem_seriesOf.1 hs
    exact ⟨s, hlatest.mem, hid, rfl⟩
  · rintro ⟨s, hs, rfl, rfl⟩
    obtain ⟨u, hlatest, hid, htime⟩ := exists_isLatest hs
    exact ⟨u, mem_seriesOf.2 ⟨hid, hlatest⟩, htime⟩

theorem length_filter_seriesOf (id : String) (inserted : List Sample) (time : Instant) :
    ((seriesOf id inserted).filter fun u => time < u.timestamp).length =
      ((timesOf id inserted).filter fun later => time < later).length := by
  rw [← ((perm_times_seriesOf id inserted).filter _).length_eq, List.filter_map, List.length_map]
  rfl

namespace MemoryStore

/-! ## With a limit -/

/-- In ascending items, the last are those behind which there are few others. -/
theorem mem_lastItems_iff {α κ : Type} [LinearOrder κ] {key : α → κ} {items : List α}
    (h : Ascending key items) {n : Nat} {a : α} :
    a ∈ lastItems n items ↔ a ∈ items ∧ (items.filter fun b => key a < key b).length < n := by
  induction items with
  | nil => simp [lastItems]
  | cons b rest ih =>
    obtain ⟨hb, hrest⟩ := List.pairwise_cons.1 h
    have hfirst : (b :: rest).filter (fun c => key b < key c) = rest := by
      rw [List.filter_cons_of_neg (by simp)]
      exact List.filter_eq_self.2 fun c hc => decide_eq_true (hb c hc)
    have hlater (ha : a ∈ rest) : (b :: rest).filter (fun c => key a < key c) =
        rest.filter fun c => key a < key c :=
      List.filter_cons_of_neg (by simpa using (hb a ha).le)
    rcases Nat.lt_or_ge rest.length n with hshort | hlong
    · rw [lastItems_of_length_le (Nat.succ_le_of_lt hshort)]
      refine (and_iff_left_of_imp fun ha => ?_).symm
      rcases List.mem_cons.1 ha with rfl | ha
      · rwa [hfirst]
      · rw [hlater ha]
        exact (List.length_filter_le ..).trans_lt hshort
    · -- The first item is given up.
      rw [show b :: rest = [b] ++ rest from rfl, lastItems_append_of_le [b] hlong, ih hrest]
      constructor
      · rintro ⟨ha, hfew⟩
        exact ⟨List.mem_cons_of_mem _ ha, (hlater ha).symm ▸ hfew⟩
      · rintro ⟨ha, hfew⟩
        rcases List.mem_cons.1 ha with rfl | ha
        · exact absurd (hfirst ▸ hfew) (not_lt.2 hlong)
        · exact ⟨ha, hlater ha ▸ hfew⟩

theorem length_lastItems {α : Type} (n : Nat) (items : List α) :
    (lastItems n items).length = min n items.length := by
  rw [lastItems, List.length_drop]
  omega

theorem lastItems_lastItems {α : Type} (m n : Nat) (items : List α) :
    lastItems m (lastItems n items) = lastItems (min m n) items := by
  rw [lastItems, length_lastItems, lastItems, List.drop_drop, lastItems]
  congr 1
  omega

/-- The store after samples were inserted, one after the other. -/
def insertAll (store : MemoryStore) (samples : List Sample) : MemoryStore :=
  samples.foldl insertSample store

theorem insertAll_concat (store : MemoryStore) (samples : List Sample) (s : Sample) :
    store.insertAll (samples ++ [s]) = (store.insertAll samples).insertSample s :=
  List.foldl_append

variable {store : MemoryStore} {samples more : List Sample}

theorem IsTidy.insertAll (h : store.IsTidy) (samples : List Sample) :
    (store.insertAll samples).IsTidy := by
  induction samples generalizing store with
  | nil => exact h
  | cons s samples ih => exact ih (h.insertSample s)

/-- **Nobody can tell when samples were given up**: a series holds what would be left if the limit
were applied once, at the end. -/
theorem samplesOf_insertAll (id : String) (inserted : List Sample) :
    (empty.insertAll inserted).samplesOf id = lastItems seriesLimit (seriesOf id inserted) := by
  induction inserted using List.reverseRecOn with
  | nil => exact (lastItems_of_length_le (Nat.zero_le seriesLimit)).symm
  | append_singleton inserted s ih =>
    rw [insertAll_concat, samplesOf_insertSample, seriesOf_concat]
    split_ifs with hid
    · rw [hid, ih, lastItems_put_lastItems (ascending_seriesOf id inserted)]
    · exact ih

/-- **The samples that are found** are those of the newest times. -/
theorem areNewest_latestSamples (inserted : List Sample) (id : String) (n : Nat) :
    AreNewest inserted id (min n seriesLimit)
      ((empty.insertAll inserted).latestSamples id n) := by
  have hascending := ascending_seriesOf id inserted
  rw [latestSamples, samplesOf_insertAll, lastItems_lastItems]
  exact {
    ascending := ascending_lastItems _ hascending
    length_eq := by
      rw [length_lastItems, ← (perm_times_seriesOf id inserted).length_eq, List.length_map]
    mem_iff := fun s => by
      rw [mem_lastItems_iff hascending, mem_seriesOf, length_filter_seriesOf, and_assoc] }

/-- **The order of insertion does not matter** for samples of different servers or times. -/
theorem IsTidy.insertAll_perm (h : store.IsTidy) (hperm : samples.Perm more)
    (hapart : samples.Pairwise Sample.Apart) : store.insertAll samples = store.insertAll more := by
  induction hperm generalizing store with
  | nil => rfl
  | cons s hperm ih => exact ih (h.insertSample s) (List.pairwise_cons.1 hapart).2
  | swap s u rest =>
    have hus : u.Apart s := (List.pairwise_cons.1 hapart).1 s List.mem_cons_self
    exact congrArg (fun store : MemoryStore => store.insertAll rest) (insertSample_comm h hus)
  | trans hfirst hsecond ih ih' =>
    exact (ih h hapart).trans (ih' h (hfirst.pairwise hapart Sample.Apart.symm))

/-! ## Cleaning -/

theorem samplesOf_eq_nil (h : id ∉ store.series.map Series.serverId) : store.samplesOf id = [] := by
  have hnone : Ordered.get? Series.serverId id store.series = none :=
    List.find?_eq_none.2 fun series hseries hid =>
      h (List.mem_map.2 ⟨series, hseries, of_decide_eq_true hid⟩)
  rw [samplesOf, hnone]

/-- Samples can be counted server by server. -/
theorem IsTidy.sampleCount_eq (h : store.IsTidy) {ids : List String} (hids : ids.Nodup)
    (hcover : ∀ series ∈ store.series, series.serverId ∈ ids) :
    store.sampleCount = (ids.map fun id => (store.samplesOf id).length).sum := by
  have hnodup : (store.series.map Series.serverId).Nodup :=
    List.pairwise_map.2 (h.ascending.imp fun hlt => hlt.ne)
  have hsub : (store.series.map Series.serverId).toFinset ⊆ ids.toFinset := by
    intro id hid
    obtain ⟨series, hseries, rfl⟩ := List.mem_map.1 (List.mem_toFinset.1 hid)
    exact List.mem_toFinset.2 (hcover series hseries)
  have hown : store.series.map (fun series => series.samples.length) =
      (store.series.map Series.serverId).map fun id => (store.samplesOf id).length := by
    rw [List.map_map]
    refine List.map_congr_left fun series hseries => ?_
    rw [Function.comp_apply, samplesOf, h.ascending.get?_eq_some_iff.2 ⟨hseries, rfl⟩]
  rw [← List.sum_toFinset _ hids, ← Finset.sum_subset hsub, List.sum_toFinset _ hnodup, ← hown]
  · rfl
  · intro id _ hid
    rw [samplesOf_eq_nil (mt List.mem_toFinset.2 hid), List.length_nil]

/-- **Cleaning counts** the samples that are too old, of all servers. -/
theorem IsTidy.cleanupSamples_fst (h : store.IsTidy) {ids : List String} (hids : ids.Nodup)
    (hcover : ∀ series ∈ store.series, series.serverId ∈ ids) (before : Instant) :
    (store.cleanupSamples before).1 = (ids.map fun id =>
      ((store.samplesOf id).filter fun s => s.timestamp < before).length).sum := by
  have hkept := h.cleanupSamples before
  have hcover' : ∀ series ∈ (store.cleanupSamples before).2.series, series.serverId ∈ ids := by
    intro series hseries
    obtain ⟨full, hfull, rfl⟩ := List.mem_map.1 hseries
    exact hcover full hfull
  have hsplit : (ids.map fun id => (store.samplesOf id).length).sum =
      (ids.map fun id => ((store.samplesOf id).filter fun s => s.timestamp < before).length).sum +
        (ids.map fun id => ((store.cleanupSamples before).2.samplesOf id).length).sum := by
    rw [← List.sum_map_add]
    refine congrArg List.sum (List.map_congr_left fun id _ => ?_)
    rw [MemoryStore.cleanupSamples, samplesOf_map_filter,
      List.length_eq_length_filter_add fun s : Sample => s.timestamp < before]
    simp only [← not_lt, decide_not]
  show store.sampleCount - (store.cleanupSamples before).2.sampleCount = _
  rw [h.sampleCount_eq hids hcover, hkept.sampleCount_eq hids hcover', hsplit,
    Nat.add_sub_cancel]

theorem exists_of_mem_series {series : Series}
    (h : series ∈ (empty.insertAll inserted).series) :
    ∃ s ∈ inserted, s.serverId = series.serverId := by
  induction inserted using List.reverseRecOn with
  | nil => cases h
  | append_singleton inserted s ih =>
    rw [insertAll_concat] at h
    rcases Ordered.mem_put h with rfl | h
    · exact ⟨s, by simp, rfl⟩
    · obtain ⟨u, hu, hid⟩ := ih h
      exact ⟨u, List.mem_append_left _ hu, hid⟩

/-- A query with a limit as large as that of the series finds all samples of a server. -/
theorem latestSamples_insertAll (inserted : List Sample) (id : String) :
    (empty.insertAll inserted).latestSamples id seriesLimit =
      (empty.insertAll inserted).samplesOf id := by
  rw [latestSamples, samplesOf_insertAll, lastItems_lastItems, Nat.min_self]

/-- **Bounded series.**  Samples of any servers are inserted, in any order, several of one time among
them.  A query finds the samples of the newest times of a server, oldest first, each as it was
inserted last; samples of different servers or times can be inserted in any order; and cleaning
counts the samples that are too old, of all servers, and leaves the others. -/
theorem insertAll_newest (inserted : List Sample) :
    let store := empty.insertAll inserted
    (∀ (id : String) (n : Nat),
        AreNewest inserted id (min n seriesLimit) (store.latestSamples id n)) ∧
      (∀ more : List Sample, inserted.Perm more → inserted.Pairwise Sample.Apart →
        empty.insertAll more = store) ∧
      ∀ before : Instant,
        let cleaned := store.cleanupSamples before
        (∀ ids : List String, ids.Nodup → (∀ s ∈ inserted, s.serverId ∈ ids) →
          cleaned.1 = (ids.map fun id => ((store.latestSamples id seriesLimit).filter fun s =>
            s.timestamp < before).length).sum) ∧
        ∀ (id : String) (n : Nat), cleaned.2.latestSamples id n =
          lastItems n ((store.latestSamples id seriesLimit).filter fun s =>
            before ≤ s.timestamp) := by
  have htidy : (empty.insertAll inserted).IsTidy := isTidy_empty.insertAll inserted
  refine ⟨areNewest_latestSamples inserted, fun more hperm hapart => ?_, fun before => ⟨?_, ?_⟩⟩
  · exact (isTidy_empty.insertAll_perm hperm hapart).symm
  · intro ids hids hcover
    simp only [latestSamples_insertAll]
    refine htidy.cleanupSamples_fst hids (fun series hseries => ?_) before
    obtain ⟨s, hs, hid⟩ := exists_of_mem_series hseries
    exact hid ▸ hcover s hs
  · intro id n
    rw [latestSamples_insertAll, latestSamples, cleanupSamples, samplesOf_map_filter]

/-- Samples of two servers, the oldest of which comes last. -/
private def lateSamples : List Sample :=
  [⟨"a", .ofMillis 1741942860000, some 12.5, none, none⟩,
    ⟨"b", .ofMillis 1741942800000, none, some 40.0, none⟩,
    ⟨"a", .ofMillis 1741942800000, some 3.0, none, none⟩]

/-- The late sample could as well have come first; two samples are older than the newest. -/
theorem insertAll_newest_late :
    lateSamples.Perm lateSamples.reverse ∧ lateSamples.Pairwise Sample.Apart ∧
      empty.insertAll lateSamples.reverse = empty.insertAll lateSamples ∧
      ((empty.insertAll lateSamples).latestSamples "a" 1).map Sample.timestamp =
        [.ofMillis 1741942860000] ∧
      ((empty.insertAll lateSamples).cleanupSamples (.ofMillis 1741942860000)).1 = 2 := by
  have hperm : lateSamples.Perm lateSamples.reverse := (List.reverse_perm _).symm
  have hapart : lateSamples.Pairwise Sample.Apart := by
    unfold Sample.Apart
    decide
  obtain ⟨-, hsame, hclean⟩ := insertAll_newest lateSamples
  have hcount := (hclean (.ofMillis 1741942860000)).1 ["a", "b"] (by decide) (by decide)
  refine ⟨hperm, hapart, hsame _ hperm hapart, rfl, hcount.trans ?_⟩
  rfl

end MemoryStore

end Pulse
