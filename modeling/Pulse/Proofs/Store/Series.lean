import Pulse.Proofs.Store.Calls

/-!
# Series of samples

A series holds the newest samples of a server.  Which samples it gives up does not depend on when it
gives them up: samples beyond the limit can be dropped before others are added or after that
(`lastItems_put_lastItems`).  So samples of different keys can be inserted in either order, and a
sample that was inserted before changes nothing, whether it is still there or has been given up.

* `IsTidy`, `isTidy_after` — the order that a store keeps its series in, after any call.
* `insertSample_insertSample_self` — inserting a sample twice is inserting it once.
* `insertSample_comm` — samples of different keys can be inserted in either order.
-/

set_option autoImplicit false

namespace Pulse

open Ordered (Ascending)
open Time (Instant)

/-! ## The last items -/

namespace MemoryStore

section

variable {α κ : Type} [LinearOrder κ] {key : α → κ} {n : Nat}

theorem lastItems_of_length_le {items : List α} (h : items.length ≤ n) :
    lastItems n items = items := by
  rw [lastItems, Nat.sub_eq_zero_of_le h, List.drop_zero]

theorem ascending_lastItems {items : List α} (n : Nat) (h : Ascending key items) :
    Ascending key (lastItems n items) :=
  h.sublist (List.drop_sublist ..)

/-- What stands before enough other items is not among the last. -/
theorem lastItems_append_of_le (front : List α) {rest : List α} (h : n ≤ rest.length) :
    lastItems n (front ++ rest) = lastItems n rest := by
  have hlength : front.length + rest.length - n = front.length + (rest.length - n) := by omega
  rw [lastItems, List.length_append, hlength, List.drop_append, lastItems]
  simp

/-- **It does not matter when items are given up**: before another one is put in its place, or
after that. -/
theorem lastItems_put_lastItems {items : List α} (h : Ascending key items) (a : α) :
    lastItems n (Ordered.put key a (lastItems n items)) =
      lastItems n (Ordered.put key a items) := by
  rcases Nat.lt_or_ge n items.length with hlong | hshort
  · -- The items split into those that are given up and the last `n`.
    obtain ⟨front, rest, rfl, hrest⟩ : ∃ front rest, items = front ++ rest ∧ rest.length = n :=
      ⟨items.take (items.length - n), items.drop (items.length - n),
        (List.take_append_drop ..).symm, by rw [List.length_drop]; omega⟩
    have hlast : lastItems n rest = rest := lastItems_of_length_le hrest.le
    rw [lastItems_append_of_le front hrest.ge, hlast]
    by_cases hfront : ∀ b ∈ front, key b < key a
    · rw [Ordered.put_append_of_lt hfront, lastItems_append_of_le front]
      exact hrest.ge.trans (Ordered.length_le_length_put a rest)
    · -- The new item goes among those that are given up.
      push Not at hfront
      obtain ⟨b, hb, hle⟩ := hfront
      have hafter : ∀ c ∈ rest, key a < key c := fun c hc =>
        hle.trans_lt ((List.pairwise_append.1 h).2.2 b hb c hc)
      have hcons : a :: rest = [a] ++ rest := rfl
      rw [Ordered.put_append_of_le ⟨b, hb, hle⟩, Ordered.put_eq_cons hafter, hcons,
        lastItems_append_of_le _ hrest.ge, lastItems_append_of_le _ hrest.ge]
  · rw [lastItems_of_length_le hshort]

end

/-! ## Series in order -/

/-- One series for each server, in the order of their identifiers, and in each one sample for each
time, oldest first. -/
structure IsTidy (store : MemoryStore) : Prop where
  ascending : Ascending Series.serverId store.series
  timely : ∀ series ∈ store.series, Ascending Sample.timestamp series.samples

theorem isTidy_empty : empty.IsTidy where
  ascending := List.Pairwise.nil
  timely := by simp [empty]

variable {store : MemoryStore}

theorem IsTidy.timely_samplesOf (h : store.IsTidy) (id : String) :
    Ascending Sample.timestamp (store.samplesOf id) := by
  rw [samplesOf]
  cases hget : Ordered.get? Series.serverId id store.series with
  | none => exact List.Pairwise.nil
  | some series => exact h.timely series (Ordered.mem_of_get? hget)

theorem IsTidy.insertSample (h : store.IsTidy) (s : Sample) : (store.insertSample s).IsTidy where
  ascending := h.ascending.put _
  timely series hseries := by
    rcases Ordered.mem_put hseries with rfl | hseries
    · dsimp only
      exact ascending_lastItems seriesLimit ((h.timely_samplesOf s.serverId).put s)
    · exact h.timely series hseries

theorem IsTidy.cleanupSamples (h : store.IsTidy) (before : Instant) :
    (store.cleanupSamples before).2.IsTidy where
  ascending := List.pairwise_map.2 h.ascending
  timely series hseries := by
    obtain ⟨full, hfull, rfl⟩ := List.mem_map.1 hseries
    exact (h.timely full hfull).sublist List.filter_sublist

theorem samplesOf_map_filter (store : MemoryStore) (p : Sample → Bool) (id : String) :
    ({ store with series := store.series.map fun series =>
        { series with samples := series.samples.filter p } } : MemoryStore).samplesOf id =
      (store.samplesOf id).filter p := by
  have hget : Ordered.get? Series.serverId id (store.series.map fun series =>
      { series with samples := series.samples.filter p }) =
      (Ordered.get? Series.serverId id store.series).map fun series =>
        { series with samples := series.samples.filter p } :=
    Ordered.get?_map (fun _ => rfl) id store.series
  rw [samplesOf, samplesOf, hget]
  cases Ordered.get? Series.serverId id store.series with
  | none => rfl
  | some series => rfl

/-- Only two kinds of calls do anything to the samples. -/
theorem series_after (store : MemoryStore) (call : Call) :
    (∃ s, call = ⟨.insertSample s⟩) ∨ (∃ before, call = ⟨.cleanupSamples before⟩) ∨
      (store.after call).series = store.series := by
  obtain @⟨form, request⟩ := call
  cases request with
  | insertSample s => exact .inl ⟨s, rfl⟩
  | cleanupSamples before => exact .inr (.inl ⟨before, rfl⟩)
  | heartbeat id time receivedAt =>
    refine .inr (.inr ?_)
    cases hget : store.get? id with
    | none => rw [after_heartbeat_of_none hget]
    | some record =>
      rw [after_heartbeat hget]
      show (if _ then _ else _ : MemoryStore).series = _
      split_ifs <;> rfl
  | demote id seenBefore now =>
    refine .inr (.inr ?_)
    cases hget : store.get? id with
    | none => rw [after_demote_of_none hget]
    | some record =>
      rw [after_demote hget]
      split_ifs <;> rfl
  | _ => exact .inr (.inr rfl)

/-- **Series stay in order**, whatever is called. -/
theorem IsTidy.after (h : store.IsTidy) (call : Call) : (store.after call).IsTidy := by
  rcases series_after store call with ⟨s, rfl⟩ | ⟨before, rfl⟩ | hseries
  · exact h.insertSample s
  · exact h.cleanupSamples before
  · exact ⟨hseries ▸ h.ascending, hseries ▸ h.timely⟩

theorem IsTidy.afterAll (h : store.IsTidy) (calls : List Call) :
    (store.afterAll calls).IsTidy := by
  induction calls generalizing store with
  | nil => exact h
  | cons call calls ih => exact ih (h.after call)

/-! ## Inserting twice -/

theorem samplesOf_putSeries (store : MemoryStore) (series : Series) (id : String) :
    ({ store with series := Ordered.put Series.serverId series store.series } :
      MemoryStore).samplesOf id =
      if series.serverId = id then series.samples else store.samplesOf id := by
  simp only [samplesOf, Ordered.get?_put]
  split_ifs <;> rfl

theorem samplesOf_insertSample (store : MemoryStore) (s : Sample) (id : String) :
    (store.insertSample s).samplesOf id =
      if s.serverId = id then
        lastItems seriesLimit (Ordered.put Sample.timestamp s (store.samplesOf s.serverId))
      else store.samplesOf id := by
  rw [insertSample, samplesOf_putSeries]

theorem samplesOf_congr {other : MemoryStore} (h : store.series = other.series) (id : String) :
    store.samplesOf id = other.samplesOf id := by
  rw [samplesOf, samplesOf, h]

/-- What inserting a sample does depends on the series alone. -/
theorem series_insertSample {other : MemoryStore} (h : store.series = other.series) (s : Sample) :
    (store.insertSample s).series = (other.insertSample s).series := by
  simp only [insertSample, samplesOf, h]

theorem insertSample_eq_self {s : Sample} (h : (store.insertSample s).series = store.series) :
    store.insertSample s = store :=
  congrArg (fun series => { store with series }) h

/-- Two samples of one server, one after the other. -/
theorem insertSample_insertSample (h : store.IsTidy) {s u : Sample}
    (hid : s.serverId = u.serverId) :
    ((store.insertSample s).insertSample u).series =
      Ordered.put Series.serverId
        ⟨u.serverId, lastItems seriesLimit (Ordered.put Sample.timestamp u
          (Ordered.put Sample.timestamp s (store.samplesOf u.serverId)))⟩ store.series := by
  have hsamples : (store.insertSample s).samplesOf u.serverId =
      lastItems seriesLimit (Ordered.put Sample.timestamp s (store.samplesOf u.serverId)) := by
    rw [samplesOf_insertSample, if_pos hid, hid]
  rw [insertSample, hsamples,
    lastItems_put_lastItems ((h.timely_samplesOf u.serverId).put s) u]
  exact h.ascending.put_put_of_eq hid

/-- **Inserting a sample twice is inserting it once.** -/
theorem insertSample_insertSample_self (h : store.IsTidy) (s : Sample) :
    (store.insertSample s).insertSample s = store.insertSample s := by
  refine insertSample_eq_self ?_
  rw [insertSample_insertSample h rfl, (h.timely_samplesOf s.serverId).put_put_of_eq rfl]
  rfl

/-- **Samples of different servers or times can be inserted in either order**, also if that makes a
series give some up. -/
theorem insertSample_comm (h : store.IsTidy) {s u : Sample}
    (hne : s.serverId = u.serverId → s.timestamp ≠ u.timestamp) :
    (store.insertSample s).insertSample u = (store.insertSample u).insertSample s := by
  refine congrArg (fun series => { store with series }) ?_
  show ((store.insertSample s).insertSample u).series =
    ((store.insertSample u).insertSample s).series
  by_cases hid : s.serverId = u.serverId
  · rw [insertSample_insertSample h hid, insertSample_insertSample h hid.symm, hid,
      (h.timely_samplesOf u.serverId).put_comm (hne hid).symm]
  · have hu : (store.insertSample s).samplesOf u.serverId = store.samplesOf u.serverId := by
      rw [samplesOf_insertSample, if_neg hid]
    have hs : (store.insertSample u).samplesOf s.serverId = store.samplesOf s.serverId := by
      rw [samplesOf_insertSample, if_neg (Ne.symm hid)]
    simp only [insertSample] at hu hs ⊢
    rw [hu, hs]
    exact h.ascending.put_comm (Ne.symm hid)

end MemoryStore

end Pulse
