import Pulse.Proofs.Store.Mirror.Relation

/-!
# The log in both stores

The log of a database and the log in memory are cleaned and searched in different ways: the database
keeps the row of each server that was inserted last, and sorts what it finds.  As long as the
changes of every server are in the order of time, the one inserted last is the newest, and both
stores keep and find the same.
-/

set_option autoImplicit false

namespace Pulse.Mirrors

open MemoryStore (beforeCutoff changesOf survivors)
open Ordered (Sorted)
open Time (Instant)

/-! ## Cleaning -/

theorem transition_time_lt_iff {row : TransitionRow} {ms : Int} (hrow : Instant.IsWhole row.time)
    (hms : Instant.IsWhole ms) : row.transition.time < Instant.ofMillis ms ↔ row.time < ms :=
  Instant.ofMillis_lt_ofMillis_iff hrow hms

theorem le_transition_time_iff {row : TransitionRow} {ms : Int} (hrow : Instant.IsWhole row.time)
    (hms : Instant.IsWhole ms) : Instant.ofMillis ms ≤ row.transition.time ↔ ms ≤ row.time :=
  Instant.ofMillis_le_ofMillis_iff hms hrow

/-- No later row of the server of `row` is before the cutoff. -/
theorem not_overtaken_iff {cutoff : Int} (hcutoff : Instant.IsWhole cutoff) (row : TransitionRow)
    {rest : List TransitionRow} (hwhole : ∀ other ∈ rest, Instant.IsWhole other.time) :
    (!rest.any fun other => other.serverId = row.serverId && other.time < cutoff) = true ↔
      beforeCutoff (Instant.ofMillis cutoff)
        (changesOf row.serverId (rest.map TransitionRow.transition)) = [] := by
  rw [MemoryStore.beforeCutoff_eq_nil_iff, Bool.not_eq_true', List.any_eq_false]
  constructor
  · intro hnone t ht
    obtain ⟨hmem, hid⟩ := MemoryStore.mem_changesOf.1 ht
    obtain ⟨other, hother, rfl⟩ := List.mem_map.1 hmem
    rw [le_transition_time_iff (hwhole other hother) hcutoff]
    have hid : other.serverId = row.serverId := hid
    simpa [hid] using hnone other hother
  · intro hall other hother
    rw [Bool.and_eq_true, not_and]
    intro hid
    have hmem : other.transition ∈ changesOf row.serverId (rest.map TransitionRow.transition) :=
      MemoryStore.mem_changesOf.2 ⟨List.mem_map_of_mem hother, of_decide_eq_true hid⟩
    have hle := (le_transition_time_iff (hwhole other hother) hcutoff).1 (hall _ hmem)
    simpa using hle

/-- Keeping the row that was inserted last is keeping the newest change. -/
theorem survivors_map {cutoff : Int} (hcutoff : Instant.IsWhole cutoff)
    (earlier : List Transition) {rows : List TransitionRow}
    (hwhole : ∀ row ∈ rows, Instant.IsWhole row.time)
    (hsorted : ∀ id, Sorted Transition.time
      (changesOf id (earlier ++ rows.map TransitionRow.transition))) :
    survivors (Instant.ofMillis cutoff) earlier (rows.map TransitionRow.transition) =
      (DurableStore.retained cutoff rows).map TransitionRow.transition := by
  induction rows generalizing earlier with
  | nil => rfl
  | cons row rest ih =>
    obtain ⟨hrow, hrest⟩ := List.forall_mem_cons.1 hwhole
    rw [List.map_cons] at hsorted ⊢
    have ih := ih (earlier ++ [row.transition]) hrest (by simpa using hsorted)
    have hkeep : (Instant.ofMillis cutoff ≤ row.transition.time ∨
        MemoryStore.IsNewest (Instant.ofMillis cutoff) earlier row.transition
          (rest.map TransitionRow.transition)) ↔
        (cutoff ≤ row.time || !rest.any fun other =>
          other.serverId = row.serverId && other.time < cutoff) = true := by
      rw [Bool.or_eq_true, decide_eq_true_iff, not_overtaken_iff hcutoff row hrest,
        le_transition_time_iff hrow hcutoff]
      exact or_congr_right (MemoryStore.isNewest_iff_of_sorted _ (hsorted _))
    rw [survivors, DurableStore.retained]
    by_cases hkept : (cutoff ≤ row.time || !rest.any fun other =>
        other.serverId = row.serverId && other.time < cutoff) = true
    · rw [if_pos (hkeep.2 hkept), if_pos hkept, List.map_cons, ih]
    · rw [if_neg (mt hkeep.1 hkept), if_neg hkept, ih]

theorem retained_sublist (cutoff : Int) (rows : List TransitionRow) :
    (DurableStore.retained cutoff rows).Sublist rows := by
  induction rows with
  | nil => exact List.Sublist.slnil
  | cons row rest ih =>
    rw [DurableStore.retained]
    split
    · exact ih.cons_cons row
    · exact ih.cons row

variable {times : String → List Instant} {d : DurableStore} {m : MemoryStore}

/-- **Cleaning the log does the same to both stores**, if the changes of every server are in the
order of time. -/
theorem cleanupTransitions (h : Mirrors times d m)
    (hsorted : ∀ id, Sorted Transition.time (m.historyOf id)) {before : Instant}
    (hbefore : before.isLeap = false) :
    Agree times (.ok (d.cleanupTransitions before)) (.ok (m.cleanupTransitions before.floor)) := by
  have hcutoff := Instant.isWhole_toMillis hbefore
  have hkept : MemoryStore.retained before.floor m.transitions =
      (DurableStore.retained before.toMillis d.transitions).map TransitionRow.transition := by
    rw [MemoryStore.retained_eq_survivors, ← Instant.ofMillis_toMillis hbefore, h.changes]
    refine survivors_map hcutoff [] h.wholeChanges fun id => ?_
    have := hsorted id
    rwa [MemoryStore.historyOf, h.changes] at this
  have hcount : (m.cleanupTransitions before.floor).1 = (d.cleanupTransitions before).1 := by
    rw [MemoryStore.cleanupTransitions, DurableStore.cleanupTransitions, hkept, h.changes]
    simp only [List.length_map]
  show Agree times (.ok ((d.cleanupTransitions before).1, _))
    (.ok ((m.cleanupTransitions before.floor).1, _))
  rw [hcount]
  exact .ok
    { opened := h.opened
      records := h.records
      wholeServers := h.wholeServers
      changes := hkept
      wholeChanges := fun row hrow => h.wholeChanges row ((retained_sublist _ _).mem hrow)
      samples := h.samples
      wholeSamples := h.wholeSamples
      ascending := h.ascending
      covered := h.covered
      timely := h.timely }

/-! ## Queries -/

/-- Both stores find the same changes in a stretch of time, in the same order. -/
theorem transitionsBetween (h : Mirrors times d m) {start stop : Instant}
    (hstart : start.isLeap = false) (hstop : stop.isLeap = false) :
    d.transitionsBetween start stop = m.transitionsBetween start.floor stop.floor := by
  have hstart' := Instant.isWhole_toMillis hstart
  have hstop' := Instant.isWhole_toMillis hstop
  have hfound : (m.transitions.filter fun t => start.floor ≤ t.time && t.time < stop.floor) =
      (d.transitions.filter fun row =>
        start.toMillis ≤ row.time && row.time < stop.toMillis).map TransitionRow.transition := by
    rw [h.changes, List.filter_map, ← Instant.ofMillis_toMillis hstart,
      ← Instant.ofMillis_toMillis hstop]
    congr 1
    refine List.filter_congr fun row hrow => ?_
    have hwhole := h.wholeChanges row hrow
    simp only [Function.comp, le_transition_time_iff hwhole hstart',
      transition_time_lt_iff hwhole hstop']
  rw [DurableStore.transitionsBetween, MemoryStore.transitionsBetween, hfound]
  refine Ordered.map_sortBy fun row hrow other hother => ?_
  exact Instant.ofMillis_lt_ofMillis_iff (h.wholeChanges row (List.mem_filter.1 hrow).1)
    (h.wholeChanges other (List.mem_filter.1 hother).1)

/-- Both stores find the same last change before a moment, if the changes of the server are in the
order of time. -/
theorem lastTransition? (h : Mirrors times d m) {id : String}
    (hsorted : Sorted Transition.time (m.historyOf id)) {time : Instant}
    (htime : time.isLeap = false) :
    d.lastTransition? id time = m.lastTransition? id time.floor := by
  have htime' := Instant.isWhole_toMillis htime
  have hfound : beforeCutoff time.floor (m.historyOf id) =
      (d.transitions.filter fun row =>
        row.serverId = id && row.time < time.toMillis).map TransitionRow.transition := by
    rw [beforeCutoff, MemoryStore.historyOf, changesOf, List.filter_filter, h.changes,
      List.filter_map, ← Instant.ofMillis_toMillis htime]
    congr 1
    refine List.filter_congr fun row hrow => ?_
    have hlt := transition_time_lt_iff (h.wholeChanges row hrow) htime'
    simp only [Function.comp, hlt, Bool.and_comm]
    rfl
  have hrows : Sorted TransitionRow.time
      (d.transitions.filter fun row => row.serverId = id && row.time < time.toMillis) := by
    have hchanges : Sorted Transition.time (beforeCutoff time.floor (m.historyOf id)) :=
      hsorted.sublist List.filter_sublist
    rw [hfound] at hchanges
    refine (List.pairwise_map.1 hchanges).imp_of_mem fun {row other} hrow hother hle => ?_
    exact (le_transition_time_iff (h.wholeChanges other (List.mem_filter.1 hother).1)
      (h.wholeChanges row (List.mem_filter.1 hrow).1)).1 hle
  rw [DurableStore.lastTransition?, MemoryStore.lastTransition?_eq_getLast? hsorted, hfound,
    Ordered.sortBy_eq_self hrows, List.getLast?_map]

end Pulse.Mirrors
