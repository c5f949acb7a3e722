import Mathlib.Data.List.Induction
import Mathlib.Data.String.Basic
import Pulse.Proofs.Ordered
import Pulse.Proofs.Time.Order
import Pulse.Store.Memory

/-!
# What cleaning leaves of the log

Cleaning the log up to a cutoff takes two walks: the first notes where the newest change of each
server before the cutoff stands, the second keeps those places and whatever is not before the
cutoff.  This file says what is left without speaking of places.

* `IsNewest` says of a change, by what stands before and after it in the log, that it is the newest
  of its server before the cutoff, and `survivors` keeps exactly those.  The two walks do the same
  (`retained_eq_survivors`).
* If the changes of a server are in the order of time, the last of them before the cutoff and those
  that are not before it are left (`changesOf_retained`), which is an end of what was there
  (`changesOf_retained_suffix`).  Nothing is assumed about the other servers in the log.
-/

set_option autoImplicit false

namespace Pulse.MemoryStore

open Time (Instant)
open Ordered (Ascending Sorted)

/-! ## The newest change before a cutoff -/

/-- `t` is the newest change of its server before the cutoff, where `earlier` stands before it in
the log and `later` after it.  Of changes of one time the later in the log is the newer. -/
def IsNewest (cutoff : Instant) (earlier : List Transition) (t : Transition)
    (later : List Transition) : Prop :=
  (∀ u ∈ earlier, u.serverId = t.serverId → u.time < cutoff → u.time ≤ t.time) ∧
    ∀ u ∈ later, u.serverId = t.serverId → u.time < cutoff → u.time < t.time

instance (cutoff : Instant) (earlier : List Transition) (t : Transition)
    (later : List Transition) : Decidable (IsNewest cutoff earlier t later) :=
  inferInstanceAs (Decidable (_ ∧ _))

/-- The changes that are not before the cutoff or the newest of their server before it; `earlier`
stands before them in the log. -/
def survivors (cutoff : Instant) (earlier : List Transition) : List Transition → List Transition
  | [] => []
  | t :: later =>
    if cutoff ≤ t.time ∨ IsNewest cutoff earlier t later then
      t :: survivors cutoff (earlier ++ [t]) later
    else survivors cutoff (earlier ++ [t]) later

/-! ## The walk that notes places -/

variable {cutoff : Instant}

/-- At `place` in the log stands the newest change of some server before the cutoff. -/
def HoldsNewest (cutoff : Instant) (changes : List Transition) (place : Place) : Prop :=
  ∃ earlier t later, changes = earlier ++ t :: later ∧
    place = ⟨t.serverId, earlier.length, t.time⟩ ∧ t.time < cutoff ∧ IsNewest cutoff earlier t later

theorem HoldsNewest.time_le {changes : List Transition} {place : Place} {u : Transition}
    (h : HoldsNewest cutoff changes place) (hu : u ∈ changes) (hid : u.serverId = place.serverId)
    (hold : u.time < cutoff) : u.time ≤ place.time := by
  obtain ⟨earlier, t, later, rfl, rfl, -, hearlier, hlater⟩ := h
  rcases List.mem_append.1 hu with hu | hu
  · exact hearlier u hu hid hold
  · rcases List.mem_cons.1 hu with rfl | hu
    · exact le_rfl
    · exact (hlater u hu hid hold).le

/-- One more change in the log: either it is the newest of its server itself, or what was the newest
still is. -/
theorem holdsNewest_append_singleton {changes : List Transition} {t : Transition} {place : Place} :
    HoldsNewest cutoff (changes ++ [t]) place ↔
      (place = ⟨t.serverId, changes.length, t.time⟩ ∧ t.time < cutoff ∧
          ∀ u ∈ changes, u.serverId = t.serverId → u.time < cutoff → u.time ≤ t.time) ∨
        (HoldsNewest cutoff changes place ∧
          (t.serverId = place.serverId → t.time < cutoff → t.time < place.time)) := by
  constructor
  · rintro ⟨earlier, u, later, hsplit, rfl, hold, hearlier, hlater⟩
    rcases List.eq_nil_or_concat later with rfl | ⟨later, v, rfl⟩
    · obtain ⟨rfl, hu⟩ := List.append_inj' hsplit rfl
      obtain rfl : t = u := by simpa using hu
      exact .inl ⟨rfl, hold, hearlier⟩
    · rw [List.concat_eq_append] at hsplit hlater
      rw [← List.cons_append, ← List.append_assoc] at hsplit
      obtain ⟨rfl, hv⟩ := List.append_inj' hsplit rfl
      obtain rfl : t = v := by simpa using hv
      refine .inr ⟨⟨earlier, u, later, rfl, rfl, hold, hearlier, fun w hw => ?_⟩, ?_⟩
      · exact hlater w (List.mem_append_left _ hw)
      · exact hlater t (by simp)
  · rintro (⟨rfl, hold, hearlier⟩ | ⟨⟨earlier, u, later, rfl, rfl, hold, hearlier, hlater⟩, ht⟩)
    · exact ⟨changes, t, [], rfl, rfl, hold, hearlier, by simp⟩
    · refine ⟨earlier, u, later ++ [t], by simp, rfl, hold, hearlier, fun w hw => ?_⟩
      rcases List.mem_append.1 hw with hw | hw
      · exact hlater w hw
      · obtain rfl : w = t := by simpa using hw
        exact ht

/-- The places noted on a walk through the log. -/
structure Noted (cutoff : Instant) (changes : List Transition) (places : List Place) : Prop where
  ascending : Ascending Place.serverId places
  mem_iff : ∀ place, place ∈ places ↔ HoldsNewest cutoff changes place
  /-- No server with a change before the cutoff is left out. -/
  covers : ∀ u ∈ changes, u.time < cutoff → ∃ place ∈ places, place.serverId = u.serverId

theorem Noted.put {changes : List Transition} {places : List Place} {t : Transition}
    (h : Noted cutoff changes places) (hold : t.time < cutoff)
    (hnewest : ∀ place ∈ places, place.serverId = t.serverId → place.time ≤ t.time) :
    Noted cutoff (changes ++ [t])
      (Ordered.put Place.serverId ⟨t.serverId, changes.length, t.time⟩ places) where
  ascending := h.ascending.put _
  mem_iff place := by
    have hle : ∀ u ∈ changes, u.serverId = t.serverId → u.time < cutoff → u.time ≤ t.time := by
      intro u hu hid hu'
      obtain ⟨place, hplace, hid'⟩ := h.covers u hu hu'
      exact (((h.mem_iff place).1 hplace).time_le hu hid'.symm hu').trans
        (hnewest place hplace (hid'.trans hid))
    rw [holdsNewest_append_singleton, h.ascending.mem_put_iff, ← h.mem_iff]
    refine or_congr ⟨fun hp => ⟨hp, hold, hle⟩, And.left⟩ (and_congr_right fun hplace => ?_)
    constructor
    · exact fun hne hid => absurd hid.symm hne
    · intro hlt hid
      exact absurd (hlt hid.symm hold) (not_lt.2 (hnewest place hplace hid))
  covers u hu hu' := by
    rcases List.mem_append.1 hu with hu | hu
    · obtain ⟨place, hplace, hid⟩ := h.covers u hu hu'
      by_cases hne : place.serverId = t.serverId
      · exact ⟨_, h.ascending.mem_put_iff.2 (.inl rfl), hne.symm.trans hid⟩
      · exact ⟨place, h.ascending.mem_put_iff.2 (.inr ⟨hplace, hne⟩), hid⟩
    · obtain rfl : u = t := by simpa using hu
      exact ⟨_, h.ascending.mem_put_iff.2 (.inl rfl), rfl⟩

theorem Noted.skip {changes : List Transition} {places : List Place} {t : Transition}
    (h : Noted cutoff changes places)
    (hcovered : t.time < cutoff →
      ∃ place ∈ places, place.serverId = t.serverId ∧ t.time < place.time) :
    Noted cutoff (changes ++ [t]) places where
  ascending := h.ascending
  mem_iff place := by
    rw [holdsNewest_append_singleton, ← h.mem_iff]
    constructor
    · refine fun hplace => .inr ⟨hplace, fun hid hold => ?_⟩
      obtain ⟨kept, hkept, hid', hlt⟩ := hcovered hold
      have hget := h.ascending.get?_eq_some_iff.2 ⟨hkept, hid'⟩
      rw [h.ascending.get?_eq_some_iff.2 ⟨hplace, hid.symm⟩, Option.some_inj] at hget
      exact hget ▸ hlt
    · rintro (⟨rfl, hold, hle⟩ | ⟨hplace, -⟩)
      · obtain ⟨kept, hkept, hid, hlt⟩ := hcovered hold
        obtain ⟨earlier, u, later, rfl, rfl, hold', -⟩ := (h.mem_iff kept).1 hkept
        exact absurd hlt (not_lt.2 (hle u (by simp) hid hold'))
      · exact hplace
  covers u hu hu' := by
    rcases List.mem_append.1 hu with hu | hu
    · exact h.covers u hu hu'
    · obtain rfl : u = t := by simpa using hu
      obtain ⟨kept, hkept, hid, -⟩ := hcovered hu'
      exact ⟨kept, hkept, hid⟩

theorem Noted.notePlace {changes : List Transition} {places : List Place}
    (h : Noted cutoff changes places) (t : Transition) :
    Noted cutoff (changes ++ [t]) (notePlace cutoff places (t, changes.length)) := by
  rw [MemoryStore.notePlace]
  split
  · next hnew => exact h.skip fun hold => absurd hnew (not_le.2 hold)
  · next hold =>
    have hold := not_le.1 hold
    split
    · next kept hkept =>
      obtain ⟨hmem, hid⟩ := h.ascending.get?_eq_some_iff.1 hkept
      split
      · next hle =>
        refine h.put hold fun place hplace hid' => ?_
        rw [h.ascending.get?_eq_some_iff.2 ⟨hplace, hid'⟩, Option.some_inj] at hkept
        exact hkept ▸ hle
      · next hlt => exact h.skip fun _ => ⟨kept, hmem, hid, not_le.1 hlt⟩
    · next hnone =>
      refine h.put hold fun place hplace hid => ?_
      rw [h.ascending.get?_eq_some_iff.2 ⟨hplace, hid⟩] at hnone
      cases hnone

theorem noted_newestPlaces (cutoff : Instant) (changes : List Transition) :
    Noted cutoff changes (newestPlaces cutoff changes) := by
  induction changes using List.reverseRecOn with
  | nil =>
    refine ⟨List.Pairwise.nil, fun place => ⟨fun h => (by cases h), ?_⟩, by simp⟩
    rintro ⟨earlier, t, later, h, -⟩
    simp at h
  | append_singleton changes t ih =>
    have h := ih.notePlace t
    rwa [newestPlaces, List.zipIdx_append, List.foldl_append, List.zipIdx_singleton,
      List.foldl_cons, List.foldl_nil, Nat.zero_add]

/-! ## The walk that keeps -/

theorem any_newestPlaces_iff {earlier later : List Transition} {t : Transition}
    (hold : t.time < cutoff) :
    ((newestPlaces cutoff (earlier ++ t :: later)).any fun place => place.index = earlier.length)
      = true ↔ IsNewest cutoff earlier t later := by
  simp only [List.any_eq_true, decide_eq_true_eq, (noted_newestPlaces cutoff _).mem_iff]
  constructor
  · rintro ⟨-, ⟨earlier', u, later', hsplit, rfl, -, hnewest⟩, hlength⟩
    obtain ⟨rfl, hrest⟩ := List.append_inj hsplit hlength.symm
    obtain ⟨rfl, rfl⟩ := List.cons.inj hrest
    exact hnewest
  · exact fun h => ⟨_, ⟨earlier, t, later, rfl, rfl, hold, h⟩, rfl⟩

/-- The walk that keeps, from somewhere in the log on. -/
theorem filter_zipIdx_eq_survivors (cutoff : Instant) {changes : List Transition}
    (earlier later : List Transition) (h : changes = earlier ++ later) :
    ((later.zipIdx earlier.length).filter fun (t, index) =>
      cutoff ≤ t.time ||
        (newestPlaces cutoff changes).any fun place => place.index = index).map (·.1) =
      survivors cutoff earlier later := by
  induction later generalizing earlier with
  | nil => rfl
  | cons t later ih =>
    subst h
    have ih := ih (earlier ++ [t]) (by simp)
    rw [List.length_append, List.length_singleton] at ih
    have hkeep : (cutoff ≤ t.time || (newestPlaces cutoff (earlier ++ t :: later)).any
        fun place => place.index = earlier.length) = true
        ↔ cutoff ≤ t.time ∨ IsNewest cutoff earlier t later := by
      rw [Bool.or_eq_true, decide_eq_true_eq]
      rcases le_or_gt cutoff t.time with hnew | hold
      · simp only [hnew, true_or]
      · rw [any_newestPlaces_iff hold]
    rw [List.zipIdx_cons, List.filter_cons, survivors]
    simp only [hkeep]
    split_ifs
    · rw [List.map_cons, ih]
    · rw [ih]

/-- **The two walks leave the changes that are not before the cutoff and the newest of each server
before it.** -/
theorem retained_eq_survivors (cutoff : Instant) (changes : List Transition) :
    retained cutoff changes = survivors cutoff [] changes :=
  filter_zipIdx_eq_survivors cutoff [] changes rfl

/-! ## One server at a time -/

/-- The changes of a server, in the order of the log. -/
def changesOf (id : String) (changes : List Transition) : List Transition :=
  changes.filter fun t => t.serverId = id

theorem mem_changesOf {id : String} {t : Transition} {changes : List Transition} :
    t ∈ changesOf id changes ↔ t ∈ changes ∧ t.serverId = id := by
  simp [changesOf]

theorem changesOf_append (id : String) (changes more : List Transition) :
    changesOf id (changes ++ more) = changesOf id changes ++ changesOf id more :=
  List.filter_append ..

theorem changesOf_cons_self (t : Transition) (changes : List Transition) :
    changesOf t.serverId (t :: changes) = t :: changesOf t.serverId changes := by
  simp [changesOf]

theorem changesOf_cons_of_ne {id : String} {t : Transition} (h : t.serverId ≠ id)
    (changes : List Transition) : changesOf id (t :: changes) = changesOf id changes := by
  simp [changesOf, h]

/-- The part of the changes that is before the cutoff. -/
def beforeCutoff (cutoff : Instant) (changes : List Transition) : List Transition :=
  changes.filter fun t => t.time < cutoff

/-- The part of the changes that is not before the cutoff. -/
def fromCutoff (cutoff : Instant) (changes : List Transition) : List Transition :=
  changes.filter fun t => cutoff ≤ t.time

theorem beforeCutoff_cons_of_lt {t : Transition} (h : t.time < cutoff)
    (changes : List Transition) :
    beforeCutoff cutoff (t :: changes) = t :: beforeCutoff cutoff changes := by
  simp [beforeCutoff, h]

theorem beforeCutoff_cons_of_le {t : Transition} (h : cutoff ≤ t.time)
    (changes : List Transition) :
    beforeCutoff cutoff (t :: changes) = beforeCutoff cutoff changes := by
  simp [beforeCutoff, h]

theorem fromCutoff_cons_of_lt {t : Transition} (h : t.time < cutoff) (changes : List Transition) :
    fromCutoff cutoff (t :: changes) = fromCutoff cutoff changes := by
  simp [fromCutoff, h]

theorem fromCutoff_cons_of_le {t : Transition} (h : cutoff ≤ t.time) (changes : List Transition) :
    fromCutoff cutoff (t :: changes) = t :: fromCutoff cutoff changes := by
  simp [fromCutoff, h]

theorem beforeCutoff_eq_nil_iff {changes : List Transition} :
    beforeCutoff cutoff changes = [] ↔ ∀ t ∈ changes, cutoff ≤ t.time := by
  simp [beforeCutoff]

theorem beforeCutoff_eq_self_iff {changes : List Transition} :
    beforeCutoff cutoff changes = changes ↔ ∀ t ∈ changes, t.time < cutoff := by
  simp [beforeCutoff]

theorem fromCutoff_eq_nil_iff {changes : List Transition} :
    fromCutoff cutoff changes = [] ↔ ∀ t ∈ changes, t.time < cutoff := by
  simp [fromCutoff]

theorem beforeCutoff_append (cutoff : Instant) (changes more : List Transition) :
    beforeCutoff cutoff (changes ++ more) =
      beforeCutoff cutoff changes ++ beforeCutoff cutoff more :=
  List.filter_append ..

theorem fromCutoff_append (cutoff : Instant) (changes more : List Transition) :
    fromCutoff cutoff (changes ++ more) = fromCutoff cutoff changes ++ fromCutoff cutoff more :=
  List.filter_append ..

/-- Changes in order are those before the cutoff and then the others. -/
theorem beforeCutoff_append_fromCutoff (cutoff : Instant) {changes : List Transition}
    (h : Sorted Transition.time changes) :
    beforeCutoff cutoff changes ++ fromCutoff cutoff changes = changes := by
  induction changes with
  | nil => rfl
  | cons t rest ih =>
    obtain ⟨ht, hrest⟩ := List.pairwise_cons.1 h
    have ih := ih hrest
    rcases lt_or_ge t.time cutoff with hold | hnew
    · rw [beforeCutoff_cons_of_lt hold, fromCutoff_cons_of_lt hold, List.cons_append, ih]
    · have hnone : beforeCutoff cutoff rest = [] :=
        beforeCutoff_eq_nil_iff.2 fun u hu => hnew.trans (ht u hu)
      rw [hnone, List.nil_append] at ih
      rw [beforeCutoff_cons_of_le hnew, fromCutoff_cons_of_le hnew, hnone, ih, List.nil_append]

/-- If the changes of a server are in order, the newest before the cutoff is the one that no other
before the cutoff follows. -/
theorem isNewest_iff_of_sorted (cutoff : Instant) {earlier later : List Transition}
    {t : Transition}
    (h : Sorted Transition.time (changesOf t.serverId (earlier ++ t :: later))) :
    IsNewest cutoff earlier t later ↔ beforeCutoff cutoff (changesOf t.serverId later) = [] := by
  rw [changesOf_append, changesOf_cons_self] at h
  obtain ⟨-, hlater, hcross⟩ := List.pairwise_append.1 h
  obtain ⟨hafter, -⟩ := List.pairwise_cons.1 hlater
  rw [beforeCutoff_eq_nil_iff]
  constructor
  · rintro ⟨-, hnewest⟩ u hu
    refine not_lt.1 fun hold => ?_
    obtain ⟨hmem, hid⟩ := mem_changesOf.1 hu
    exact absurd (hnewest u hmem hid hold) (not_lt.2 (hafter u hu))
  · refine fun hnew => ⟨fun u hu hid _ => ?_, fun u hu hid hold => ?_⟩
    · exact hcross u (mem_changesOf.2 ⟨hu, hid⟩) t List.mem_cons_self
    · exact absurd hold (not_lt.2 (hnew u (mem_changesOf.2 ⟨hu, hid⟩)))

theorem changesOf_survivors (earlier : List Transition) {id : String} {changes : List Transition}
    (h : Sorted Transition.time (changesOf id (earlier ++ changes))) :
    changesOf id (survivors cutoff earlier changes) =
      (beforeCutoff cutoff (changesOf id changes)).getLast?.toList
        ++ fromCutoff cutoff (changesOf id changes) := by
  induction changes generalizing earlier with
  | nil => rfl
  | cons t later ih =>
    have ih := ih (earlier ++ [t]) (by simpa using h)
    by_cases hid : t.serverId = id
    · subst hid
      have hnewest := isNewest_iff_of_sorted cutoff h
      rw [survivors, changesOf_cons_self]
      rcases le_or_gt cutoff t.time with hnew | hold
      · have hnone : beforeCutoff cutoff (changesOf t.serverId later) = [] := by
          rw [changesOf_append, changesOf_cons_self] at h
          have hlater := (List.pairwise_append.1 h).2.1
          exact beforeCutoff_eq_nil_iff.2 fun u hu =>
            hnew.trans ((List.pairwise_cons.1 hlater).1 u hu)
        rw [if_pos (.inl hnew), changesOf_cons_self, ih, beforeCutoff_cons_of_le hnew,
          fromCutoff_cons_of_le hnew, hnone]
        rfl
      · rw [beforeCutoff_cons_of_lt hold, fromCutoff_cons_of_lt hold]
        by_cases hnone : beforeCutoff cutoff (changesOf t.serverId later) = []
        · rw [if_pos (.inr (hnewest.2 hnone)), changesOf_cons_self, ih, hnone]
          rfl
        · rw [if_neg (by simp [hold, hnewest, hnone]), ih, List.getLast?_cons_of_ne_nil hnone]
    · rw [changesOf_cons_of_ne hid, ← ih, survivors]
      split_ifs
      · exact changesOf_cons_of_ne hid _
      · rfl

/-- **What cleaning leaves of the changes of one server**, if these are in order: the last before
the cutoff and all that are not before it. -/
theorem changesOf_retained {id : String} {changes : List Transition}
    (h : Sorted Transition.time (changesOf id changes)) :
    changesOf id (retained cutoff changes) =
      (beforeCutoff cutoff (changesOf id changes)).getLast?.toList
        ++ fromCutoff cutoff (changesOf id changes) := by
  rw [retained_eq_survivors]
  exact changesOf_survivors [] h

/-- Cleaning takes changes away from the beginning only, and never all. -/
theorem changesOf_retained_suffix (cutoff : Instant) {id : String} {changes : List Transition}
    (h : Sorted Transition.time (changesOf id changes)) :
    changesOf id (retained cutoff changes) <:+ changesOf id changes ∧
      (changesOf id (retained cutoff changes) = [] ↔ changesOf id changes = []) := by
  have hsplit := beforeCutoff_append_fromCutoff cutoff h
  rw [changesOf_retained h]
  rcases List.eq_nil_or_concat (beforeCutoff cutoff (changesOf id changes))
    with hnone | ⟨old, t, hold⟩
  · rw [hnone] at hsplit ⊢
    simp only [List.getLast?_nil, Option.toList_none]
    rw [hsplit]
    exact ⟨List.suffix_rfl, Iff.rfl⟩
  · rw [List.concat_eq_append] at hold
    rw [hold, List.append_assoc] at hsplit
    rw [hold, List.getLast?_concat, Option.toList_some]
    refine ⟨⟨old, hsplit⟩, ?_⟩
    rw [← hsplit]
    simp

end Pulse.MemoryStore
