import Mathlib.Data.Int.Order.Basic
import Pulse.Time.Instant

/-!
# Moments in order

Moments are linearly ordered by day, second and nanosecond.  `Instant.position` numbers them in
that order, with room in each second for a leap second, so that what depends on the order alone can
be left to integer arithmetic.
-/

set_option autoImplicit false

namespace Pulse.Time.Instant

/-- The number of a moment.  Each second has the nanoseconds of the leap second that may follow. -/
def position (t : Instant) : Int :=
  (t.day * 86400 + t.second) * 2000000000 + t.nano

theorem before_iff_position_lt (s t : Instant) :
    before s t = true ↔ s.position < t.position := by
  have hs := s.nano_lt
  have ht := t.nano_lt
  have hs' := s.second_lt
  have ht' := t.second_lt
  simp only [before, position, Bool.or_eq_true, Bool.and_eq_true, decide_eq_true_eq]
  omega

theorem lt_iff_position_lt {s t : Instant} : s < t ↔ s.position < t.position :=
  before_iff_position_lt s t

theorem le_iff_position_le {s t : Instant} : s ≤ t ↔ s.position ≤ t.position := by
  show before t s = false ↔ _
  rw [← Bool.not_eq_true, before_iff_position_lt, not_lt]

/-- Different moments have different numbers. -/
theorem position_injective {s t : Instant} (h : s.position = t.position) : s = t := by
  have hs := s.nano_lt
  have ht := t.nano_lt
  have hs' := s.second_lt
  have ht' := t.second_lt
  simp only [position] at h
  rw [eq_iff]
  omega

theorem latest_eq_ite (s t : Instant) : max s t = if s ≤ t then t else s := by
  show (if s < t then t else s) = _
  simp only [lt_iff_position_lt, le_iff_position_le]
  split_ifs with h h' h'
  · rfl
  · omega
  · exact position_injective (by omega)
  · rfl

theorem earliest_eq_ite (s t : Instant) : min s t = if s ≤ t then s else t := by
  show (if t < s then t else s) = _
  simp only [lt_iff_position_lt, le_iff_position_le]
  split_ifs with h h' h'
  · omega
  · rfl
  · rfl
  · omega

instance : LinearOrder Instant where
  le_refl t := le_iff_position_le.2 le_rfl
  le_trans r s t := by
    simp only [le_iff_position_le]
    exact le_trans
  lt_iff_le_not_ge s t := by
    simp only [lt_iff_position_lt, le_iff_position_le]
    exact lt_iff_le_not_ge
  le_antisymm s t hs ht :=
    position_injective (le_antisymm (le_iff_position_le.1 hs) (le_iff_position_le.1 ht))
  le_total s t := by
    simp only [le_iff_position_le]
    exact le_total _ _
  toMin := inferInstance
  toMax := inferInstance
  toDecidableLE := inferInstance
  toDecidableLT := inferInstance
  toDecidableEq := inferInstance
  min_def := earliest_eq_ite
  max_def := latest_eq_ite

end Pulse.Time.Instant
