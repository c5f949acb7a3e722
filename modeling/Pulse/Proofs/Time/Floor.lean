import Mathlib.Order.MinMax
import Pulse.Proofs.Time.Order

/-!
# Moments cut to the millisecond

A database keeps a moment as the number of its millisecond, `Instant.toMillis`, and reads it back
with `Instant.ofMillis`.  For a moment that is no leap second this cuts the moment to the
millisecond (`ofMillis_toMillis`), and comparing two numbers is comparing the moments that are read
back (`ofMillis_lt_ofMillis_iff`).

A number that a moment outside leap seconds has is a *whole* number of milliseconds, `IsWhole`; no
other number is ever stored as long as nobody brings a leap second.
-/

set_option autoImplicit false

namespace Pulse.Time.Instant

/-- The moment cut to the millisecond. -/
def floor (t : Instant) : Instant :=
  { t with
    nano := t.nano / 1000000 * 1000000
    nano_lt := by have := t.nano_lt; omega
    leap := by have := t.leap; omega }

@[simp]
theorem isLeap_floor (t : Instant) : t.floor.isLeap = t.isLeap := by
  have h : 1000000000 ≤ t.nano / 1000000 * 1000000 ↔ 1000000000 ≤ t.nano := by omega
  simp only [isLeap, floor, h]

@[simp]
theorem toMillis_floor (t : Instant) : t.floor.toMillis = t.toMillis := by
  simp only [toMillis, floor]
  omega

/-- Cutting keeps the order, though moments of one millisecond become one. -/
theorem floor_monotone : Monotone floor := by
  intro s t h
  have hs := s.nano_lt
  have ht := t.nano_lt
  have hs' := s.second_lt
  have ht' := t.second_lt
  simp only [le_iff_position_le, position, floor] at h ⊢
  omega

theorem floor_max (s t : Instant) : (max s t).floor = max s.floor t.floor :=
  floor_monotone.map_max

/-! ## Numbers of milliseconds -/

/-- The number of the millisecond of a moment that is no leap second. -/
def IsWhole (ms : Int) : Prop :=
  ∃ t : Instant, t.isLeap = false ∧ t.toMillis = ms

theorem isWhole_toMillis {t : Instant} (h : t.isLeap = false) : IsWhole t.toMillis :=
  ⟨t, h, rfl⟩

/-- Reading back the number of a moment cuts it to the millisecond. -/
theorem ofMillis_toMillis {t : Instant} (h : t.isLeap = false) : ofMillis t.toMillis = t.floor := by
  have hn : t.nano < 1000000000 := by simpa [isLeap] using h
  have hs := t.second_lt
  have hday : 0 + (t.toMillis / 1000 + t.toMillis % 1000 * 1000000 / 1000000000) / 86400
      = t.day := by
    simp only [toMillis]; omega
  have hsecond : ((t.toMillis / 1000 + t.toMillis % 1000 * 1000000 / 1000000000) % 86400).toNat
      = t.second := by
    simp only [toMillis]; omega
  have hnano : (t.toMillis % 1000 * 1000000 % 1000000000).toNat = t.nano / 1000000 * 1000000 := by
    simp only [toMillis]; omega
  simp only [ofMillis, ofMillis?, normalize?, hday, hsecond, hnano, ofParts?]
  rw [dif_pos ⟨⟨t.first_le, t.le_last⟩, hs, by omega, Or.inl (by omega)⟩]
  rfl

theorem IsWhole.toMillis_ofMillis {ms : Int} (h : IsWhole ms) : (ofMillis ms).toMillis = ms := by
  obtain ⟨t, ht, rfl⟩ := h
  rw [ofMillis_toMillis ht, toMillis_floor]

theorem IsWhole.isLeap_ofMillis {ms : Int} (h : IsWhole ms) : (ofMillis ms).isLeap = false := by
  obtain ⟨t, ht, rfl⟩ := h
  rw [ofMillis_toMillis ht, isLeap_floor, ht]

theorem IsWhole.floor_ofMillis {ms : Int} (h : IsWhole ms) : (ofMillis ms).floor = ofMillis ms := by
  rw [← ofMillis_toMillis h.isLeap_ofMillis, h.toMillis_ofMillis]

/-- Outside leap seconds, moments that are cut to the millisecond compare as their numbers do. -/
theorem floor_lt_floor_iff {s t : Instant} (hs : s.isLeap = false) (ht : t.isLeap = false) :
    s.floor < t.floor ↔ s.toMillis < t.toMillis := by
  have hs' : s.nano < 1000000000 := by simpa [isLeap] using hs
  have ht' : t.nano < 1000000000 := by simpa [isLeap] using ht
  simp only [lt_iff_position_lt, position, floor, toMillis]
  omega

theorem ofMillis_lt_ofMillis_iff {m n : Int} (hm : IsWhole m) (hn : IsWhole n) :
    ofMillis m < ofMillis n ↔ m < n := by
  have h := floor_lt_floor_iff hm.isLeap_ofMillis hn.isLeap_ofMillis
  rwa [hm.floor_ofMillis, hn.floor_ofMillis, hm.toMillis_ofMillis, hn.toMillis_ofMillis] at h

theorem ofMillis_le_ofMillis_iff {m n : Int} (hm : IsWhole m) (hn : IsWhole n) :
    ofMillis m ≤ ofMillis n ↔ m ≤ n := by
  rw [← not_lt, ← not_lt, ofMillis_lt_ofMillis_iff hn hm]

theorem ofMillis_inj {m n : Int} (hm : IsWhole m) (hn : IsWhole n) :
    ofMillis m = ofMillis n ↔ m = n := by
  constructor
  · intro h
    rw [← hm.toMillis_ofMillis, h, hn.toMillis_ofMillis]
  · rintro rfl
    rfl

theorem ofMillis_max {m n : Int} (hm : IsWhole m) (hn : IsWhole n) :
    ofMillis (max m n) = max (ofMillis m) (ofMillis n) := by
  rcases le_total m n with h | h
  · rw [max_eq_right h, max_eq_right ((ofMillis_le_ofMillis_iff hm hn).2 h)]
  · rw [max_eq_left h, max_eq_left ((ofMillis_le_ofMillis_iff hn hm).2 h)]

theorem IsWhole.max {m n : Int} (hm : IsWhole m) (hn : IsWhole n) : IsWhole (max m n) := by
  rcases le_total m n with h | h
  · rwa [max_eq_right h]
  · rwa [max_eq_left h]

end Pulse.Time.Instant
