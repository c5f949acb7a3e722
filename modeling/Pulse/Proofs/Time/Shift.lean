import Pulse.Proofs.Time.Order

/-!
# Moving a moment

Moving a moment by a longer distance leads to a later moment (`add?_lt_add?`), also when it starts
from within a leap second: a leap second is left for the second after it once the distance is as
long as what remains of it.
-/

set_option autoImplicit false

namespace Pulse.Time.Instant

/-- The nanoseconds from the first moment of 1970.  Those of a leap second count into the second
that follows it. -/
def nanos (t : Instant) : Int :=
  (t.day * 86400 + t.second) * 1000000000 + t.nano

theorem lt_of_nanos_lt {s t : Instant} (hs : s.nano < 1000000000) (h : s.nanos < t.nanos)
    (ht : t.nano < 1000000000) : s < t := by
  simp only [nanos] at h
  rw [lt_iff_position_lt, position, position]
  omega

theorem lt_iff_nanos_lt {s t : Instant} (hs : s.nano < 1000000000) (ht : t.nano < 1000000000) :
    s < t ↔ s.nanos < t.nanos := by
  refine ⟨fun h => ?_, fun h => lt_of_nanos_lt hs h ht⟩
  rcases lt_trichotomy s.nanos t.nanos with hlt | heq | hgt
  · exact hlt
  · have hst : s = t := by
      refine position_injective ?_
      simp only [nanos] at heq
      simp only [position]
      omega
    exact absurd h (hst ▸ lt_irrefl s)
  · exact absurd h (lt_asymm (lt_of_nanos_lt ht hgt hs))

theorem ofParts?_eq_some_iff {day : Int} {second nano : Nat} {t : Instant} :
    ofParts? day second nano = some t ↔ t.day = day ∧ t.second = second ∧ t.nano = nano := by
  rw [ofParts?]
  constructor
  · intro h
    split at h
    · cases h
      exact ⟨rfl, rfl, rfl⟩
    · cases h
  · rintro ⟨rfl, rfl, rfl⟩
    exact dif_pos ⟨⟨t.first_le, t.le_last⟩, t.second_lt, t.nano_lt, t.leap⟩

/-- A moment given by seconds and nanoseconds after midnight is no leap second. -/
theorem nanos_of_normalize? {day second nano : Int} {t : Instant}
    (h : normalize? day second nano = some t) :
    t.nano < 1000000000 ∧ t.nanos = (day * 86400 + second) * 1000000000 + nano := by
  obtain ⟨hday, hsecond, hnano⟩ := ofParts?_eq_some_iff.1 h
  rw [nanos]
  omega

/-- Where a distance that is not negative leads to: out of a leap second, unless it is too short for
that. -/
theorem add?_of_nonneg {t u : Instant} {s : Int} (hs : 0 ≤ s) (h : t.add? s = some u) :
    (t.isLeap = false ∧ u.nano < 1000000000 ∧ u.nanos = t.nanos + s) ∨
      (t.isLeap = true ∧ 2000000000 ≤ t.nano + s ∧ u.nano < 1000000000 ∧
        u.nanos = t.nanos - 1000000000 + s) ∨
      (t.isLeap = true ∧ t.nano + s < 2000000000 ∧ u.day = t.day ∧ u.second = t.second ∧
        u.nano = t.nano + s) := by
  have hdiv : Int.tdiv s Span.second = s / 1000000000 := Int.tdiv_eq_ediv_of_nonneg hs
  have hmod : Int.tmod s Span.second = s % 1000000000 := Int.tmod_eq_emod_of_nonneg hs
  simp only [add?, hdiv, hmod] at h
  cases hleap : t.isLeap with
  | false =>
    rw [hleap, if_neg (by simp)] at h
    obtain ⟨hnano, hnanos⟩ := nanos_of_normalize? h
    refine .inl ⟨rfl, hnano, hnanos.trans ?_⟩
    rw [nanos]
    omega
  | true =>
    have hlate : 1000000000 ≤ t.nano := by simpa [isLeap] using hleap
    have hlt := t.nano_lt
    rw [hleap, if_pos rfl] at h
    split_ifs at h with hout hback
    · obtain ⟨hnano, hnanos⟩ := nanos_of_normalize? h
      refine .inr (.inl ⟨rfl, by omega, hnano, hnanos.trans ?_⟩)
      rw [nanos]
      omega
    · omega
    · obtain ⟨hday, hsecond, hnano⟩ := ofParts?_eq_some_iff.1 h
      exact .inr (.inr ⟨rfl, by omega, hday, hsecond, by omega⟩)

/-- Where a distance leads to from a moment that is no leap second. -/
theorem nanos_of_add? {t u : Instant} {s : Span} (ht : t.isLeap = false) (h : t.add? s = some u) :
    u.nano < 1000000000 ∧ u.nanos = t.nanos + s := by
  simp only [add?, ht, Bool.false_eq_true, if_false] at h
  obtain ⟨hnano, hnanos⟩ := nanos_of_normalize? h
  have hparts : (1000000000 : Int) * Int.tdiv s 1000000000 + Int.tmod s 1000000000 = s :=
    Int.mul_tdiv_add_tmod s 1000000000
  refine ⟨hnano, hnanos.trans ?_⟩
  rw [nanos, ← hparts]
  simp only [Span.second, hparts]
  omega

/-- The span between moments that are no leap seconds. -/
theorem since_eq {s t : Instant} (hs : s.isLeap = false) (ht : t.isLeap = false) :
    t.since s = t.nanos - s.nanos := by
  simp only [since, hs, ht, Bool.false_eq_true, if_false, ite_self, Span.second]
  show @Eq Int _ (t.nanos - s.nanos)
  rw [nanos, nanos]
  omega

/-- **Two ways to look back**: what is before the moment a window ago is longer ago than the window,
as long as no leap second is involved. -/
theorem lt_sub?_iff {s t u : Instant} {window : Span} (hs : s.isLeap = false)
    (ht : t.isLeap = false) (hu : t.sub? window = some u) : s < u ↔ window < t.since s := by
  obtain ⟨hnano, hnanos⟩ := nanos_of_add? ht hu
  have hs' : s.nano < 1000000000 := by simpa [isLeap] using hs
  have hback (a b w : Int) : a < b + -w ↔ w < b - a := by omega
  rw [since_eq hs ht, lt_iff_nanos_lt hs' hnano, hnanos]
  exact hback s.nanos t.nanos window

/-- A distance leads to a later moment. -/
theorem lt_of_add?_eq_some {t u : Instant} {s : Int} (hs : 0 < s) (h : t.add? s = some u) :
    t < u := by
  rcases add?_of_nonneg (le_of_lt hs) h with ⟨hleap, hu, hnanos⟩ | ⟨-, hout, hu, hnanos⟩ |
    ⟨-, -, hday, hsecond, hnano⟩
  · have ht : t.nano < 1000000000 := by simpa [isLeap] using hleap
    exact lt_of_nanos_lt ht (by omega) hu
  · simp only [nanos] at hnanos
    rw [lt_iff_position_lt, position, position]
    have := t.nano_lt
    omega
  · rw [lt_iff_position_lt, position, position]
    omega

/-- **A longer distance leads to a later moment.** -/
theorem add?_lt_add? {t u v : Instant} {a b : Int} (ha : 0 ≤ a) (hab : a < b)
    (hu : t.add? a = some u) (hv : t.add? b = some v) : u < v := by
  rcases add?_of_nonneg ha hu with ⟨hleap, hu, hunanos⟩ | ⟨hleap, hout, hu, hunanos⟩ |
      ⟨hleap, hin, hday, hsecond, hu⟩ <;>
    rcases add?_of_nonneg (show 0 ≤ b by omega) hv with ⟨hleap', hv, hvnanos⟩ |
      ⟨hleap', hout', hv, hvnanos⟩ | ⟨hleap', hin', hday', hsecond', hv⟩ <;>
    rw [hleap] at hleap' <;> try cases hleap'
  · exact lt_of_nanos_lt hu (by omega) hv
  · exact lt_of_nanos_lt hu (by omega) hv
  · omega
  · simp only [nanos] at hvnanos
    rw [lt_iff_position_lt, position, position]
    omega
  · rw [lt_iff_position_lt, position, position]
    omega

end Pulse.Time.Instant
