import Pulse.Proofs.Time.Floor
import Pulse.Proofs.Time.Reading

/-!
# Moments on a dial

Outside leap seconds, moments can be counted: by nanoseconds, or by milliseconds as long as they are
whole ones.  `IsDial` says that moments of a kind are numbered in their order, and that of each
number in between there is a moment which comes after the moments of lesser numbers.

* `isDial_nanos`, `isDial_millis` — the two ways to count.
* `exists_whole_le` — every moment is in a millisecond, which begins with a whole one.
-/

set_option autoImplicit false

namespace Pulse.Time.Instant

variable {s t : Instant} {n ms : Int}

/-! ## Nanoseconds -/

/-- The moment so many nanoseconds after the first of 1970.  What counts beyond the calendar stands
for its last moment. -/
def ofNanos (n : Int) : Instant :=
  (normalize? 0 0 n).getD last

theorem nano_lt_of_not_isLeap (h : t.isLeap = false) : t.nano < 1000000000 := by
  simpa [isLeap] using h

theorem not_isLeap_of_nano_lt (h : t.nano < 1000000000) : t.isLeap = false := by
  simpa [isLeap] using h

theorem ofNanos_spec (hfirst : firstNanos ≤ n) (hend : n < endNanos) :
    (ofNanos n).isLeap = false ∧ (ofNanos n).nanos = n := by
  obtain ⟨u, hu⟩ : ∃ u, normalize? 0 0 n = some u :=
    exists_normalize? (by simpa using hfirst) (by simpa using hend)
  obtain ⟨hnano, hnanos⟩ := nanos_of_normalize? hu
  rw [ofNanos, hu]
  exact ⟨not_isLeap_of_nano_lt hnano, by simpa using hnanos⟩

theorem nanos_lt_endNanos (h : t.isLeap = false) : t.nanos < endNanos := by
  have hnano := nano_lt_of_not_isLeap h
  have hsecond := t.second_lt
  have hday := t.le_last
  simp only [nanos, endNanos]
  omega

theorem le_iff_nanos_le (hs : s.isLeap = false) (ht : t.isLeap = false) :
    s ≤ t ↔ s.nanos ≤ t.nanos := by
  have hlt := lt_iff_nanos_lt (nano_lt_of_not_isLeap ht) (nano_lt_of_not_isLeap hs)
  rw [← not_lt, hlt, not_lt]

/-! ## Milliseconds -/

theorem nanos_of_floor_eq (h : t.floor = t) : t.nanos = t.toMillis * 1000000 := by
  have hnano : t.nano / 1000000 * 1000000 = t.nano := congrArg nano h
  simp only [toMillis, nanos]
  omega

theorem ofMillis_spec (hfirst : firstNanos ≤ ms * 1000000) (hend : ms * 1000000 < endNanos) :
    (ofMillis ms).isLeap = false ∧ (ofMillis ms).nanos = ms * 1000000 := by
  have hsplit : (0 * 86400 + ms / 1000) * 1000000000 + ms % 1000 * 1000000 = ms * 1000000 := by
    omega
  obtain ⟨u, hu⟩ : ∃ u, normalize? 0 (ms / 1000) (ms % 1000 * 1000000) = some u :=
    exists_normalize? (hsplit ▸ hfirst) (hsplit ▸ hend)
  obtain ⟨hnano, hnanos⟩ := nanos_of_normalize? hu
  rw [ofMillis, ofMillis?, hu]
  exact ⟨not_isLeap_of_nano_lt hnano, hnanos.trans hsplit⟩

/-- The last whole millisecond up to a moment. -/
theorem exists_whole_le (time : Instant) :
    ∃ u : Instant, u.isLeap = false ∧ u.floor = u ∧
      ∀ t : Instant, t.isLeap = false → t.floor = t → (t ≤ time ↔ t ≤ u) := by
  -- A leap second is a long end of the last millisecond before it.
  let u : Instant :=
    { time with
      nano := min time.nano 999999999 / 1000000 * 1000000
      nano_lt := by omega
      leap := by omega }
  refine ⟨u, not_isLeap_of_nano_lt ?_, eq_iff.2 ⟨rfl, rfl, ?_⟩, fun t hleap hwhole => ?_⟩
  · show min time.nano 999999999 / 1000000 * 1000000 < 1000000000
    omega
  · show min time.nano 999999999 / 1000000 * 1000000 / 1000000 * 1000000 =
      min time.nano 999999999 / 1000000 * 1000000
    omega
  · have hnano := nano_lt_of_not_isLeap hleap
    have hcut : t.nano / 1000000 * 1000000 = t.nano := congrArg nano hwhole
    have hlt := time.nano_lt
    rw [le_iff_position_le, le_iff_position_le]
    show t.position ≤ time.position ↔ t.position ≤
      (time.day * 86400 + time.second) * 2000000000 +
        (min time.nano 999999999 / 1000000 * 1000000 : Nat)
    simp only [position]
    omega

/-! ## Dials -/

/-- Moments of a kind have numbers in their order, and so have moments for all numbers in
between. -/
structure IsDial (kind : Instant → Prop) (tick : Instant → Int) (moment : Int → Instant) :
    Prop where
  le_iff {s t : Instant} : kind s → kind t → (s ≤ t ↔ tick s ≤ tick t)
  le_moment_iff {first last t : Instant} {n : Int} : kind first → kind last → kind t →
    tick first ≤ n → n < tick last → (t ≤ moment n ↔ tick t ≤ n)

/-- Counting nanoseconds. -/
theorem isDial_nanos : IsDial (fun t => t.isLeap = false) nanos ofNanos where
  le_iff := le_iff_nanos_le
  le_moment_iff {first last t n} hfirst hlast ht hge hlt := by
    obtain ⟨hleap, hnanos⟩ := ofNanos_spec (n := n) (first.firstNanos_le.trans hge)
      (hlt.trans (nanos_lt_endNanos hlast))
    rw [le_iff_nanos_le ht hleap, hnanos]

/-- Counting milliseconds. -/
theorem isDial_millis : IsDial (fun t => t.isLeap = false ∧ t.floor = t) toMillis ofMillis where
  le_iff {s t} hs ht := by
    rw [le_iff_nanos_le hs.1 ht.1, nanos_of_floor_eq hs.2, nanos_of_floor_eq ht.2]
    omega
  le_moment_iff {first last t n} hfirst hlast ht hge hlt := by
    have hbegin := first.firstNanos_le
    have hend := nanos_lt_endNanos hlast.1
    rw [nanos_of_floor_eq hfirst.2] at hbegin
    rw [nanos_of_floor_eq hlast.2] at hend
    obtain ⟨hleap, hnanos⟩ :=
      ofMillis_spec (show firstNanos ≤ n * 1000000 by omega) (by omega)
    rw [le_iff_nanos_le ht.1 hleap, hnanos, nanos_of_floor_eq ht.2]
    omega

end Pulse.Time.Instant
