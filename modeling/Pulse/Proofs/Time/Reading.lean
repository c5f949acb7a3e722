import Mathlib.Order.Basic
import Pulse.Proofs.Time.Shift

/-!
# Where the calendar ends

Moving a moment fails beyond the ends of the calendar only: `exists_add?`, `exists_sub?`.  A clock
that shows a year from 1970 to 9999, which is a *reading*, is far from them: nothing that starts
from a reading leaves the calendar, unless it goes back for hundreds of thousands of years.  Between
two readings a clock shows readings: `IsReading.exists_add?_between`.
-/

set_option autoImplicit false

namespace Pulse.Time.Instant

variable {s t u origin now due : Instant}

/-- The nanoseconds from the first moment of 1970 to the first of the calendar. -/
def firstNanos : Int := firstDay * 86400000000000

/-- The nanoseconds from the first moment of 1970 to the end of the calendar. -/
def endNanos : Int := (lastDay + 1) * 86400000000000

theorem firstNanos_le (t : Instant) : firstNanos ≤ t.nanos := by
  have := t.first_le
  simp only [nanos, firstNanos]
  omega

theorem firstNanos_le_of_isLeap (h : t.isLeap = true) : firstNanos + 1000000000 ≤ t.nanos := by
  have := t.first_le
  have hnano : 1000000000 ≤ t.nano := by simpa [isLeap] using h
  simp only [nanos, firstNanos]
  omega

theorem exists_normalize? {day second nano : Int}
    (hfirst : firstNanos ≤ (day * 86400 + second) * 1000000000 + nano)
    (hend : (day * 86400 + second) * 1000000000 + nano < endNanos) :
    ∃ u, normalize? day second nano = some u := by
  simp only [firstNanos, endNanos] at hfirst hend
  rw [normalize?, ofParts?, dif_pos (by omega)]
  exact ⟨_, rfl⟩

/-- In a leap second only the nanoseconds move. -/
theorem exists_ofParts? {nano : Int} (hleap : t.isLeap = true) (h : 0 ≤ nano)
    (h' : nano < 2000000000) : ∃ u, ofParts? t.day t.second nano.toNat = some u := by
  have hlate : 1000000000 ≤ t.nano := by simpa [isLeap] using hleap
  have hsecond := t.leap
  rw [ofParts?, dif_pos ⟨⟨t.first_le, t.le_last⟩, t.second_lt, by omega, by omega⟩]
  exact ⟨_, rfl⟩

/-- The nanoseconds from the first moment of 1970 on a clock without leap seconds, which shows the
second before a leap second twice. -/
def clockNanos (t : Instant) : Int :=
  t.nanos - if t.isLeap then 1000000000 else 0

theorem clockNanos_lt (t : Instant) : t.clockNanos < endNanos := by
  have hlast := t.le_last
  have hsecond := t.second_lt
  have hnano := t.nano_lt
  simp only [clockNanos, nanos, isLeap, endNanos, decide_eq_true_eq]
  split_ifs <;> omega

/-- A moment can be moved forwards up to the end of the calendar. -/
theorem exists_add?_of_clockNanos {d : Int} (hd : 0 ≤ d) (h : t.clockNanos + d < endNanos) :
    ∃ u, t.add? d = some u := by
  have hfirst := t.firstNanos_le
  have hdiv : Int.tdiv d Span.second = d / 1000000000 := Int.tdiv_eq_ediv_of_nonneg hd
  have hmod : Int.tmod d Span.second = d % 1000000000 := Int.tmod_eq_emod_of_nonneg hd
  simp only [add?, hdiv, hmod]
  simp only [clockNanos, nanos] at h hfirst
  cases hleap : t.isLeap with
  | false =>
    rw [hleap, if_neg Bool.false_ne_true] at h
    rw [if_neg Bool.false_ne_true]
    exact exists_normalize? (by omega) (by omega)
  | true =>
    have hlate := firstNanos_le_of_isLeap hleap
    have hnano := t.nano_lt
    simp only [nanos] at hlate
    rw [hleap, if_pos rfl] at h
    rw [if_pos rfl]
    split_ifs
    · exact exists_normalize? (by omega) (by omega)
    · omega
    · exact exists_ofParts? hleap (by omega) (by omega)

theorem exists_add? {d : Int} (hd : 0 ≤ d) (h : t.nanos + d < endNanos) :
    ∃ u, t.add? d = some u := by
  refine exists_add?_of_clockNanos hd ?_
  rw [clockNanos]
  split_ifs <;> omega

/-- A moment can be moved backwards up to the first of the calendar. -/
theorem exists_sub? {d : Int} (hd : 0 ≤ d) (h : firstNanos ≤ t.nanos - d) :
    ∃ u, t.sub? d = some u := by
  have hlast := t.le_last
  have hsecond := t.second_lt
  have hnano := t.nano_lt
  have hdiv : Int.tdiv (-d) Span.second = -(d / 1000000000) := by
    rw [Int.neg_tdiv]
    exact congrArg Neg.neg (Int.tdiv_eq_ediv_of_nonneg hd)
  have hmod : Int.tmod (-d) Span.second = -(d % 1000000000) := by
    rw [Int.neg_tmod]
    exact congrArg Neg.neg (Int.tmod_eq_emod_of_nonneg hd)
  simp only [sub?, add?, hdiv, hmod]
  simp only [nanos] at h
  cases hleap : t.isLeap with
  | false =>
    have hearly : t.nano < 1000000000 := by simpa [isLeap] using hleap
    rw [if_neg Bool.false_ne_true]
    refine exists_normalize? (by omega) ?_
    rw [endNanos]
    omega
  | true =>
    have hlate : 1000000000 ≤ t.nano := by simpa [isLeap] using hleap
    rw [if_pos rfl]
    split_ifs
    · omega
    · refine exists_normalize? (by omega) ?_
      rw [endNanos]
      omega
    · exact exists_ofParts? hleap (by omega) (by omega)

/-! ## The moment after a distance -/

/-- `u` is the distance `d` after `t`.  A leap second does not count once it is over. -/
structure IsAfter (t : Instant) (d : Span) (u : Instant) : Prop where
  clockNanos_eq : u.clockNanos = t.clockNanos + d
  isLeap_iff : u.isLeap = true ↔ t.isLeap = true ∧ t.nano + d < 2000000000

/-- There is at most one moment a distance after another. -/
theorem IsAfter.unique {d : Span} {v : Instant} (hu : t.IsAfter d u) (hv : t.IsAfter d v) :
    u = v := by
  have hclock := hu.clockNanos_eq.trans hv.clockNanos_eq.symm
  have hleap : u.isLeap = v.isLeap :=
    Bool.eq_iff_iff.2 (hu.isLeap_iff.trans hv.isLeap_iff.symm)
  have hsecond := u.second_lt
  have hsecond' := v.second_lt
  have hnano := u.nano_lt
  have hnano' := v.nano_lt
  rw [eq_iff]
  simp only [clockNanos, nanos, ← hleap] at hclock
  simp only [isLeap, decide_eq_decide] at hleap
  omega

theorem isAfter_of_add? {d : Int} (hd : 0 ≤ d) (h : t.add? d = some u) : t.IsAfter d u := by
  have hlate : ¬ u.nano < 1000000000 ↔ u.isLeap = true := by simp [isLeap]
  rcases add?_of_nonneg hd h with ⟨hleap, hu, hnanos⟩ | ⟨hleap, hout, hu, hnanos⟩ |
    ⟨hleap, hin, hday, hsecond, hnano⟩
  · have hu' : u.isLeap = false := Bool.eq_false_iff.2 (mt hlate.2 (not_not.2 hu))
    exact ⟨by simpa [clockNanos, hu', hleap] using hnanos, by simp [hu', hleap]⟩
  · have hu' : u.isLeap = false := Bool.eq_false_iff.2 (mt hlate.2 (not_not.2 hu))
    exact ⟨by simpa [clockNanos, hu', hleap] using hnanos, by simpa [hu', hleap] using hout⟩
  · have ht : 1000000000 ≤ t.nano := by simpa [isLeap] using hleap
    have hu' : u.isLeap = true := hlate.1 (by omega)
    refine ⟨?_, iff_of_true hu' ⟨hleap, hin⟩⟩
    rw [clockNanos, clockNanos, hu', hleap, nanos, nanos]
    omega

/-- **A distance leads to the moment that is so much later**, unless the calendar ends before. -/
theorem exists_isAfter {d : Int} (hd : 0 ≤ d) (h : t.clockNanos + d < endNanos) :
    ∃ u, t.IsAfter d u ∧ t.add? d = some u := by
  obtain ⟨u, hu⟩ := exists_add?_of_clockNanos hd h
  exact ⟨u, isAfter_of_add? hd hu, hu⟩

theorem add?_eq_none {d : Int} (hd : 0 ≤ d) (h : endNanos ≤ t.clockNanos + d) :
    t.add? d = none := by
  refine Option.eq_none_iff_forall_ne_some.2 fun u hu => ?_
  have hlt := u.clockNanos_lt
  rw [(isAfter_of_add? hd hu).clockNanos_eq] at hlt
  exact absurd h (not_le.2 hlt)

/-! ## Spans -/

theorem le_since (s t : Instant) : t.nanos - s.nanos - 1000000000 ≤ t.since s := by
  simp only [since, nanos, Span.second]
  split_ifs <;> omega

/-- No span is longer than that from the first moment of the calendar. -/
theorem firstNanos_le_sub_since (s t : Instant) : firstNanos ≤ t.nanos - t.since s := by
  have hfirst := s.firstNanos_le
  have hleap (h : s.isLeap = true) := firstNanos_le_of_isLeap h
  simp only [since, nanos, Span.second] at *
  split_ifs with hlt hs
  · have := hleap hs
    omega
  · omega
  · omega
  · omega
  · omega

/-- A window that is shorter than the span from some moment begins within the calendar. -/
theorem exists_sub?_of_lt_since {window : Span} (h : 0 ≤ window) (hlt : window < t.since s) :
    ∃ u, t.sub? window = some u := by
  have hback (w d n f : Int) (hlt : w < d) (hle : f ≤ n - d) : f ≤ n - w := by omega
  have hfirst := firstNanos_le_sub_since s t
  exact exists_sub? h (hback window (t.since s) t.nanos firstNanos hlt hfirst)

/-! ## Readings -/

/-- The moment is in one of the years from 1970 to 9999, as a clock shows it. -/
def IsReading (t : Instant) : Prop :=
  1970 ≤ t.date.civil.year ∧ t.date.civil.year ≤ 9999

instance (t : Instant) : Decidable t.IsReading :=
  inferInstanceAs (Decidable (_ ∧ _))

/-- The numbers of the days that a clock shows. -/
theorem isReading_iff : t.IsReading ↔ 0 ≤ t.day ∧ t.day ≤ 2932896 := by
  have hle := daysBeforeYear_yearOf_le (t.day + epochOffset)
  have hlt := lt_daysBeforeYear_succ_yearOf (t.day + epochOffset)
  simp only [IsReading, date, Date.civil, Time.civil]
  simp only [daysBeforeYear, epochOffset] at hle hlt ⊢
  omega

/-- No time leads nowhere else. -/
theorem eq_of_add?_zero (h : t.add? 0 = some u) : u = t := by
  have hsecond := t.second_lt
  have hsecond' := u.second_lt
  rw [eq_iff]
  rcases add?_of_nonneg le_rfl h with ⟨hleap, hnano, hnanos⟩ | ⟨-, hout, -, -⟩ |
    ⟨-, -, hday, hsecond, hnano⟩
  · have ht : t.nano < 1000000000 := by simpa [isLeap] using hleap
    simp only [nanos] at hnanos
    omega
  · have := t.nano_lt
    omega
  · omega

/-- The calendar does not end within a second after a reading. -/
theorem IsReading.nanos_lt (h : t.IsReading) : t.nanos + 1000000000 < endNanos := by
  have hday := isReading_iff.1 h
  have hsecond := t.second_lt
  have hnano := t.nano_lt
  simp only [nanos, endNanos, lastDay]
  omega

theorem IsReading.exists_add?_second (h : t.IsReading) : ∃ u, t.add? Span.second = some u :=
  exists_add? (by decide) h.nanos_lt

theorem IsReading.add?_zero (h : t.IsReading) : t.add? 0 = some t := by
  have hlt := h.nanos_lt
  obtain ⟨u, hu⟩ := exists_add? le_rfl (show t.nanos + 0 < endNanos by omega)
  rw [hu, eq_of_add?_zero hu]

/-- The days before a reading are within the calendar as long as those before the year 1970 are. -/
theorem IsReading.exists_sub?_ofDays (h : t.IsReading) {days : Nat}
    (hdays : (days : Int) ≤ -firstDay) : ∃ u, t.sub? (Span.ofDays days) = some u := by
  have hday := isReading_iff.1 h
  have hspan : Span.ofDays days = (days * 86400 * 1000000000 : Int) := rfl
  rw [hspan]
  refine exists_sub? (by omega) ?_
  simp only [nanos, firstNanos]
  omega

/-- The day after the day before a moment is within the calendar. -/
theorem exists_add?_ofDate_pred {d : Date} (h : t.date.pred? = some d) :
    ∃ u, (ofDate d).add? (Span.ofDays 1) = some u := by
  have hlast := t.le_last
  have hnumber : d.number = t.day - 1 := by
    rw [Date.pred?, Date.ofNumber?] at h
    split at h
    · cases h
      rfl
    · cases h
  refine exists_add? (by decide) ?_
  have hspan : Span.ofDays 1 = (86400000000000 : Int) := rfl
  rw [hspan]
  simp only [nanos, ofDate, endNanos]
  omega

/-! ## Clocks -/

/-- What a clock shows after a time, up to a leap second. -/
theorem nanos_of_add?_bounds {d : Int} (hd : 0 ≤ d) (h : origin.add? d = some now) :
    origin.nanos + d - 1000000000 ≤ now.nanos ∧ now.nanos ≤ origin.nanos + d := by
  rcases add?_of_nonneg hd h with ⟨-, -, hnanos⟩ | ⟨-, -, -, hnanos⟩ | ⟨-, -, hday, hsecond, hnano⟩
  · omega
  · omega
  · simp only [nanos]
    omega

theorem day_le_of_le (h : t ≤ u) : t.day ≤ u.day := by
  have hsecond := t.second_lt
  have hsecond' := u.second_lt
  have hnano := t.nano_lt
  have hnano' := u.nano_lt
  simp only [le_iff_position_le, position] at h
  omega

/-- A clock that shows a reading when it begins to run and another one later shows readings all the
time in between. -/
theorem IsReading.exists_add?_between {a b : Int} {later : Instant} (horigin : origin.IsReading)
    (ha : 0 ≤ a) (hab : a ≤ b) (hlater : origin.add? b = some later) (hreading : later.IsReading) :
    ∃ now, origin.add? a = some now ∧ now.IsReading := by
  have hbegun := isReading_iff.1 horigin
  have hends := isReading_iff.1 hreading
  obtain ⟨now, hnow⟩ : ∃ now, origin.add? a = some now := by
    have hnanos := (nanos_of_add?_bounds (le_trans ha hab) hlater).1
    have hlt := hreading.nanos_lt
    exact exists_add? ha (by omega)
  have hafter : origin ≤ now := by
    rcases Int.lt_or_eq_of_le ha with hpos | rfl
    · exact (lt_of_add?_eq_some hpos hnow).le
    · exact (eq_of_add?_zero hnow).ge
  have hbefore : now ≤ later := by
    rcases Int.lt_or_eq_of_le hab with hlt | rfl
    · exact (add?_lt_add? ha hlt hnow hlater).le
    · exact (Option.some_inj.1 (hnow.symm.trans hlater)).le
  exact ⟨now, hnow, isReading_iff.2
    ⟨le_trans hbegun.1 (day_le_of_le hafter), le_trans (day_le_of_le hbefore) hends.2⟩⟩

end Pulse.Time.Instant
