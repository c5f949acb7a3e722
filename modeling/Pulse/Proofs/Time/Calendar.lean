import Mathlib.Data.List.Basic
import Mathlib.Tactic
import Pulse.Time.Date

/-!
# Days and their names

The day of a number has that number again: `dayNumber_civil`.  Its month and its day are those of
the calendar, so a date can be made of them: `ofCivil?_civil`.
-/

set_option autoImplicit false

namespace Pulse.Time

theorem daysBeforeYear_succ (year : Int) :
    daysBeforeYear (year + 1) =
      daysBeforeYear year + ((monthLengths (isLeapYear year)).foldr (· + ·) 0 : Nat) := by
  have hlength (leap : Bool) :
      (monthLengths leap).foldr (· + ·) 0 = 365 + if leap then 1 else 0 := by
    cases leap <;> rfl
  rw [hlength]
  by_cases hleap : isLeapYear year = true
  · rw [hleap, if_pos rfl]
    simp only [isLeapYear, decide_eq_true_eq, daysBeforeYear] at *
    omega
  · rw [Bool.not_eq_true] at hleap
    rw [hleap, if_neg Bool.false_ne_true]
    simp only [isLeapYear, decide_eq_false_iff_not, daysBeforeYear] at *
    omega

/-- The month found is one whose days surround the number. -/
theorem monthAndDay_spec {lengths : List Nat} (month : Nat) {n : Nat}
    (h : n < lengths.foldr (· + ·) 0) :
    ∃ k, k < lengths.length ∧ (monthAndDay lengths month n).1 = month + k ∧
      1 ≤ (monthAndDay lengths month n).2 ∧
      (monthAndDay lengths month n).2 ≤ lengths.getD k 0 ∧
      (lengths.take k).foldr (· + ·) 0 + (monthAndDay lengths month n).2 = n + 1 := by
  induction lengths generalizing month n with
  | nil => simp at h
  | cons length rest ih =>
    rw [monthAndDay]
    split_ifs with hlt
    · exact ⟨0, by simp, rfl, by simp, by simpa using hlt, by simp⟩
    · rw [List.foldr_cons] at h
      obtain ⟨k, hk, hmonth, hpos, hle, hsum⟩ := ih (month + 1) (n := n - length) (by omega)
      refine ⟨k + 1, by simpa using hk, by omega, hpos, by simpa using hle, ?_⟩
      rw [List.take_succ_cons, List.foldr_cons]
      omega

/-- What is known about the name of a day. -/
structure CivilDay.IsNameOf (c : CivilDay) (number : Int) : Prop where
  month_pos : 1 ≤ c.month
  month_le : c.month ≤ 12
  day_pos : 1 ≤ c.day
  day_le : c.day ≤ daysInMonth c.year c.month
  number_eq : dayNumber c.year c.month c.day = number
  year_le : daysBeforeYear c.year ≤ number + epochOffset
  lt_year : number + epochOffset < daysBeforeYear (c.year + 1)

theorem civil_isNameOf (number : Int) : (civil number).IsNameOf number := by
  have hle := daysBeforeYear_yearOf_le (number + epochOffset)
  have hlt := lt_daysBeforeYear_succ_yearOf (number + epochOffset)
  have hsucc := daysBeforeYear_succ (yearOf (number + epochOffset))
  have hcivil : ∀ year, year = yearOf (number + epochOffset) → ∀ n,
      n = (number + epochOffset - daysBeforeYear year).toNat →
      civil number = ⟨year, (monthAndDay (monthLengths (isLeapYear year)) 1 n).1,
        (monthAndDay (monthLengths (isLeapYear year)) 1 n).2⟩ := by
    rintro _ rfl _ rfl
    rfl
  generalize yearOf (number + epochOffset) = year at hle hlt hsucc hcivil
  obtain ⟨n, hn⟩ : ∃ n, n = (number + epochOffset - daysBeforeYear year).toNat := ⟨_, rfl⟩
  obtain ⟨k, hk, hmonth, hpos, hday, hsum⟩ :=
    monthAndDay_spec 1 (show n < (monthLengths (isLeapYear year)).foldr (· + ·) 0 by omega)
  have hk' : k < 12 := hk
  rw [hcivil year rfl n hn, hmonth]
  generalize (monthAndDay (monthLengths (isLeapYear year)) 1 n).2 = day at hpos hday hsum
  refine ⟨Nat.le_add_right .., ?_, hpos, ?_, ?_, hle, hlt⟩
  · show 1 + k ≤ 12
    omega
  · show day ≤ daysInMonth year (1 + k)
    rwa [daysInMonth, if_neg (by omega), Nat.add_sub_cancel_left]
  · show dayNumber year (1 + k) day = number
    rw [dayNumber, daysBeforeMonth, Nat.add_sub_cancel_left]
    omega

/-- **The day of a number** has that number. -/
theorem dayNumber_civil (number : Int) :
    dayNumber (civil number).year (civil number).month (civil number).day = number :=
  (civil_isNameOf number).number_eq

/-- A day is found under its name. -/
theorem ofCivil?_civil (d : Date) : Date.ofCivil? d.civil = some d := by
  have hname := civil_isNameOf d.number
  rw [Date.ofCivil?, Date.civil, if_pos ⟨hname.day_pos, hname.day_le⟩, dayNumber_civil,
    Date.ofNumber?, dif_pos ⟨d.first_le, d.le_last⟩]

theorem daysInMonth_le (year : Int) (month : Nat) : daysInMonth year month ≤ 31 := by
  rw [daysInMonth]
  split_ifs
  · exact Nat.zero_le 31
  · have hall : ∀ leap : Bool, ∀ n ∈ monthLengths leap, n ≤ 31 := by decide
    rw [List.getD_eq_getElem?_getD]
    cases hlength : (monthLengths (isLeapYear year))[month - 1]? with
    | none => exact Nat.zero_le 31
    | some n => exact hall _ n (List.mem_of_getElem? hlength)

/-- The year of a day of the calendar has at most six digits. -/
theorem natAbs_year_le (d : Date) : d.civil.year.natAbs < 1000000 := by
  have hname := civil_isNameOf d.number
  have hyear := hname.year_le
  have hyear' := hname.lt_year
  have hfirst := d.first_le
  have hlast := d.le_last
  simp only [daysBeforeYear, firstDay, lastDay, epochOffset] at *
  show (civil d.number).year.natAbs < 1000000
  omega

end Pulse.Time
