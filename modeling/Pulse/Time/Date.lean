/-!
# The calendar

Days are numbered from the first of January 1970, day `0`, on the Gregorian calendar extended to all
years.  Only the days from the year −262143 to the year 262142 exist: arithmetic that leaves them
fails.

* `dayNumber` — from year, month and day to the number.
* `yearOf`, `civil` — back again.  `daysBeforeYear_yearOf_le` and `lt_daysBeforeYear_succ_yearOf`
  say that the year found is the one whose days surround the number.
* `Date` — a day that exists.
-/

set_option autoImplicit false

namespace Pulse.Time

/-! ## Years and months -/

/-- Every fourth year, but of the years that end a century only every fourth. -/
def isLeapYear (year : Int) : Bool :=
  year % 4 = 0 ∧ (year % 100 ≠ 0 ∨ year % 400 = 0)

/-- The lengths of the twelve months. -/
def monthLengths (leap : Bool) : List Nat :=
  [31, if leap then 29 else 28, 31, 30, 31, 30, 31, 31, 30, 31, 30, 31]

/-- The length of month `1`, …, `12`; no other number has days. -/
def daysInMonth (year : Int) (month : Nat) : Nat :=
  if month = 0 then 0 else (monthLengths (isLeapYear year)).getD (month - 1) 0

/-- Days of the year before its month `1`, …, `12`. -/
def daysBeforeMonth (leap : Bool) (month : Nat) : Nat :=
  ((monthLengths leap).take (month - 1)).foldr (· + ·) 0

/-- Days from the first of January of the year 1 to that of `year`. -/
def daysBeforeYear (year : Int) : Int :=
  365 * (year - 1) + (year - 1) / 4 - (year - 1) / 100 + (year - 1) / 400

/-- Days from the first of January of the year 1 to that of 1970. -/
def epochOffset : Int := 719162

/-- The number of a day of the calendar. -/
def dayNumber (year : Int) (month day : Nat) : Int :=
  daysBeforeYear year + daysBeforeMonth (isLeapYear year) month + day - 1 - epochOffset

/-! ## From the number to the day -/

/-- The year of the `n`-th day after the first of January of the year 1. -/
def yearOf (n : Int) : Int :=
  let guess := n * 400 / 146097 + 1
  if n < daysBeforeYear guess then guess - 1
  else if daysBeforeYear (guess + 1) ≤ n then guess + 1
  else guess

theorem daysBeforeYear_yearOf_le (n : Int) : daysBeforeYear (yearOf n) ≤ n := by
  simp only [yearOf]
  split
  · simp only [daysBeforeYear] at *; omega
  · split <;> simp only [daysBeforeYear] at * <;> omega

theorem lt_daysBeforeYear_succ_yearOf (n : Int) : n < daysBeforeYear (yearOf n + 1) := by
  simp only [yearOf]
  split
  · simp only [daysBeforeYear] at *; omega
  · split <;> simp only [daysBeforeYear] at * <;> omega

/-- Month and day of the month of the `n`-th day, counted from zero, of the remaining months. -/
def monthAndDay : (lengths : List Nat) → (month n : Nat) → Nat × Nat
  | [], month, n => (month, n + 1)
  | length :: rest, month, n =>
    if n < length then (month, n + 1) else monthAndDay rest (month + 1) (n - length)

/-- A day as it is written. -/
structure CivilDay where
  year : Int
  month : Nat
  day : Nat
deriving DecidableEq, Repr

/-- The day with a given number. -/
def civil (number : Int) : CivilDay :=
  let n := number + epochOffset
  let year := yearOf n
  let (month, day) := monthAndDay (monthLengths (isLeapYear year)) 1 (n - daysBeforeYear year).toNat
  ⟨year, month, day⟩

/-- The day of the week, from `0` for Sunday to `6` for Saturday. -/
def weekday (number : Int) : Nat :=
  ((number + 4) % 7).toNat

/-! ## The days that exist -/

/-- The first year of the calendar. -/
def firstYear : Int := -262143

/-- The last year of the calendar. -/
def lastYear : Int := 262142

/-- The number of the first day. -/
def firstDay : Int := -96465292

/-- The number of the last day. -/
def lastDay : Int := 95026236

example : firstDay = dayNumber firstYear 1 1 ∧ lastDay = dayNumber lastYear 12 31 := by decide

/-- A day of the calendar. -/
structure Date where
  number : Int
  first_le : firstDay ≤ number := by decide
  le_last : number ≤ lastDay := by decide
deriving DecidableEq

instance : Inhabited Date := ⟨{ number := 0 }⟩

/-- The day with a given number, if it exists. -/
def Date.ofNumber? (n : Int) : Option Date :=
  if h : firstDay ≤ n ∧ n ≤ lastDay then some ⟨n, h.1, h.2⟩ else none

/-- The day written with year, month and day of the month, if there is such a day. -/
def Date.ofCivil? (c : CivilDay) : Option Date :=
  if 1 ≤ c.day ∧ c.day ≤ daysInMonth c.year c.month then
    Date.ofNumber? (dayNumber c.year c.month c.day)
  else none

/-- Year, month and day of the month. -/
def Date.civil (d : Date) : CivilDay :=
  Time.civil d.number

/-- The day before, unless `d` is the first. -/
def Date.pred? (d : Date) : Option Date :=
  Date.ofNumber? (d.number - 1)

end Pulse.Time
