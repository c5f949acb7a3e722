import Pulse.Time.Instant

/-!
# Calendar schedules

A calendar schedule names the seconds, minutes, hours, days of the month, months, days of the week
and years at which it fires; it fires in every second all of whose parts it names.

`Cron.firesAt` is this rule and `Cron.nextFrom?` the search for the first second that obeys it,
which runs through the named years, months and days and then through the named times of the day.
Only the years from 1970 to 2100 can be named.
-/

set_option autoImplicit false

namespace Pulse.Schedule

open Time (CivilDay Instant)

/-- The parts of the time that a schedule names, each list ascending. -/
structure Cron where
  seconds : List Nat
  minutes : List Nat
  hours : List Nat
  daysOfMonth : List Nat
  months : List Nat
  /-- From `1` for Sunday to `7` for Saturday. -/
  daysOfWeek : List Nat
  years : List Nat
deriving DecidableEq, Repr

namespace Cron

/-- The schedule names the day with this number. -/
def namesDay (cron : Cron) (number : Int) (day : CivilDay) : Bool :=
  cron.daysOfWeek.contains (Time.weekday number + 1) && cron.daysOfMonth.contains day.day
    && cron.months.contains day.month && 0 ≤ day.year && cron.years.contains day.year.toNat

/-- The schedule names the second of the day. -/
def namesSecond (cron : Cron) (second : Nat) : Bool :=
  cron.hours.contains (second / 3600) && cron.minutes.contains (second / 60 % 60)
    && cron.seconds.contains (second % 60)

/-- The schedule fires at a moment. -/
def firesAt (cron : Cron) (t : Instant) : Bool :=
  cron.namesDay t.day (Time.civil t.day) && cron.namesSecond t.second && t.nano = 0

/-- The first named second of a day that is not before `start`. -/
def secondFrom? (cron : Cron) (start : Nat) : Option Nat :=
  cron.hours.findSome? fun hour =>
    if hour * 3600 + 3599 < start then none
    else cron.minutes.findSome? fun minute =>
      if hour * 3600 + minute * 60 + 59 < start then none
      else cron.seconds.findSome? fun second =>
        let found := hour * 3600 + minute * 60 + second
        if found < start then none else some found

/-- The first named day of a month, not before the day `first`, on which there is a named second;
on the day `first` that second is not before `start`. -/
def inMonth? (cron : Cron) (first : Int) (start year month : Nat) : Option (Int × Nat) :=
  cron.daysOfMonth.findSome? fun day =>
    let number := Time.dayNumber year month day
    if Time.daysInMonth year month < day ∨ number < first
        ∨ !cron.daysOfWeek.contains (Time.weekday number + 1) then none
    else (cron.secondFrom? (if number = first then start else 0)).map fun second => (number, second)

/-- The first day and second at which the schedule fires, from second `start` of the day `first`
on. -/
def nextFrom? (cron : Cron) (first : Int) (start : Nat) : Option (Int × Nat) :=
  cron.years.findSome? fun (year : Nat) =>
    if Time.dayNumber year 12 31 < first then none
    else cron.months.findSome? fun (month : Nat) =>
      if Time.dayNumber year month 31 < first then none
      else cron.inMonth? first start year month

/-- The first moment at which the schedule fires after `t`, provided that the calendar goes on for
a second after `t`.  A schedule is not looked up from a moment before the year 0. -/
def next? (cron : Cron) (t : Instant) : Option Instant :=
  let first := t.day + ((t.second + 1) / 86400 : Nat)
  if (Time.civil first).year < 0 then none
  else
    match cron.nextFrom? first ((t.second + 1) % 86400) with
    | some (day, second) => Instant.ofParts? day second 0
    | none => none

end Cron

end Pulse.Schedule
