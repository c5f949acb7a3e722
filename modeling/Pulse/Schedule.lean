import Pulse.Schedule.CronParser
import Pulse.Schedule.Every

/-!
# Schedules

When a recurring task is due: after a fixed period (`@every 10s`) or at calendar times
(`0 0 1 * * *`, `@daily`).  `Schedule.parse` reads either form and `Schedule.next` computes the
first fire strictly after a moment.
-/

set_option autoImplicit false

namespace Pulse

open Time (Instant)

/-- When a schedule fires. -/
inductive Schedule.Rule where
  | every (period : Schedule.Period)
  | calendar (cron : Schedule.Cron)
deriving DecidableEq, Repr

/-- A schedule and the text it was read from, without blanks around it. -/
structure Schedule where
  expression : String
  rule : Schedule.Rule
deriving DecidableEq, Repr

/-- Why a text is no schedule. -/
inductive Schedule.Reason where
  | period (fault : Schedule.PeriodFault) (text : String)
  | calendar
deriving DecidableEq, Repr

/-- A text that is no schedule. -/
structure ScheduleError where
  expression : String
  reason : Schedule.Reason
deriving DecidableEq, Repr

/-- The error in words.  What is wrong with a calendar schedule is not told. -/
def ScheduleError.message (e : ScheduleError) : String :=
  match e.reason with
  | .period fault text => s!"invalid schedule '{e.expression}': {fault.message text}"
  | .calendar => s!"invalid schedule '{e.expression}'"

namespace Schedule

/-- The word in front of a fixed period. -/
def everyWord : List Char := "@every".toList

/-- The schedule that a text writes, with or without blanks around it. -/
def parse (s : String) : Except ScheduleError Schedule :=
  let chars := Text.trim s.toList
  let expression := String.ofList chars
  if everyWord.isPrefixOf chars then
    let rest := Text.trim (chars.drop everyWord.length)
    match Period.parse rest with
    | .ok period => .ok ⟨expression, .every period⟩
    | .error fault => .error ⟨expression, .period fault (String.ofList rest)⟩
  else
    match Cron.parse? chars with
    | some cron => .ok ⟨expression, .calendar cron⟩
    | none => .error ⟨expression, .calendar⟩

/-- The fixed time between fires, if the schedule has one. -/
def period? (schedule : Schedule) : Option Period :=
  match schedule.rule with
  | .every period => some period
  | .calendar _ => none

/-- The first fire strictly after `t`, if there is one.  For a calendar schedule, `t` must not be
in the last second of the calendar. -/
def next (schedule : Schedule) (t : Instant) : Time.Checked (Option Instant) :=
  match schedule.rule with
  | .every period => .ok (t.add? (Time.Span.ofMillis period.millis))
  | .calendar cron => do
    let _ ← t.add Time.Span.second
    return cron.next? t

end Schedule

end Pulse
