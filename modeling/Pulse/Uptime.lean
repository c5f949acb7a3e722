import Pulse.Decimal.Rounding
import Pulse.Server

/-!
# Uptime

The share of a stretch of time for which a server was on, found by walking through its changes of
status in that stretch.  Time is counted in whole milliseconds, each stretch between two changes cut
to the millisecond on its own; `onMillis` is the sum, `uptimePercent` its share of the whole.
-/

set_option autoImplicit false

namespace Pulse

open Time (Instant Checked)

/-- A moment, moved to the nearer end of a stretch if it is outside. -/
def clampTo (start stop t : Instant) : Instant :=
  if t < start then start else if stop < t then stop else t

/-- The milliseconds that count from `since` to `t` in a given status. -/
def countedMillis (status : Status) (since t : Instant) : Int :=
  if status = .on then (t.since since).toMillis else 0

/-- The milliseconds for which a server was on between `since` and `stop`, of which it enters the
first with `status`; changes outside of `start` and `stop` count as if they were at the ends. -/
def onMillisFrom (start stop : Instant) : Status → Instant → List Transition → Int
  | status, since, [] => countedMillis status since stop
  | status, since, t :: rest =>
    let time := clampTo start stop t.time
    countedMillis status since time + onMillisFrom start stop t.target time rest

/-- The milliseconds for which a server was on between `start`, when it was in status `initial`, and
`stop`. -/
def onMillis (initial : Status) (changes : List Transition) (start stop : Instant) : Int :=
  onMillisFrom start stop initial start changes

/-- A double with two decimals. -/
def round2 (x : Float) : Float :=
  (x * 100.0).round / 100.0

/-- A whole number as a double. -/
def doubleOf (n : Int) : Float :=
  Float.ofInt n

/-- The share of the time between `start` and `stop` for which a server was on, in percent with two
decimals.  There is no moving of changes into a stretch that ends before it starts. -/
def uptimePercent (initial : Status) (changes : List Transition) (start stop : Instant) :
    Checked Float :=
  let total := (stop.since start).toMillis
  if total ≤ 0 then .ok 0.0
  else if stop < start ∧ changes ≠ [] then .error .outOfRange
  else .ok (round2 (doubleOf (onMillis initial changes start stop) * 100.0 / doubleOf total))

end Pulse
