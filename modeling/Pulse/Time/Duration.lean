import Pulse.Decimal.Layout

/-!
# Written durations

A duration of whole milliseconds is written in the largest unit of seconds and milliseconds of which
it has at least one, with the digits behind the point that it needs: `60s`, `2.5s`, `250ms`; the
empty duration is `0ns`.
-/

set_option autoImplicit false

namespace Pulse.Time

/-- The text without the zeros at its end. -/
def dropZeros (s : List Char) : List Char :=
  (s.reverse.dropWhile fun c => c = '0').reverse

/-- The written duration. -/
def durationText (millis : Nat) : String :=
  if millis = 0 then "0ns"
  else if millis < 1000 then Decimal.natText millis ++ "ms"
  else
    let digits := Nat.toDigits 10 (millis % 1000)
    let fraction := dropZeros (List.replicate (3 - digits.length) '0' ++ digits)
    Decimal.natText (millis / 1000)
      ++ (if fraction.isEmpty then "" else "." ++ String.ofList fraction) ++ "s"

end Pulse.Time
