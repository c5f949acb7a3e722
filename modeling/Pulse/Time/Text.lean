import Pulse.Time.Instant

/-!
# Written times

The one form in which times are written: `2025-03-01T12:00:00.250Z`.  A year has four digits, or a
sign and at least four if it is not one of the years 0 to 9999; the fraction of a second has none,
three, six or nine digits, as few as say it exactly; a leap second is the second `60`.
-/

set_option autoImplicit false

namespace Pulse.Time

/-- The digits of `n`, with zeros in front to fill `width` places. -/
def padded (width n : Nat) : List Char :=
  let digits := Nat.toDigits 10 n
  List.replicate (width - digits.length) '0' ++ digits

/-- A year, with a sign unless it is one of 0 to 9999. -/
def writeYear (year : Int) : List Char :=
  if 0 ≤ year ∧ year ≤ 9999 then padded 4 year.toNat
  else (if year < 0 then '-' else '+') :: padded 4 year.natAbs

namespace CivilDay

/-- Year, month and day, with lines between them. -/
def write (c : CivilDay) : List Char :=
  writeYear c.year ++ '-' :: padded 2 c.month ++ '-' :: padded 2 c.day

end CivilDay

/-- The written day. -/
def Date.text (d : Date) : String :=
  String.ofList d.civil.write

/-- The fraction of a second behind a point, in the fewest of three, six or nine digits. -/
def writeFraction (nano : Nat) : List Char :=
  if nano = 0 then []
  else if nano % 1000000 = 0 then '.' :: padded 3 (nano / 1000000)
  else if nano % 1000 = 0 then '.' :: padded 6 (nano / 1000)
  else '.' :: padded 9 nano

namespace Instant

/-- The written time. -/
def write (t : Instant) : List Char :=
  let second := t.second % 60 + (if t.isLeap then 1 else 0)
  t.date.civil.write ++ 'T' :: padded 2 (t.second / 3600) ++ ':' :: padded 2 (t.second / 60 % 60)
    ++ ':' :: padded 2 second ++ writeFraction (t.nano % 1000000000) ++ ['Z']

/-- The written time. -/
def text (t : Instant) : String :=
  String.ofList t.write

end Instant

end Pulse.Time
