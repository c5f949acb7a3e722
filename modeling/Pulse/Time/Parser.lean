import Pulse.Text.Blank
import Pulse.Text.DecimalDigit
import Pulse.Time.Instant

/-!
# Reading times

Times are read more generously than they are written: `2025-3-1 9:5:0.25+0530` is a time.  Each
number may have blanks in front, a year may have a sign and then any number of digits, date and time
are parted by `T`, `t` or one space, the fraction may have any number of digits of which nine count,
and the offset is `Z`, `z`, `UTC` or a sign with two digits of hours and two of minutes, between
which colons and blanks are passed over.

A text is read from left to right and the first fault decides; a number is checked against its
range as soon as it is read, the calendar and the offset at the end.
-/

set_option autoImplicit false

namespace Pulse.Time

open Pulse.Text (trimLeft isBlank digitsValue)

/-- Why a text is no time. -/
inductive ParseFault where
  | tooShort
  | invalid
  | outOfRange
  | trailing
  | impossible
deriving DecidableEq, Repr

/-- The fault in words. -/
def ParseFault.message : ParseFault → String
  | .tooShort => "premature end of input"
  | .invalid => "input contains invalid characters"
  | .outOfRange => "input is out of range"
  | .trailing => "trailing input"
  | .impossible => "no possible date and time matching input"

/-- Reading off the front of a text, until the first fault. -/
abbrev Reading : Type → Type := StateT (List Char) (Except ParseFault)

/-- Passes over blanks. -/
def skipBlanks : Reading Unit :=
  modify trimLeft

/-- A row of ASCII digits, cut after `most` of them. -/
def readNumber (most : Option Nat) : Reading Nat := fun s =>
  let digits := (match most with | some n => s.take n | none => s).takeWhile Char.isDigit
  if s.isEmpty then .error .tooShort
  else if digits.isEmpty then .error .invalid
  else .ok (digitsValue digits, s.drop digits.length)

/-- One of the characters that `accepted` holds of. -/
def readMark (accepted : Char → Bool) : Reading Unit
  | [] => .error .tooShort
  | c :: rest => if accepted c then .ok ((), rest) else .error .invalid

/-- A number of one or two digits from `low` to `high`, with blanks in front. -/
def readField (low high : Nat) : Reading Nat := do
  skipBlanks
  let n ← readNumber (some 2)
  if low ≤ n ∧ n ≤ high then pure n else throw .outOfRange

/-- The years that a written year may name before the calendar is asked. -/
def yearFits (year : Int) : Bool :=
  -2147483648 ≤ year && year ≤ 2147483647

/-- The digits of a year, after its sign if there is one. -/
def readYearDigits : Reading Int
  | '-' :: rest => (do return -Int.ofNat (← readNumber none) : Reading Int) rest
  | '+' :: rest => (do return Int.ofNat (← readNumber none) : Reading Int) rest
  | s => (do return Int.ofNat (← readNumber (some 4)) : Reading Int) s

/-- A year: four digits, or a sign and any number of them. -/
def readYear : Reading Int := do
  skipBlanks
  let year ← readYearDigits
  if yearFits year then pure year else throw .outOfRange

/-- A day, with lines between year, month and day of the month. -/
def readCivilDay : Reading CivilDay := do
  let year ← readYear
  skipBlanks
  readMark (· = '-')
  let month ← readField 1 12
  skipBlanks
  readMark (· = '-')
  let day ← readField 1 31
  return ⟨year, month, day⟩

/-- The nanoseconds behind a point; without a point there are none. -/
def readFraction : Reading Nat
  | '.' :: rest => do
    let (n, after) ← readNumber (some 9) rest
    let missing := 9 - (rest.length - after.length)
    return (n * Nat.pow 10 missing, after.dropWhile Char.isDigit)
  | s => .ok (0, s)

/-- A reading of the clock, with a second of `60` for a leap second. -/
structure ClockTime where
  hour : Nat
  minute : Nat
  second : Nat
  nano : Nat
deriving DecidableEq, Repr

/-- Hours, minutes and seconds with colons between them, and a fraction. -/
def readClockTime : Reading ClockTime := do
  let hour ← readField 0 23
  skipBlanks
  readMark (· = ':')
  let minute ← readField 0 59
  skipBlanks
  readMark (· = ':')
  let second ← readField 0 60
  let nano ← readFraction
  return ⟨hour, minute, second, nano⟩

/-- Two digits, of which the first is at most `tens`. -/
def readTwoDigits (tens : Nat) : Reading Nat
  | a :: b :: rest =>
    if a.isDigit ∧ b.isDigit then
      if Text.digitValue a ≤ tens then .ok (digitsValue [a, b], rest) else .error .outOfRange
    else .error .invalid
  | [a] => if a.toNat < 128 then .error .tooShort else .error .invalid
  | [] => .error .tooShort

/-- The seconds of an offset after its sign. -/
def readOffsetDigits : Reading Int := do
  let hours ← readTwoDigits 9
  modify (·.dropWhile fun c => c = ':' || isBlank c)
  let minutes ← readTwoDigits 5
  return Int.ofNat (hours * 3600 + minutes * 60)

/-- The text starts with the three letters of universal time, in either case. -/
def startsWithUtc (s : List Char) : Bool :=
  (s.take 3).map Char.toUpper = ['U', 'T', 'C']

/-- The offset from universal time in seconds, with blanks in front. -/
def readOffset : Reading Int := do
  skipBlanks
  if startsWithUtc (← get) then
    modify (·.drop 3)
    return 0
  match ← get with
  | [] => throw .tooShort
  | c :: rest =>
    set rest
    if c = 'Z' ∨ c = 'z' then return 0
    else if c = '+' then readOffsetDigits
    else if c = '-' ∨ c = '\u2212' then return -(← readOffsetDigits)
    else throw .invalid

/-- Nothing but blanks is left. -/
def readEnd : Reading Unit := do
  skipBlanks
  if (← get).isEmpty then pure () else throw .trailing

/-- The moment at which a clock with the given offset shows the given day and time. -/
def Instant.ofClock (day : CivilDay) (clock : ClockTime) (offset : Int) :
    Except ParseFault Instant :=
  match Date.ofCivil? day with
  | none => .error .outOfRange
  | some date =>
    if offset ≤ -86400 ∨ 86400 ≤ offset then .error .outOfRange
    else
      let leap : Nat := if clock.second = 60 then 1 else 0
      let second : Int :=
        clock.hour * 3600 + clock.minute * 60 + (clock.second - leap : Nat) - offset
      match ofParts? (date.number + second / 86400) (second % 86400).toNat
          (clock.nano + leap * 1000000000) with
      | some t => .ok t
      | none => .error .impossible

/-- The time that a text writes. -/
def Instant.parse (s : String) : Except ParseFault Instant := do
  let fields : Reading (CivilDay × ClockTime × Int) := do
    let day ← readCivilDay
    readMark fun c => c = 'T' || c = 't' || c = ' '
    let clock ← readClockTime
    let offset ← readOffset
    readEnd
    return (day, clock, offset)
  let ((day, clock, offset), _) ← fields s.toList
  Instant.ofClock day clock offset

/-- The day that a text writes. -/
def Date.parse (s : String) : Except ParseFault Date := do
  let fields : Reading CivilDay := do
    let day ← readCivilDay
    readEnd
    return day
  let (day, _) ← fields s.toList
  match Date.ofCivil? day with
  | some date => .ok date
  | none => .error .outOfRange

end Pulse.Time
