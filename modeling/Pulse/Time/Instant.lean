import Pulse.Time.Date

/-!
# Instants

A moment of universal time: a day, a second of the day and nanoseconds.  A leap second is kept as
the second before it with more than a whole second of nanoseconds, so it can only stand at the end
of a minute.  Distances are whole nanoseconds, `Span`.

* `Instant.add?` — moving by a span.  A leap second is left in either direction as if it were part
  of the second before or after it; the result fails to exist beyond the ends of the calendar.
* `Instant.since` — the span between two instants, which counts a leap second on the same day.
* The order is that of the written forms: day, second, nanoseconds.
-/

set_option autoImplicit false

namespace Pulse.Time

/-- A distance in time, in nanoseconds. -/
abbrev Span : Type := Int

/-- Nanoseconds in a second. -/
def Span.second : Span := 1000000000

/-- Nanoseconds in a millisecond. -/
def Span.millisecond : Span := 1000000

/-- A distance of whole milliseconds. -/
def Span.ofMillis (ms : Int) : Span := ms * Span.millisecond

/-- A distance of whole days. -/
def Span.ofDays (days : Int) : Span := days * 86400 * Span.second

/-- The whole milliseconds of a distance, cut towards zero. -/
def Span.toMillis (s : Span) : Int := Int.tdiv s Span.millisecond

/-- Why a computation with times stops: its result is no moment of the calendar, or no span. -/
inductive OutOfRange where
  | outOfRange
deriving DecidableEq, Repr

/-- A result, unless the computation left the calendar or the spans. -/
abbrev Checked : Type → Type := Except OutOfRange

/-- Insists on a result. -/
def require {α : Type} : Option α → Checked α
  | some a => .ok a
  | none => .error .outOfRange

/-- A moment of universal time. -/
structure Instant where
  day : Int
  second : Nat
  nano : Nat
  first_le : firstDay ≤ day := by decide
  le_last : day ≤ lastDay := by decide
  second_lt : second < 86400 := by decide
  nano_lt : nano < 2000000000 := by decide
  /-- Only the last second of a minute can be followed by a leap second. -/
  leap : nano < 1000000000 ∨ second % 60 = 59 := by decide

namespace Instant

theorem eq_iff {s t : Instant} : s = t ↔ s.day = t.day ∧ s.second = t.second ∧ s.nano = t.nano := by
  cases s
  cases t
  simp

instance : DecidableEq Instant := fun _ _ =>
  decidable_of_iff _ eq_iff.symm

/-- The moment with the given parts, if they are in range. -/
def ofParts? (day : Int) (second nano : Nat) : Option Instant :=
  if h : (firstDay ≤ day ∧ day ≤ lastDay) ∧ second < 86400 ∧ nano < 2000000000 ∧
      (nano < 1000000000 ∨ second % 60 = 59) then
    some ⟨day, second, nano, h.1.1, h.1.2, h.2.1, h.2.2.1, h.2.2.2⟩
  else none

/-- The first moment of a day. -/
def ofDate (d : Date) : Instant :=
  ⟨d.number, 0, 0, d.first_le, d.le_last, by decide, by decide, Or.inl (by decide)⟩

instance : Inhabited Instant := ⟨ofDate default⟩

/-- The day of a moment. -/
def date (t : Instant) : Date :=
  ⟨t.day, t.first_le, t.le_last⟩

/-- The moment is a leap second. -/
def isLeap (t : Instant) : Bool :=
  1000000000 ≤ t.nano

/-! ## Order -/

/-- `s` is before `t`. -/
def before (s t : Instant) : Bool :=
  s.day < t.day
    || (s.day = t.day && (s.second < t.second || (s.second = t.second && s.nano < t.nano)))

instance : LT Instant := ⟨fun s t => before s t = true⟩

instance : LE Instant := ⟨fun s t => before t s = false⟩

instance (s t : Instant) : Decidable (s < t) :=
  inferInstanceAs (Decidable (before s t = true))

instance (s t : Instant) : Decidable (s ≤ t) :=
  inferInstanceAs (Decidable (before t s = false))

/-- The later of two moments. -/
def latest (s t : Instant) : Instant :=
  if s < t then t else s

/-- The earlier of two moments. -/
def earliest (s t : Instant) : Instant :=
  if t < s then t else s

instance : Max Instant := ⟨latest⟩

instance : Min Instant := ⟨earliest⟩

/-! ## Arithmetic -/

/-- The moment so many seconds and nanoseconds after midnight of `day`; either may be negative or
more than a day. -/
def normalize? (day : Int) (second nano : Int) : Option Instant :=
  let carried := second + nano / 1000000000
  ofParts? (day + carried / 86400) (carried % 86400).toNat (nano % 1000000000).toNat

/-- The moment `s` after `t`.  Within a leap second only its nanoseconds move. -/
def add? (t : Instant) (s : Span) : Option Instant :=
  let seconds := Int.tdiv s Span.second
  let nanos := Int.tmod s Span.second
  if t.isLeap then
    if 0 < seconds ∨ (0 < nanos ∧ 2000000000 ≤ t.nano + nanos) then
      normalize? t.day (t.second + seconds) (t.nano - 1000000000 + nanos)
    else if seconds < 0 then
      normalize? t.day (t.second + 1 + seconds) (t.nano - 1000000000 + nanos)
    else
      ofParts? t.day t.second (t.nano + nanos).toNat
  else
    normalize? t.day (t.second + seconds) (t.nano + nanos)

/-- The moment `s` before `t`. -/
def sub? (t : Instant) (s : Span) : Option Instant :=
  t.add? (-s)

/-- The moment `s` after `t`, which has to exist. -/
def add (t : Instant) (s : Span) : Checked Instant :=
  require (t.add? s)

/-- The moment `s` before `t`, which has to exist. -/
def sub (t : Instant) (s : Span) : Checked Instant :=
  require (t.sub? s)

/-- The span from `s` to `t`.  A leap second counts if it lies between them on the clock face. -/
def since (t s : Instant) : Span :=
  let leap : Int :=
    if s.second < t.second then (if s.isLeap then 1 else 0)
    else if t.second < s.second then (if t.isLeap then -1 else 0)
    else 0
  ((t.day - s.day) * 86400 + (t.second - s.second) + leap) * Span.second + (t.nano - s.nano)

/-! ## Whole milliseconds -/

/-- Milliseconds from the first moment of 1970, rounded down.  A leap second counts into the second
that follows it. -/
def toMillis (t : Instant) : Int :=
  (t.day * 86400 + t.second) * 1000 + t.nano / 1000000

/-- The moment so many milliseconds after the first of 1970. -/
def ofMillis? (ms : Int) : Option Instant :=
  normalize? 0 (ms / 1000) (ms % 1000 * 1000000)

/-- The last whole millisecond of the calendar. -/
def last : Instant :=
  { day := lastDay, second := 86399, nano := 999000000 }

/-- The moment so many milliseconds after the first of 1970.  What counts beyond the calendar, as
the milliseconds of a leap second at its very end do, stands for its last moment. -/
def ofMillis (ms : Int) : Instant :=
  (ofMillis? ms).getD last

end Instant

end Pulse.Time
