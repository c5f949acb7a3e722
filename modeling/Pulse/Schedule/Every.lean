import Pulse.Decimal.Layout
import Pulse.Text.Blank
import Pulse.Text.DecimalDigit

/-!
# Fixed periods

`@every 1m30s` fires again and again after one minute and thirty seconds.  The period is written as
one or more parts, each a whole number and a unit of milliseconds (`ms`), seconds (`s`), minutes
(`m`) or hours (`h`), and is the sum of its parts.

`splitParts` cuts the text into parts, `total` adds them up and `Period.parse` admits the sums that
are positive and fit 64 bits of milliseconds.
-/

set_option autoImplicit false

namespace Pulse.Schedule

open Pulse.Text (isDecimalDigit digitValue)

/-! ## Parts -/

/-- The unit of a part. -/
inductive TimeUnit where
  | millisecond
  | second
  | minute
  | hour
deriving DecidableEq, Repr

/-- How many milliseconds a unit has. -/
def TimeUnit.millis : TimeUnit → Nat
  | .millisecond => 1
  | .second => 1000
  | .minute => 60000
  | .hour => 3600000

/-- A number and its unit. -/
structure Part where
  digits : List Char
  unit : TimeUnit
deriving DecidableEq, Repr

/-- The parts of a text that starts within the digits of a part, of which `digits` are read already,
the last of them first.  Digits of all scripts count as digits here. -/
def splitFrom : (digits : List Char) → List Char → Option (List Part)
  | [], [] => some []
  | _ :: _, [] => none
  | digits, c :: rest =>
    if isDecimalDigit c then splitFrom (c :: digits) rest
    else if digits.isEmpty then none
    else if c = 'h' then (splitFrom [] rest).map (⟨digits.reverse, .hour⟩ :: ·)
    else if c = 's' then (splitFrom [] rest).map (⟨digits.reverse, .second⟩ :: ·)
    else if c = 'm' then
      match rest with
      | 's' :: rest => (splitFrom [] rest).map (⟨digits.reverse, .millisecond⟩ :: ·)
      | rest => (splitFrom [] rest).map (⟨digits.reverse, .minute⟩ :: ·)
    else none

/-- The parts of a text; `none` if it is not made of parts, or of none. -/
def splitParts (s : List Char) : Option (List Part) :=
  match splitFrom [] s with
  | some [] => none
  | parts => parts

/-! ## Sums -/

/-- Why a text is no period. -/
inductive PeriodFault where
  | shape
  /-- The number of a part has a digit that is not an ASCII digit. -/
  | foreignDigit (digits : List Char)
  /-- The number of a part does not fit 64 bits. -/
  | longNumber (digits : List Char)
  | tooLarge
  | zero
deriving DecidableEq, Repr

/-- The fault in words; `text` is the written period. -/
def PeriodFault.message (text : String) : PeriodFault → String
  | .shape => s!"expected a duration such as 10s or 1m30s, got '{text}'"
  | .foreignDigit digits =>
    s!"invalid amount '{String.ofList digits}': invalid digit found in string"
  | .longNumber digits =>
    s!"invalid amount '{String.ofList digits}': number too large to fit in target type"
  | .tooLarge => s!"interval '{text}' is too large"
  | .zero => "interval must be positive"

/-- The largest whole number of 64 bits. -/
def amountMax : Nat := 18446744073709551615

/-- The number that ASCII digits write after `n`, as long as it fits 64 bits. -/
def readAmount (all : List Char) (n : Nat) : List Char → Except PeriodFault Nat
  | [] => .ok n
  | c :: rest =>
    if !c.isDigit then .error (.foreignDigit all)
    else if amountMax < 10 * n + digitValue c then .error (.longNumber all)
    else readAmount all (10 * n + digitValue c) rest

/-- Minutes and hours are admitted as long as their seconds fit 64 bits. -/
def Part.seconds (unit : TimeUnit) (amount : Nat) : Nat :=
  match unit with
  | .millisecond => 0
  | .second => amount
  | .minute => amount * 60
  | .hour => amount * 3600

/-- The milliseconds of the parts after a sum of `sum`; each partial sum has to fit 64 bits of
seconds. -/
def total (sum : Nat) : List Part → Except PeriodFault Nat
  | [] => .ok sum
  | part :: rest => do
    let amount ← readAmount part.digits 0 part.digits
    if amountMax < Part.seconds part.unit amount then throw .tooLarge
    let sum := sum + amount * part.unit.millis
    if amountMax < sum / 1000 then throw .tooLarge
    total sum rest

/-- The largest period, in milliseconds. -/
def periodMax : Nat := 9223372036854775807

/-- A fixed time between fires, in milliseconds. -/
structure Period where
  millis : Nat
  positive : 0 < millis
  fits : millis ≤ periodMax
deriving DecidableEq, Repr

/-- The period that a text writes. -/
def Period.parse (s : List Char) : Except PeriodFault Period :=
  match splitParts s with
  | none => .error .shape
  | some parts =>
    match total 0 parts with
    | .error fault => .error fault
    | .ok millis =>
      if positive : 0 < millis then
        if fits : millis ≤ periodMax then .ok ⟨millis, positive, fits⟩ else .error .tooLarge
      else .error .zero

end Pulse.Schedule
