import Pulse.Decimal.Layout

/-!
# Numbers in documents

A number in a document is an integer if it is written as one and fits 64 bits, else a double.

Doubles are read by one rule that is cheap and not always the nearest double: the digits are
collected into a whole number as long as it fits 64 bits, further digits only move the point, and
the whole number is converted and then multiplied or divided *once* by a power of ten
(`scaled`).  So `0.1` is read exactly and a double written with seventeen digits may come back as
its neighbour.  A size beyond the doubles is refused.
-/

set_option autoImplicit false

namespace Pulse.Json

/-- A number in a document. -/
inductive Number where
  /-- A whole number below `2 ^ 64`. -/
  | natural (n : Nat)
  /-- A negative integer from `-2 ^ 63`. -/
  | negative (n : Int)
  | real (x : Float)

/-- A number as it is written, in digit values. -/
structure Numeral where
  negative : Bool
  whole : List Nat
  /-- The digits behind the point, none if there is no point. -/
  fraction : List Nat
  /-- There is a point or an exponent. -/
  isReal : Bool
  exponentNegative : Bool
  exponent : List Nat

/-- The largest number that fits 64 bits. -/
def wordMax : Nat := 18446744073709551615

/-- Appends digits to `n` as long as it stays within 64 bits, and returns those left over. -/
def collect (n : Nat) : List Nat → Nat × List Nat
  | [] => (n, [])
  | d :: rest => if 10 * n + d ≤ wordMax then collect (10 * n + d) rest else (n, d :: rest)

/-- The double nearest to `10 ^ e`. -/
def powerOfTen (e : Nat) : Float :=
  Float.ofScientific 1 false e

/-- The double nearest to a whole number. -/
def ofWhole (n : Nat) : Float :=
  Float.ofScientific n false 0

/-- `n * 10 ^ e` by one multiplication or division of doubles, by two divisions if the power is
beyond the doubles; `none` if the result would be infinite. -/
def scaled (n : Nat) (e : Int) : Option Float :=
  let x := ofWhole n
  if n = 0 then some x
  else if 308 < e then none
  else if 0 ≤ e then
    let y := x * powerOfTen e.toNat
    if y.isInf then none else some y
  else if -308 ≤ e then some (x / powerOfTen (-e).toNat)
  else if -616 ≤ e then some (x / powerOfTen 308 / powerOfTen (-e - 308).toNat)
  else some 0.0

/-- The value of a row of digits. -/
def digitsToNat (ds : List Nat) : Nat :=
  ds.foldl (fun n d => 10 * n + d) 0

/-- Exponents beyond this are not computed with. -/
def exponentMax : Nat := 2147483647

/-- The double that a numeral names; `none` if it is beyond the doubles. -/
def Numeral.real? (t : Numeral) : Option Float :=
  let (n, overflow) := collect 0 t.whole
  let (n, ignored) := collect n t.fraction
  let point : Int := overflow.length - (t.fraction.length - ignored.length : Nat)
  let power := digitsToNat t.exponent
  let size :=
    if exponentMax < power then
      if n ≠ 0 ∧ !t.exponentNegative then none else some 0.0
    else scaled n (if t.exponentNegative then point - power else point + power)
  size.map fun x => if t.negative then -x else x

/-- The number that a numeral names; `none` if it is beyond the doubles. -/
def Numeral.value? (t : Numeral) : Option Number :=
  let n := digitsToNat t.whole
  if t.isReal then t.real?.map .real
  else if t.negative then
    if 0 < n ∧ n ≤ 9223372036854775808 then some (.negative (-(n : Int))) else t.real?.map .real
  else if n ≤ wordMax then some (.natural n)
  else t.real?.map .real

/-- The double nearest to a number. -/
def Number.toFloat : Number → Float
  | .natural n => ofWhole n
  | .negative n => -ofWhole n.natAbs
  | .real x => x

/-- The number as documents write it; what is no finite number becomes `null`. -/
def Number.text : Number → String
  | .natural n => Decimal.natText n
  | .negative n => Decimal.intText n
  | .real x => (Decimal.jsonText x).getD "null"

end Pulse.Json
