import Pulse.Decimal.Shortest

/-!
# Rounding doubles

A double is rounded on its exact value, to a set number of decimal places or to an integer.  A half
goes to the even neighbour in the first case (`Binary.roundedTo`) and away from zero in the second
(`toInteger`).
-/

set_option autoImplicit false

namespace Pulse.Decimal

/-- `num / den` to the nearest whole number; a half goes to the even one. -/
def roundDiv (num den : Nat) : Nat :=
  let q := num / den
  match compare (2 * (num % den)) den with
  | .lt => q
  | .gt => q + 1
  | .eq => if q % 2 = 0 then q else q + 1

/-- `b * 10 ^ places` to the nearest whole number; a half goes to the even one. -/
def Binary.roundedTo (b : Binary) (places : Nat) : Nat :=
  roundDiv (b.mantissa * Nat.pow 2 b.exponent.toNat * Nat.pow 10 places)
    (Nat.pow 2 (-b.exponent).toNat)

/-- `b` to the nearest whole number; a half goes to the greater one. -/
def Binary.roundedUp (b : Binary) : Nat :=
  let den := Nat.pow 2 (-b.exponent).toNat
  (2 * (b.mantissa * Nat.pow 2 b.exponent.toNat) + den) / (2 * den)

/-- The least integer of 64 bits. -/
def integerMin : Int := -9223372036854775808

/-- The greatest integer of 64 bits. -/
def integerMax : Int := 9223372036854775807

/-- `n` or the nearer end of the integers of 64 bits. -/
def clamp (n : Int) : Int :=
  max integerMin (min integerMax n)

/-- The integer of 64 bits nearest to a double, a half away from zero; zero for what is not a
number. -/
def toInteger (x : Float) : Int :=
  match magnitude x with
  | .zero | .notANumber => 0
  | .infinite => if isNegative x then integerMin else integerMax
  | .finite b => clamp (if isNegative x then -(b.roundedUp : Int) else b.roundedUp)

end Pulse.Decimal
