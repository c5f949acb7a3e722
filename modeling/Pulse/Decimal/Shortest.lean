/-!
# The fewest digits that name a double

A finite double is `mantissa * 2 ^ exponent` with whole numbers, and the reals that round to it form
an interval around it.  Its *shortest name* is the decimal with the fewest digits inside that
interval, and of two such decimals the nearer one.

* `Binary` — the exact value of a finite double, read off its bits by `magnitude`.
* `Binary.readsAs` — the decimal `d` lies in the interval, so reading it gives the double back.
  The ends belong to the interval exactly if the mantissa is even.
* `shortest` — the search: for one digit, two digits, … it looks at the two neighbours of the value
  on the grid of decimals with that many digits, and stops at the first that reads back.

Everything is exact arithmetic on naturals.  If a point of a grid lies in the interval, so does one
of the two neighbours of the value on it, which is why two candidates per grid are enough;
seventeen digits always are.
-/

set_option autoImplicit false

namespace Pulse.Decimal

/-! ## Decimals and doubles -/

/-- The number `coefficient * 10 ^ exponent`. -/
structure Digits where
  coefficient : Nat
  exponent : Int
deriving DecidableEq, Repr, Inhabited

/-- The size of a finite double other than zero, `mantissa * 2 ^ exponent`. -/
structure Binary where
  mantissa : Nat
  exponent : Int
  /-- The double below is half as far away as the double above: at powers of two. -/
  narrowBelow : Bool
deriving DecidableEq, Repr

/-- What the size of a double can be. -/
inductive Magnitude where
  | zero
  | finite (size : Binary)
  | infinite
  | notANumber
deriving DecidableEq, Repr

/-- The sign bit is set, as it is in negative zero. -/
def isNegative (x : Float) : Bool :=
  x.toBits >>> 63 == 1

/-- The size of a double, exactly. -/
def magnitude (x : Float) : Magnitude :=
  let bits := x.toBits.toNat
  let biased : Nat := bits / Nat.pow 2 52 % Nat.pow 2 11
  let fraction := bits % Nat.pow 2 52
  if biased = 2047 then
    if fraction = 0 then .infinite else .notANumber
  else if biased = 0 then
    if fraction = 0 then .zero else .finite ⟨fraction, -1074, false⟩
  else
    .finite ⟨Nat.pow 2 52 + fraction, Int.ofNat biased - 1075, fraction = 0 && 1 < biased⟩

/-! ## Exact comparisons -/

/-- Compares `c * 10 ^ g` with `n * 2 ^ j`. -/
def compareScaled (c : Nat) (g : Int) (n : Nat) (j : Int) : Ordering :=
  compare (c * Nat.pow 10 g.toNat * Nat.pow 2 (-j).toNat)
    (n * Nat.pow 2 j.toNat * Nat.pow 10 (-g).toNat)

/-- The decimal `d` is among the reals that round to `b`; a real halfway between two doubles rounds
to the one with the even mantissa. -/
def Binary.readsAs (b : Binary) (d : Digits) : Bool :=
  let below := if b.narrowBelow then 4 * b.mantissa - 1 else 4 * b.mantissa - 2
  let above := 4 * b.mantissa + 2
  let closed := b.mantissa % 2 = 0
  (match compareScaled d.coefficient d.exponent below (b.exponent - 2) with
    | .gt => true
    | .eq => closed
    | .lt => false) &&
  (match compareScaled d.coefficient d.exponent above (b.exponent - 2) with
    | .lt => true
    | .eq => closed
    | .gt => false)

/-! ## The search -/

/-- How many decimal digits `n` has, and `0` for zero; `fuel` is at least that number. -/
def countDigits : (fuel : Nat) → Nat → Nat
  | 0, _ => 0
  | fuel + 1, n => if n = 0 then 0 else countDigits fuel (n / 10) + 1

/-- How many decimal digits `n` has, and `0` for zero. -/
def width (n : Nat) : Nat :=
  countDigits (n.log2 + 1) n

/-- The least `k` with `b < 10 ^ k`: where the point stands relative to the first digit. -/
def Binary.scale (b : Binary) : Int :=
  let num := b.mantissa * Nat.pow 2 b.exponent.toNat
  let den := Nat.pow 2 (-b.exponent).toNat
  if den ≤ num then (width (num / den) : Int) else 1 - (width ((den - 1) / num) : Int)

/-- The greatest `c` with `c * 10 ^ g ≤ b`. -/
def Binary.floorOn (b : Binary) (g : Int) : Nat :=
  b.mantissa * Nat.pow 2 b.exponent.toNat * Nat.pow 10 (-g).toNat
    / (Nat.pow 2 (-b.exponent).toNat * Nat.pow 10 g.toNat)

/-- Which of two equally near decimals is taken. -/
inductive Tie where
  | toEven
  | upwards
deriving DecidableEq, Repr

/-- The nearer of `c * 10 ^ g` and `(c + 1) * 10 ^ g`, between which `b` lies. -/
def Binary.nearer (b : Binary) (tie : Tie) (c : Nat) (g : Int) : Nat :=
  match compareScaled (2 * c + 1) g (2 * b.mantissa) b.exponent with
  | .lt => c + 1
  | .gt => c
  | .eq =>
    match tie with
    | .upwards => c + 1
    | .toEven => if c % 2 = 0 then c else c + 1

/-- The best decimal on the grid of multiples of `10 ^ g`, if one of them reads back. -/
def Binary.onGrid (b : Binary) (tie : Tie) (g : Int) : Option Digits :=
  let c := b.floorOn g
  match b.readsAs ⟨c, g⟩, b.readsAs ⟨c + 1, g⟩ with
  | true, true => some ⟨b.nearer tie c g, g⟩
  | true, false => some ⟨c, g⟩
  | false, true => some ⟨c + 1, g⟩
  | false, false => none

/-- The value itself as a decimal. -/
def Binary.exactly (b : Binary) : Digits :=
  if b.exponent < 0 then ⟨b.mantissa * Nat.pow 5 (-b.exponent).toNat, b.exponent⟩
  else ⟨b.mantissa * Nat.pow 2 b.exponent.toNat, 0⟩

/-- Moves at most `fuel` trailing zeros from the coefficient to the exponent. -/
def Digits.dropZeros : (fuel : Nat) → Digits → Digits
  | 0, d => d
  | fuel + 1, d =>
    if d.coefficient ≠ 0 ∧ d.coefficient % 10 = 0 then
      Digits.dropZeros fuel ⟨d.coefficient / 10, d.exponent + 1⟩
    else d

/-- The fewest digits that read back as `b`. -/
def Binary.shortest (b : Binary) (tie : Tie) : Digits :=
  let found := (List.range 17).findSome? fun n => b.onGrid tie (b.scale - 1 - Int.ofNat n)
  (found.getD b.exactly).dropZeros 20

end Pulse.Decimal
