import Pulse.Decimal.Rounding

/-!
# Numbers as text

Three ways in which a double is written.

* `jsonText` — in documents.  A point is always there (`1.0`), sizes from `1e-5` up to but not
  including `1e16` are written out, others with a signed exponent (`1e+16`, `1.5e-7`); there is no
  text for infinities and for what is not a number.
* `plainText` — in messages.  All digits are written out, whole numbers without a point (`-0`,
  `0.1`, `NaN`, `inf`).
* `fixedText` — in the log.  A set number of places.
-/

set_option autoImplicit false

namespace Pulse.Decimal

/-- `n` zeros. -/
def zeros (n : Nat) : String :=
  String.ofList (List.replicate n '0')

/-- The digits of a natural number. -/
def natText (n : Nat) : String :=
  String.ofList (Nat.toDigits 10 n)

/-- The digits of an integer, after a minus if it is negative. -/
def intText (n : Int) : String :=
  if n < 0 then "-" ++ natText n.natAbs else natText n.natAbs

/-- The number written out; `whole` follows the digits if there is nothing behind the point. -/
def Digits.positional (d : Digits) (whole : String) : String :=
  let digits := Nat.toDigits 10 d.coefficient
  let before : Int := digits.length + d.exponent
  if 0 ≤ d.exponent then
    String.ofList digits ++ zeros d.exponent.toNat ++ whole
  else if 0 < before then
    String.ofList (digits.take before.toNat) ++ "." ++ String.ofList (digits.drop before.toNat)
  else
    "0." ++ zeros (-before).toNat ++ String.ofList digits

/-- One digit before the point, and the power of ten. -/
def Digits.scientific (d : Digits) : String :=
  let digits := Nat.toDigits 10 d.coefficient
  let power : Int := digits.length + d.exponent - 1
  let mantissa := String.ofList (digits.take 1)
    ++ (if digits.length = 1 then "" else "." ++ String.ofList (digits.drop 1))
  mantissa ++ (if power < 0 then "e-" else "e+") ++ natText power.natAbs

/-- Written out from `1e-5` up to `1e16`, else with an exponent. -/
def Digits.jsonText (d : Digits) : String :=
  let power : Int := (Nat.toDigits 10 d.coefficient).length + d.exponent - 1
  if -5 ≤ power ∧ power < 16 then d.positional ".0" else d.scientific

/-- Puts a minus in front of the text of a size. -/
def signed (x : Float) (text : String) : String :=
  if isNegative x then "-" ++ text else text

/-- The text of a double in a document; `none` if it is no finite number. -/
def jsonText (x : Float) : Option String :=
  match magnitude x with
  | .zero => some (signed x "0.0")
  | .finite b => some (signed x (b.shortest .toEven).jsonText)
  | .infinite | .notANumber => none

/-- The text of a double in a message. -/
def plainText (x : Float) : String :=
  match magnitude x with
  | .zero => signed x "0"
  | .finite b => signed x ((b.shortest .upwards).positional "")
  | .infinite => signed x "inf"
  | .notANumber => "NaN"

/-- `n` as a number with `places` digits behind the point. -/
def pointed (places n : Nat) : String :=
  let digits := Nat.toDigits 10 n
  let padded := List.replicate (places + 1 - digits.length) '0' ++ digits
  String.ofList (padded.take (padded.length - places)) ++ "."
    ++ String.ofList (padded.drop (padded.length - places))

/-- The text of a double with `places` digits behind the point, rounded to the nearest. -/
def fixedText (places : Nat) (x : Float) : String :=
  match magnitude x with
  | .zero => signed x (pointed places 0)
  | .finite b => signed x (pointed places (b.roundedTo places))
  | .infinite => signed x "inf"
  | .notANumber => "NaN"

end Pulse.Decimal
