import Pulse.Text.Utf8

/-!
# Percent escapes

In a path, `%` and two hexadecimal digits stand for a byte.  A `%` that two such digits do not
follow stands for itself.
-/

set_option autoImplicit false

namespace Pulse.Text.Percent

/-- The value of a hexadecimal digit in either case. -/
def hexDigit? (b : UInt8) : Option Nat :=
  let n := b.toNat
  if 48 ≤ n ∧ n ≤ 57 then some (n - 48)
  else if 65 ≤ n ∧ n ≤ 70 then some (n - 55)
  else if 97 ≤ n ∧ n ≤ 102 then some (n - 87)
  else none

/-- The byte that two hexadecimal digits stand for. -/
def escaped? (high low : UInt8) : Option UInt8 := do
  return UInt8.ofNat ((← hexDigit? high) * 16 + (← hexDigit? low))

/-- The bytes that escaped bytes stand for. -/
def decodeBytes : List UInt8 → List UInt8
  | [] => []
  | 37 :: high :: low :: rest =>
    match escaped? high low with
    | some b => b :: decodeBytes rest
    | none => 37 :: decodeBytes (high :: low :: rest)
  | b :: rest => b :: decodeBytes rest

/-- The text that escaped text stands for, if it is text. -/
def decode? (s : String) : Option String :=
  Utf8.decode? (decodeBytes (Utf8.encode s))

end Pulse.Text.Percent
