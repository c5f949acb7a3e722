import Pulse.Decimal.Layout

/-!
# Socket addresses

The address that the service listens on: four bytes and a port (`127.0.0.1:8080`), or eight groups
of four hexadecimal digits in brackets, an optional zone, and a port (`[::1]:8080`).

`SocketAddress.parse?` reads the usual notations.  Bytes have no leading zeros, `::` stands for one
or more groups of zeros, and the last two groups may be written as four bytes.
`SocketAddress.text` writes the shortest of them, in which `::` replaces the first of the longest
runs of at least two groups of zeros.
-/

set_option autoImplicit false

namespace Pulse

/-- Where a service listens. -/
inductive SocketAddress where
  | v4 (bytes : List Nat) (port : Nat)
  | v6 (groups : List Nat) (zone : Nat) (port : Nat)
deriving DecidableEq, Repr

namespace SocketAddress

/-! ## Reading -/

/-- Reading off the front of a text, or failing without having read anything. -/
abbrev Reading : Type → Type := StateT (List Char) Option

/-- The value of a digit in a base up to sixteen. -/
def digit? (base : Nat) (c : Char) : Option Nat :=
  let n := c.toNat
  let d :=
    if 48 ≤ n ∧ n ≤ 57 then n - 48
    else if 97 ≤ n ∧ n ≤ 102 then n - 87
    else if 65 ≤ n ∧ n ≤ 70 then n - 55
    else base
  if d < base then some d else none

/-- All the digits in front. -/
def readDigits (base : Nat) : Reading (List Nat) := fun s =>
  let digits := s.takeWhile fun c => (digit? base c).isSome
  some (digits.filterMap (digit? base), s.drop digits.length)

/-- A number up to `max`, written in at most `most` digits. -/
def readNumber (base max : Nat) (most : Option Nat) (leadingZeros : Bool) : Reading Nat := do
  let digits ← readDigits base
  let n := digits.foldl (fun n d => base * n + d) 0
  if digits.isEmpty then failure
  if (most.any fun m => m < digits.length) then failure
  if !leadingZeros && digits.head? == some 0 && 1 < digits.length then failure
  if max < n then failure
  return n

/-- One given character. -/
def readMark (c : Char) : Reading Unit
  | a :: rest => if a = c then some ((), rest) else none
  | [] => none

/-- Four bytes with points between them. -/
def readBytes : Reading (List Nat) := do
  let byte := readNumber 10 255 (some 3) false
  let a ← byte
  readMark '.'
  let b ← byte
  readMark '.'
  let c ← byte
  readMark '.'
  let d ← byte
  return [a, b, c, d]

/-- A colon, unless this is the first group. -/
def readColon (first : Bool) : Reading Unit :=
  if first then pure () else readMark ':'

/-- Two groups written as four bytes. -/
def readEmbedded (first : Bool) : Reading (List Nat) := do
  readColon first
  match ← readBytes with
  | [a, b, c, d] => return [a * 256 + b, c * 256 + d]
  | _ => failure

/-- One group of hexadecimal digits. -/
def readGroup (first : Bool) : Reading Nat := do
  readColon first
  readNumber 16 65535 (some 4) true

/-- At most `room` groups with colons between them, the last two of which may be four bytes; the
flag tells whether they are. -/
def readGroups : (room : Nat) → (first : Bool) → List Char → (List Nat × Bool) × List Char
  | 0, _, s => (([], false), s)
  | room + 1, first, s =>
    match (if 0 < room then readEmbedded first s else none) with
    | some (groups, rest) => ((groups, true), rest)
    | none =>
      match readGroup first s with
      | some (g, rest) =>
        let ((groups, embedded), rest) := readGroups room false rest
        ((g :: groups, embedded), rest)
      | none => (([], false), s)

/-- Eight groups, some of which may be left out for `::`. -/
def readAllGroups : Reading (List Nat) := fun s =>
  match readGroups 8 true s with
  | ((head, embedded), rest) =>
    if head.length = 8 then some (head, rest)
    else if embedded then none
    else
      match rest with
      | ':' :: ':' :: rest =>
        let ((tail, _), rest) := readGroups (7 - head.length) true rest
        some (head ++ List.replicate (8 - head.length - tail.length) 0 ++ tail, rest)
      | _ => none

/-- The zone behind a percent sign, or zone `0`. -/
def readZone : Reading Nat := fun s =>
  match (do readMark '%'; readNumber 10 4294967295 none true : Reading Nat) s with
  | some found => some found
  | none => some (0, s)

/-- The port behind a colon. -/
def readPort : Reading Nat := do
  readMark ':'
  readNumber 10 65535 none true

/-- An address of four bytes. -/
def readV4 : Reading SocketAddress := do
  let bytes ← readBytes
  return .v4 bytes (← readPort)

/-- An address of eight groups. -/
def readV6 : Reading SocketAddress := do
  readMark '['
  let groups ← readAllGroups
  let zone ← readZone
  readMark ']'
  return .v6 groups zone (← readPort)

/-- The address that a text writes. -/
def parse? (s : String) : Option SocketAddress :=
  match (readV4 s.toList).orElse fun _ => readV6 s.toList with
  | some (address, []) => some address
  | _ => none

/-! ## Writing -/

/-- Bytes with points between them. -/
def bytesText (bytes : List Nat) : String :=
  ".".intercalate (bytes.map Decimal.natText)

/-- Groups in hexadecimal with colons between them. -/
def groupsText (groups : List Nat) : String :=
  ":".intercalate (groups.map fun g => String.ofList (Nat.toDigits 16 g))

/-- The start and the length of the first of the longest runs of zeros, from place `i` on. -/
def longestZeros (i : Nat) : List Nat → Nat × Nat
  | [] => (i, 0)
  | g :: rest =>
    let run := ((g :: rest).takeWhile (· = 0)).length
    let (start, length) := longestZeros (i + 1) rest
    if run ≠ 0 ∧ length ≤ run then (i, run) else (start, length)

/-- Eight groups in the shortest notation. -/
def groupsShort : List Nat → String
  | [0, 0, 0, 0, 0, 65535, a, b] =>
    "::ffff:" ++ bytesText [a / 256, a % 256, b / 256, b % 256]
  | groups =>
    let (start, length) := longestZeros 0 groups
    if 1 < length then
      groupsText (groups.take start) ++ "::" ++ groupsText (groups.drop (start + length))
    else groupsText groups

/-- The address in its shortest notation. -/
def text : SocketAddress → String
  | .v4 bytes port => bytesText bytes ++ ":" ++ Decimal.natText port
  | .v6 groups zone port =>
    "[" ++ groupsShort groups ++ (if zone = 0 then "" else "%" ++ Decimal.natText zone) ++ "]:"
      ++ Decimal.natText port

end SocketAddress

end Pulse
