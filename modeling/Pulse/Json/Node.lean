import Pulse.Json.Number
import Pulse.Text.Quoted
import Pulse.Text.Utf8

/-!
# Documents as they are met by a reader

A document is read once into a tree of `Node`s in which every fault stands where it occurs, and the
decoders of `Pulse.Json.Decode` walk that tree from left to right until something is wrong.  Which
fault is reported thus depends on what the reader wanted: a number beyond the doubles or half of a
surrogate pair only matters if the value is *used*, and a value of the wrong kind hides all faults
behind it.

So there are two outcomes of reading a value: what it is when it is used, in the node, and whether
one can pass over it, which `Member.skipped` records for the members of an object.
-/

set_option autoImplicit false

namespace Pulse.Json

/-! ## Faults -/

/-- Why well-formed text is not the value that was wanted. -/
inductive Mismatch where
  /-- A value of another kind. -/
  | kind (found expected : String)
  /-- A value of the right kind and out of range. -/
  | value (found expected : String)
  | length (found : Nat) (expected : String)
  | missing (field : String)
  | duplicate (field : String)
  | variant (found : String) (known : List String)
  /-- The text of a value in a notation of its own, a time or an address. -/
  | unreadable (message : String)

/-- The names of the alternatives, as a message lists them. -/
def alternatives : List String → String
  | [] => "there are no variants"
  | [a] => s!"expected `{a}`"
  | [a, b] => s!"expected `{a}` or `{b}`"
  | many => "expected one of " ++ ", ".intercalate (many.map fun a => s!"`{a}`")

/-- The mismatch in words. -/
def Mismatch.message : Mismatch → String
  | .kind found expected => s!"invalid type: {found}, expected {expected}"
  | .value found expected => s!"invalid value: {found}, expected {expected}"
  | .length found expected => s!"invalid length {found}, expected {expected}"
  | .missing field => s!"missing field `{field}`"
  | .duplicate field => s!"duplicate field `{field}`"
  | .variant found known => s!"unknown variant `{found}`, {alternatives known}"
  | .unreadable message => message

/-- One step from a value to a value inside it. -/
inductive Step where
  | field (name : String)
  | index (i : Nat)
deriving DecidableEq, Repr

/-- Why a document cannot be read. -/
inductive Fault where
  /-- The text breaks the grammar. -/
  | malformed
  /-- The text ends too early. -/
  | truncated
  /-- The text is a document, but the value at `path` is not what was wanted. -/
  | mismatch (path : List Step) (cause : Mismatch)

/-- The place of a value, as messages show it; empty for the whole document. -/
def pathText (path : List Step) : String :=
  path.foldl (fun text step => text ++ (match step with
    | .field name => if text.isEmpty then name else "." ++ name
    | .index i => "[" ++ Decimal.natText i ++ "]")) ""

/-- A mismatch of the value at hand. -/
def Mismatch.fault (cause : Mismatch) : Fault :=
  .mismatch [] cause

/-- The fault, seen from the value around. -/
def Fault.under (step : Step) : Fault → Fault
  | .mismatch path cause => .mismatch (step :: path) cause
  | f => f

/-! ## The tree -/

/-- A value without parts. -/
inductive Scalar where
  | null
  | bool (b : Bool)
  | number (n : Number)
  | text (s : String)

/-- How an array or an object ends. -/
inductive Close where
  /-- With its bracket. -/
  | closed
  /-- The value has been read before, and a decoder is given only a part of it. -/
  | kept
  /-- The value never was text. -/
  | inMemory
  /-- Neither bracket nor comma where one of them has to be. -/
  | missing (f : Fault)
  /-- A comma and then nothing that could follow it. -/
  | dangling (f : Fault)

/-- The fault of a reader that wants to read on. -/
def Close.fault : Close → Option Fault
  | .closed | .kept | .inMemory => none
  | .missing f | .dangling f => some f

mutual

/-- A value in a document.  Containers know how many containers are around them. -/
inductive Node where
  | scalar (value : Except Fault Scalar)
  | array (depth : Nat) (items : List Node) (close : Close)
  | object (depth : Nat) (members : List Member) (close : Close)

/-- A member of an object: its key, its value, and the fault met in passing over the value. -/
inductive Member where
  | mk (key : Except Fault String) (value : Node) (skipped : Option Fault)

end

instance : Inhabited Node := ⟨.scalar (.ok .null)⟩

/-- The key, or the fault met in reading it. -/
def Member.key : Member → Except Fault String
  | .mk key _ _ => key

/-- The value behind the key. -/
def Member.value : Member → Node
  | .mk _ value _ => value

/-- The fault met in passing over the value. -/
def Member.skipped : Member → Option Fault
  | .mk _ _ skipped => skipped

/-- Values within this many containers are refused when they are kept. -/
def maxDepth : Nat := 127

mutual

/-- The first fault met in keeping a whole value. -/
def Node.flaw : Node → Option Fault
  | .scalar (.error f) => some f
  | .scalar (.ok _) => none
  | .array depth items close =>
    if maxDepth ≤ depth then some .malformed else (itemsFlaw items).or close.fault
  | .object depth members close =>
    if maxDepth ≤ depth then some .malformed else (membersFlaw members).or close.fault

/-- The first fault met in keeping the items of an array. -/
def itemsFlaw : List Node → Option Fault
  | [] => none
  | item :: rest => item.flaw.or (itemsFlaw rest)

/-- The first fault met in keeping the members of an object. -/
def membersFlaw : List Member → Option Fault
  | [] => none
  | .mk (.error f) _ _ :: _ => some f
  | .mk (.ok _) value _ :: rest => value.flaw.or (membersFlaw rest)

end

/-! ## Literals, strings and numbers -/

/-- The bytes that may stand between the parts of a document. -/
def isSpace (b : UInt8) : Bool :=
  b = 0x20 || b = 0x0A || b = 0x09 || b = 0x0D

/-- What follows the blanks. -/
def skipSpace (bytes : List UInt8) : List UInt8 :=
  bytes.dropWhile isSpace

/-- What follows the given bytes. -/
def expectBytes : (expected bytes : List UInt8) → Except Fault (List UInt8)
  | [], bytes => .ok bytes
  | _ :: _, [] => .error .truncated
  | e :: expected, b :: bytes => if b = e then expectBytes expected bytes else .error .malformed

/-- A part of a string. -/
inductive Piece where
  | byte (b : UInt8)
  | escape (b : UInt8)
  /-- A 16-bit unit given by four hexadecimal digits. -/
  | unit (n : Nat)

/-- The byte that stands behind a backslash for another one. -/
def escaped? (b : UInt8) : Option UInt8 :=
  if b = 0x22 ∨ b = 0x5C ∨ b = 0x2F then some b
  else if b = 0x62 then some 0x08
  else if b = 0x66 then some 0x0C
  else if b = 0x6E then some 0x0A
  else if b = 0x72 then some 0x0D
  else if b = 0x74 then some 0x09
  else none

/-- The value of a hexadecimal digit. -/
def hexDigit? (b : UInt8) : Option Nat :=
  let n := b.toNat
  if 48 ≤ n ∧ n ≤ 57 then some (n - 48)
  else if 65 ≤ n ∧ n ≤ 70 then some (n - 55)
  else if 97 ≤ n ∧ n ≤ 102 then some (n - 87)
  else none

/-- The value of four hexadecimal digits. -/
def hexUnit? (a b c d : UInt8) : Option Nat := do
  return (((← hexDigit? a) * 16 + (← hexDigit? b)) * 16 + (← hexDigit? c)) * 16 + (← hexDigit? d)

/-- The pieces of a string after its opening quote, and what follows the closing one. -/
def scanString : List UInt8 → List Piece × Except Fault (List UInt8)
  | [] => ([], .error .truncated)
  | 0x22 :: rest => ([], .ok rest)
  | 0x5C :: [] => ([], .error .truncated)
  | 0x5C :: 0x75 :: a :: b :: c :: d :: rest =>
    match hexUnit? a b c d with
    | some n =>
      let (pieces, after) := scanString rest
      (.unit n :: pieces, after)
    | none => ([], .error .malformed)
  | 0x5C :: 0x75 :: _ => ([], .error .truncated)
  | 0x5C :: e :: rest =>
    match escaped? e with
    | some b =>
      let (pieces, after) := scanString rest
      (.escape b :: pieces, after)
    | none => ([], .error .malformed)
  | b :: rest =>
    if b < 0x20 then ([], .error .malformed)
    else
      let (pieces, after) := scanString rest
      (.byte b :: pieces, after)

/-- The first unit of a surrogate pair. -/
def isHighSurrogate (n : Nat) : Bool := 0xD800 ≤ n && n ≤ 0xDBFF

/-- The second unit of a surrogate pair. -/
def isLowSurrogate (n : Nat) : Bool := 0xDC00 ≤ n && n ≤ 0xDFFF

/-- The bytes that the pieces of a string stand for; `after` is what the scan ended with. -/
def assemble (after : Option Fault) : List Piece → Except Fault (List UInt8)
  | [] => match after with
    | some f => .error f
    | none => .ok []
  | .byte b :: rest | .escape b :: rest => do return b :: (← assemble after rest)
  | .unit n :: rest =>
    if isLowSurrogate n then .error .malformed
    else if isHighSurrogate n then
      match rest with
      | .unit m :: rest =>
        if isLowSurrogate m then do
          let c := Char.ofNat (0x10000 + (n - 0xD800) * 0x400 + (m - 0xDC00))
          return String.utf8EncodeChar c ++ (← assemble after rest)
        else .error .malformed
      | [] => .error (after.getD .malformed)
      | _ => .error .malformed
    else do return String.utf8EncodeChar (Char.ofNat n) ++ (← assemble after rest)

/-- The fault that ended a scan. -/
def faultOf {α : Type} : Except Fault α → Option Fault
  | .ok _ => none
  | .error f => some f

/-- A string after its opening quote: its text, and what follows the closing quote. -/
def readString (bytes : List UInt8) : Except Fault String × Except Fault (List UInt8) :=
  let (pieces, after) := scanString bytes
  let text := do
    match Text.Utf8.decode? (← assemble (faultOf after) pieces) with
    | some s => .ok s
    | none => .error .malformed
  (text, after)

/-- `b` is the byte of an ASCII digit. -/
def isDigitByte (b : UInt8) : Bool := 48 ≤ b && b ≤ 57

/-- The digit values of the digits in front, and what follows them. -/
def takeDigits (bytes : List UInt8) : List Nat × List UInt8 :=
  ((bytes.takeWhile isDigitByte).map fun b => b.toNat - 48, bytes.dropWhile isDigitByte)

/-- Why no digit is found: nothing is left, or something else. -/
def noDigit (bytes : List UInt8) : Fault :=
  if bytes.isEmpty then .truncated else .malformed

/-- The exponent of a number, if there is one: its sign and digits. -/
def scanExponent : List UInt8 → Except Fault (Option (Bool × List Nat) × List UInt8)
  | b :: rest =>
    if b = 0x65 ∨ b = 0x45 then
      let (negative, rest) : Bool × List UInt8 := match rest with
        | 0x2D :: rest => (true, rest)
        | 0x2B :: rest => (false, rest)
        | rest => (false, rest)
      let (digits, after) := takeDigits rest
      if digits.isEmpty then .error (noDigit after) else .ok (some (negative, digits), after)
    else .ok (none, b :: rest)
  | [] => .ok (none, [])

/-- The digits behind the point of a number, if there is one. -/
def scanFraction : List UInt8 → Except Fault (Option (List Nat) × List UInt8)
  | 0x2E :: rest =>
    let (digits, after) := takeDigits rest
    if digits.isEmpty then .error (noDigit after) else .ok (some digits, after)
  | bytes => .ok (none, bytes)

/-- A number after its sign. -/
def scanNumeral (negative : Bool) (bytes : List UInt8) : Except Fault (Numeral × List UInt8) := do
  let (whole, rest) := takeDigits bytes
  if whole.isEmpty then throw (noDigit rest)
  if whole.head? = some 0 ∧ 1 < whole.length then throw .malformed
  let (fraction, rest) ← scanFraction rest
  let (exponent, rest) ← scanExponent rest
  let (exponentNegative, digits) := exponent.getD (false, [])
  return (⟨negative, whole, fraction.getD [], fraction.isSome || exponent.isSome, exponentNegative,
    digits⟩, rest)

/-- A number after its sign.  A number that breaks off is truncated if it is used, and malformed if
it is passed over. -/
def readNumber (negative : Bool) (bytes : List UInt8) : Node × Except Fault (List UInt8) :=
  match scanNumeral negative bytes with
  | .error f => (.scalar (.error f), .error .malformed)
  | .ok (numeral, rest) =>
    match numeral.value? with
    | some n => (.scalar (.ok (.number n)), .ok rest)
    | none => (.scalar (.error .malformed), .ok rest)

/-- A value that is one fault. -/
def faulty (f : Fault) : Node × Except Fault (List UInt8) :=
  (.scalar (.error f), .error f)

/-- A word that stands for a value. -/
def readWord (value : Scalar) (word bytes : List UInt8) : Node × Except Fault (List UInt8) :=
  match expectBytes word bytes with
  | .ok rest => (.scalar (.ok value), .ok rest)
  | .error f => faulty f

/-! ## Values -/

mutual

/-- The value in front, with `depth` containers around it, and what follows it.  Every call spends
`fuel`, of which twice the number of bytes is enough. -/
def readValue : (fuel depth : Nat) → List UInt8 → Node × Except Fault (List UInt8)
  | 0, _, _ => faulty .truncated
  | fuel + 1, depth, bytes =>
    match skipSpace bytes with
    | [] => faulty .truncated
    | 0x6E :: rest => readWord .null [0x75, 0x6C, 0x6C] rest
    | 0x74 :: rest => readWord (.bool true) [0x72, 0x75, 0x65] rest
    | 0x66 :: rest => readWord (.bool false) [0x61, 0x6C, 0x73, 0x65] rest
    | 0x22 :: rest =>
      let (text, after) := readString rest
      (.scalar (text.map .text), after)
    | 0x2D :: rest => readNumber true rest
    | 0x5B :: rest =>
      let (items, close, after) := readItems fuel (depth + 1) true rest
      (.array depth items close, after)
    | 0x7B :: rest =>
      let (members, close, after) := readMembers fuel (depth + 1) true rest
      (.object depth members close, after)
    | b :: rest => if isDigitByte b then readNumber false (b :: rest) else faulty .malformed

/-- The items of an array up to its end, and what follows. -/
def readItems : (fuel depth : Nat) → (first : Bool) → List UInt8 →
    List Node × Close × Except Fault (List UInt8)
  | 0, _, _, _ => ([], .missing .truncated, .error .truncated)
  | fuel + 1, depth, first, bytes =>
    match skipSpace bytes with
    | [] => ([], .missing .truncated, .error .truncated)
    | 0x5D :: rest => ([], .closed, .ok rest)
    | b :: rest =>
      if first then readItem fuel depth (b :: rest)
      else if b = 0x2C then
        match skipSpace rest with
        | [] => ([], .dangling .truncated, .error .truncated)
        | 0x5D :: _ => ([], .dangling .malformed, .error .malformed)
        | rest => readItem fuel depth rest
      else ([], .missing .malformed, .error .malformed)

/-- An item of an array, the items behind it, and what follows. -/
def readItem : (fuel depth : Nat) → List UInt8 → List Node × Close × Except Fault (List UInt8)
  | 0, _, _ => ([], .missing .truncated, .error .truncated)
  | fuel + 1, depth, bytes =>
    match readValue fuel depth bytes with
    | (item, .error f) => ([item], .missing f, .error f)
    | (item, .ok rest) =>
      let (items, close, after) := readItems fuel depth false rest
      (item :: items, close, after)

/-- The members of an object up to its end, and what follows. -/
def readMembers : (fuel depth : Nat) → (first : Bool) → List UInt8 →
    List Member × Close × Except Fault (List UInt8)
  | 0, _, _, _ => ([], .missing .truncated, .error .truncated)
  | fuel + 1, depth, first, bytes =>
    match skipSpace bytes with
    | [] => ([], .missing .truncated, .error .truncated)
    | 0x7D :: rest => ([], .closed, .ok rest)
    | 0x22 :: rest =>
      if first then readMember fuel depth rest else ([], .missing .malformed, .error .malformed)
    | 0x2C :: rest =>
      if first then ([], .missing .malformed, .error .malformed)
      else
        match skipSpace rest with
        | [] => ([], .dangling .truncated, .error .truncated)
        | 0x22 :: rest => readMember fuel depth rest
        | _ => ([], .dangling .malformed, .error .malformed)
    | _ => ([], .missing .malformed, .error .malformed)

/-- A member of an object after the quote that opens its key, the members behind it, and what
follows. -/
def readMember : (fuel depth : Nat) → List UInt8 → List Member × Close × Except Fault (List UInt8)
  | 0, _, _ => ([], .missing .truncated, .error .truncated)
  | fuel + 1, depth, bytes =>
    let (key, after) := readString bytes
    let (value, after) := match after with
      | .error f => faulty f
      | .ok rest =>
        match skipSpace rest with
        | [] => faulty .truncated
        | 0x3A :: rest => readValue fuel depth rest
        | _ => faulty .malformed
    match after with
    | .error f => ([.mk key value (some f)], .missing f, .error f)
    | .ok rest =>
      let (members, close, after) := readMembers fuel depth false rest
      (.mk key value none :: members, close, after)

end

/-- The value that the bytes start with, and what follows it. -/
def readDocument (bytes : List UInt8) : Node × Except Fault (List UInt8) :=
  readValue (3 * bytes.length + 3) 0 bytes

/-- The fault of bytes that are left over after a document. -/
def trailingFault (after : Except Fault (List UInt8)) : Option Fault :=
  match after with
  | .error f => some f
  | .ok rest => if (skipSpace rest).isEmpty then none else some .malformed

/-- What kind of value there is, as messages name it. -/
def Node.kind : Node → Except Fault String
  | .scalar (.error f) => .error f
  | .scalar (.ok .null) => .ok "null"
  | .scalar (.ok (.bool b)) => .ok s!"boolean `{b}`"
  | .scalar (.ok (.number (.real x))) => .ok s!"floating point `{(Number.real x).text}`"
  | .scalar (.ok (.number n)) => .ok s!"integer `{n.text}`"
  | .scalar (.ok (.text s)) => .ok s!"string {Text.quoted s}"
  | .array _ _ _ => .ok "sequence"
  | .object _ _ _ => .ok "map"

end Pulse.Json
