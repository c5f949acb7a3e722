import Pulse.Json.Value
import Pulse.Time.Parser

/-!
# Decoding documents

A `Decoder α` turns a node into an `α` or reports the first fault, reading from left to right.

Structures are decoded by a `Record`, which is put together from its fields in their order:
`field`, `fieldOr` and `optionalField` for required fields, fields with a default and fields that
may be absent or null.  A structure is written as an object, where unknown members are passed over
and a name must not occur twice, or as an array of its fields in order, where fields at the end may
be left out if they have a default.  `Record.decoder` reads either form.

A *tagged* structure tells by one of its members which record the other members belong to; it is
kept as a whole before that record looks at it.
-/

set_option autoImplicit false

namespace Pulse.Json

/-- Reads a value from a tree. -/
abbrev Decoder (α : Type) : Type := Node → Except Fault α

/-! ## Values without parts -/

/-- The fault of a node of the wrong kind. -/
def wrongKind {α : Type} (expected : String) (node : Node) : Except Fault α := do
  throw (Mismatch.kind (← node.kind) expected).fault

/-- A string. -/
def textAs (expected : String) : Decoder String
  | .scalar (.ok (.text s)) => .ok s
  | node => wrongKind expected node

/-- A string. -/
def text : Decoder String :=
  textAs "a string"

/-- A string in a notation of its own. -/
def parsed {α : Type} (expected : String) (parse : String → Except String α) : Decoder α :=
  fun node => do
    match parse (← textAs expected node) with
    | .ok a => return a
    | .error message => throw (Mismatch.unreadable message).fault

/-- A whole number up to `max`. -/
def natural (expected : String) (max : Nat) : Decoder Nat
  | .scalar (.ok (.number (.natural n))) =>
    if n ≤ max then .ok n
    else .error (Mismatch.value s!"integer `{Decimal.natText n}`" expected).fault
  | .scalar (.ok (.number (.negative n))) =>
    .error (Mismatch.value s!"integer `{Decimal.intText n}`" expected).fault
  | node => wrongKind expected node

/-- A whole number of 32 bits. -/
def natural32 : Decoder Nat := natural "u32" 4294967295

/-- A whole number of 64 bits. -/
def natural64 : Decoder Nat := natural "u64" wordMax

/-- A whole number of 64 bits that counts something. -/
def count : Decoder Nat := natural "usize" wordMax

/-- A double. -/
def real : Decoder Float
  | .scalar (.ok (.number n)) => .ok n.toFloat
  | node => wrongKind "f64" node

/-- `true` or `false`. -/
def bool : Decoder Bool
  | .scalar (.ok (.bool b)) => .ok b
  | node => wrongKind "a boolean" node

/-- A value, or null for none. -/
def optional {α : Type} (decode : Decoder α) : Decoder (Option α)
  | .scalar (.ok .null) => .ok none
  | node => (decode node).map some

/-- A time. -/
def instant : Decoder Time.Instant :=
  parsed "an RFC 3339 formatted date and time string" fun s =>
    (Time.Instant.parse s).mapError Time.ParseFault.message

/-- A day. -/
def date : Decoder Time.Date :=
  parsed "a formatted date string" fun s => (Time.Date.parse s).mapError Time.ParseFault.message

/-! ## Lists -/

/-- The items of an array, each read by `decode`; `i` items came before. -/
def decodeItems {α : Type} (decode : Decoder α) (i : Nat) : List Node → Except Fault (List α)
  | [] => .ok []
  | item :: rest => do
    let a ← (decode item).mapError (·.under (.index i))
    return a :: (← decodeItems decode (i + 1) rest)

/-- An array of any length. -/
def list {α : Type} (decode : Decoder α) : Decoder (List α)
  | .array _ items close => do
    let as ← decodeItems decode 0 items
    match close.fault with
    | some f => throw f
    | none => return as
  | node => wrongKind "a sequence" node

/-! ## Named alternatives -/

/-- The alternative of a given name. -/
def variant {α : Type} (name : α → String) (all : List α) (s : String) : Except Fault α :=
  match all.find? fun a => name a == s with
  | some a => .ok a
  | none => .error (Mismatch.variant s (all.map name)).fault

/-- An alternative without fields: its name, or an object with that name and null. -/
def plainVariant {α : Type} (name : α → String) (all : List α) : Decoder α
  | .scalar (.error f) => .error f
  | .scalar (.ok (.text s)) => variant name all s
  | .object _ (.mk key value _ :: others) close => do
    let a ← variant name all (← key)
    match value with
    | .scalar (.ok .null) => pure ()
    | node => wrongKind "unit" node
    match others, close with
    | _ :: _, _ => throw .malformed
    | [], .missing f => throw f
    | [], .dangling _ => throw .malformed
    | [], _ => return a
  | .object _ [] (.missing f) => .error f
  | _ => .error .malformed

/-! ## Structures -/

/-- A member that a structure knows, and the check that its value is readable. -/
structure Field where
  name : String
  check : Node → Except Fault Unit

/-- How a structure is put together from the values of its fields. -/
structure Record (α : Type) where
  fields : List Field
  /-- `missing name` is the fault of a required field that is absent. -/
  build : (missing : String → Fault) → (value : String → Option Node) → Except Fault α

namespace Record

/-- A required field. -/
def field {α : Type} (name : String) (decode : Decoder α) : Record α where
  fields := [⟨name, fun node => (decode node).map fun _ => ()⟩]
  build missing value :=
    match value name with
    | some node => decode node
    | none => .error (missing name)

/-- A field with a default. -/
def fieldOr {α : Type} (name : String) (default : α) (decode : Decoder α) : Record α where
  fields := [⟨name, fun node => (decode node).map fun _ => ()⟩]
  build _ value :=
    match value name with
    | some node => decode node
    | none => .ok default

/-- A field that may be absent or null. -/
def optionalField {α : Type} (name : String) (decode : Decoder α) : Record (Option α) :=
  fieldOr name none (optional decode)

/-- The record without fields. -/
def constant {α : Type} (a : α) : Record α where
  fields := []
  build _ _ := .ok a

/-- Adds the fields of a further part. -/
def andThen {α β : Type} (f : Record (α → β)) (x : Unit → Record α) : Record β where
  fields := f.fields ++ (x ()).fields
  build missing value := do return (← f.build missing value) (← (x ()).build missing value)

instance : Applicative Record where
  pure := constant
  seq := andThen

end Record

/-- The members of an object that a structure knows, each name once and each value readable.
`known` are the members already met. -/
def knownMembers (fields : List Field) (known : List (String × Node)) :
    List Member → Except Fault (List (String × Node))
  | [] => .ok known
  | .mk key value skipped :: rest => do
    let key ← key
    match fields.find? fun f => f.name == key with
    | some f =>
      if known.any fun m => m.1 == key then throw (Mismatch.duplicate key).fault
      (f.check value).mapError (·.under (.field key))
      knownMembers fields (known ++ [(key, value)]) rest
    | none =>
      match skipped with
      | some fault => throw fault
      | none => knownMembers fields known rest

/-- The items of an array as the values of the fields, in order; `i` items came before. -/
def orderedItems (i : Nat) : List Field → List Node → Except Fault (List (String × Node))
  | f :: fields, item :: items => do
    (f.check item).mapError (·.under (.index i))
    return (f.name, item) :: (← orderedItems (i + 1) fields items)
  | _, _ => .ok []

/-- The number of elements as messages count them. -/
def elements (n : Nat) : String :=
  if n = 1 then "1 element" else s!"{Decimal.natText n} elements"

/-- The fault of an array that goes on after the last of `wanted` fields, or does not end. -/
def surplus (wanted found : Nat) : Close → Option Fault
  | .kept =>
    if wanted < found then
      some (Mismatch.length found s!"{elements wanted} in sequence").fault
    else none
  | .inMemory =>
    if wanted < found then some (Mismatch.length found "fewer elements in array").fault else none
  | .closed => if wanted < found then some .malformed else none
  | .missing f => if wanted < found then some .malformed else some f
  | .dangling f => if wanted ≤ found then some .malformed else some f

/-- The value of a field among those that were met. -/
def lookup (known : List (String × Node)) (name : String) : Option Node :=
  (known.find? fun m => m.1 == name).map (·.2)

/-- A structure, named `title` in messages about arrays that are too short, and `expected` in
messages about values of another kind. -/
def Record.decoderAs {α : Type} (title expected : String) (record : Record α) : Decoder α
  | .object _ members close => do
    let known ← knownMembers record.fields [] members
    match close.fault with
    | some f => throw f
    | none => record.build (fun name => (Mismatch.missing name).fault) (lookup known)
  | .array _ items close => do
    let wanted := record.fields.length
    let known ← orderedItems 0 record.fields items
    if items.length < wanted then
      match close.fault with
      | some f => throw f
      | none => pure ()
    let place (name : String) := (record.fields.findIdx? fun f => f.name == name).getD wanted
    let short (name : String) :=
      (Mismatch.length (place name) s!"{title} with {elements wanted}").fault
    let a ← record.build short (lookup known)
    match surplus wanted items.length close with
    | some f => throw f
    | none => return a
  | node => wrongKind expected node

/-- A structure. -/
def Record.decoder {α : Type} (title : String) (record : Record α) : Decoder α :=
  record.decoderAs title title

/-! ## Tagged structures -/

/-- The alternative that the tag of an object names, and the other members; `found` and `others`
were met before. -/
def splitTag {α : Type} (tag : String) (named : Decoder α) (found : Option α)
    (others : List Member) : List Member → Except Fault (Option α × List Member)
  | [] => .ok (found, others)
  | .mk key value skipped :: rest => do
    let name ← key
    if name = tag then
      if found.isSome then throw (Mismatch.duplicate tag).fault
      let a ← (named value).mapError (·.under (.field tag))
      splitTag tag named (some a) others rest
    else
      match value.flaw with
      | some f => throw (f.under (.field name))
      | none => splitTag tag named found (others ++ [.mk key value skipped]) rest

/-- A structure whose member `tag`, or whose first element, names the alternative that reads the
rest. -/
def tagged {α β : Type} (title tag : String) (named : Decoder α) (rest : α → Decoder β) : Decoder β
  | .object depth members close => do
    let (found, others) ← splitTag tag named none [] members
    match close.fault with
    | some f => throw f
    | none =>
      match found with
      | none => throw (Mismatch.missing tag).fault
      | some a => rest a (.object depth others .kept)
  | .array _ [] close => .error (close.fault.getD (Mismatch.missing tag).fault)
  | .array depth (first :: items) close => do
    let a ← (named first).mapError (·.under (.index 0))
    match (itemsFlaw items).or close.fault with
    | some f => throw f
    | none => rest a (.array depth items .kept)
  | node => wrongKind s!"internally tagged enum {title}" node

/-- The rest of an alternative without fields. -/
def noFields {α : Type} (a : α) : Decoder α
  | .array _ items _ =>
    match surplus 0 items.length .kept with
    | some f => .error f
    | none => .ok a
  | _ => .ok a

/-! ## Documents -/

/-- Reads a whole document. -/
def decodeAll {α : Type} (decode : Decoder α) (bytes : List UInt8) : Except Fault α := do
  let (node, after) := readDocument bytes
  let a ← decode node
  match trailingFault after with
  | some f => throw f
  | none => return a

/-- Reads the document that the bytes start with, whatever follows it. -/
def decodeFirst {α : Type} (decode : Decoder α) (bytes : List UInt8) : Except Fault α :=
  decode (readDocument bytes).1

end Pulse.Json
