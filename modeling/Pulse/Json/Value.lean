import Pulse.Json.Node

/-!
# Documents as values

`Value` is what a document says, free of how it is written.

* `Value.compact` and `Value.pretty` write it, without blanks or with one member a line.
* `Node.toValue` keeps a whole document that has been read, and `Value.toNode` hands a value to the
  decoders.  Both know only one member of a name, the last, and order members by name.
-/

set_option autoImplicit false

namespace Pulse.Json

/-- What a document says. -/
inductive Value where
  | null
  | bool (b : Bool)
  | number (n : Number)
  | text (s : String)
  | array (items : List Value)
  | object (members : List (String × Value))

instance : Inhabited Value := ⟨.null⟩

namespace Value

/-- A whole number. -/
def nat (n : Nat) : Value := .number (.natural n)

/-- An integer. -/
def int (n : Int) : Value := if n < 0 then .number (.negative n) else .number (.natural n.toNat)

/-- A double. -/
def float (x : Float) : Value := .number (.real x)

/-- A value that may be absent. -/
def option {α : Type} (f : α → Value) : Option α → Value
  | some a => f a
  | none => .null

/-- The member of an object with a given name. -/
def get? (name : String) : Value → Option Value
  | .object members => (members.find? fun m => m.1 == name).map (·.2)
  | _ => none

end Value

/-! ## Writing -/

/-- A digit in hexadecimal. -/
def hexChar (n : Nat) : Char :=
  Char.ofNat (if n < 10 then 48 + n else 87 + n)

/-- One character inside the quotes of a string: quotes, backslashes and controls are escaped. -/
def writeChar (c : Char) : List Char :=
  if c = '"' then ['\\', '"']
  else if c = '\\' then ['\\', '\\']
  else if c = '\n' then ['\\', 'n']
  else if c = '\r' then ['\\', 'r']
  else if c = '\t' then ['\\', 't']
  else if c.toNat = 0x08 then ['\\', 'b']
  else if c.toNat = 0x0C then ['\\', 'f']
  else if c.toNat < 0x20 then ['\\', 'u', '0', '0', hexChar (c.toNat / 16), hexChar (c.toNat % 16)]
  else [c]

/-- A string in its quotes. -/
def writeString (s : String) : List Char :=
  '"' :: s.toList.flatMap writeChar ++ ['"']

mutual

/-- The value without any blanks. -/
def Value.write : Value → List Char
  | .null => "null".toList
  | .bool true => "true".toList
  | .bool false => "false".toList
  | .number n => n.text.toList
  | .text s => writeString s
  | .array items => '[' :: writeItems items ++ [']']
  | .object members => '\x7b' :: writeMembers members ++ ['\x7d']

/-- Items with commas between them. -/
def writeItems : List Value → List Char
  | [] => []
  | [item] => item.write
  | item :: rest => item.write ++ ',' :: writeItems rest

/-- Members with commas between them. -/
def writeMembers : List (String × Value) → List Char
  | [] => []
  | [(name, value)] => writeString name ++ ':' :: value.write
  | (name, value) :: rest => writeString name ++ ':' :: value.write ++ ',' :: writeMembers rest

end

/-- The value without any blanks. -/
def Value.compact (v : Value) : String :=
  String.ofList v.write

/-- A new line, indented by `level` steps of two blanks. -/
def newLine (level : Nat) : List Char :=
  '\n' :: List.replicate (2 * level) ' '

mutual

/-- The value with a line for every item and member. -/
def Value.writeLines (level : Nat) : Value → List Char
  | .array [] => ['[', ']']
  | .object [] => ['\x7b', '\x7d']
  | .array items => '[' :: writeItemLines (level + 1) items ++ newLine level ++ [']']
  | .object members => '\x7b' :: writeMemberLines (level + 1) members ++ newLine level ++ ['\x7d']
  | v => v.write

/-- Items on lines of their own. -/
def writeItemLines (level : Nat) : List Value → List Char
  | [] => []
  | [item] => newLine level ++ item.writeLines level
  | item :: rest => newLine level ++ item.writeLines level ++ ',' :: writeItemLines level rest

/-- Members on lines of their own. -/
def writeMemberLines (level : Nat) : List (String × Value) → List Char
  | [] => []
  | [(name, value)] => newLine level ++ writeString name ++ ':' :: ' ' :: value.writeLines level
  | (name, value) :: rest =>
    newLine level ++ writeString name ++ ':' :: ' ' :: value.writeLines level
      ++ ',' :: writeMemberLines level rest

end

/-- The value with a line for every item and member. -/
def Value.pretty (v : Value) : String :=
  String.ofList (v.writeLines 0)

/-! ## To and from the tree -/

/-- Puts a member in its place among members ordered by name, instead of one of the same name. -/
def insertMember (name : String) (value : Value) : List (String × Value) → List (String × Value)
  | [] => [(name, value)]
  | (n, v) :: rest =>
    if name = n then (name, value) :: rest
    else if name < n then (name, value) :: (n, v) :: rest
    else (n, v) :: insertMember name value rest

/-- The members in the order of their names, the last of each name. -/
def sortMembers (members : List (String × Value)) : List (String × Value) :=
  members.foldl (fun sorted (name, value) => insertMember name value sorted) []

mutual

/-- The value of a document, if it can be kept as a whole. -/
def Node.toValue : Node → Except Fault Value
  | .scalar value => value.map fun
    | .null => .null
    | .bool b => .bool b
    | .number n => .number n
    | .text s => .text s
  | .array depth items close => do
    if maxDepth ≤ depth then throw .malformed
    let items ← itemsToValues items
    match close.fault with
    | some f => throw f
    | none => return .array items
  | .object depth members close => do
    if maxDepth ≤ depth then throw .malformed
    let members ← membersToValues members
    match close.fault with
    | some f => throw f
    | none => return .object (sortMembers members)

/-- The values of the items. -/
def itemsToValues : List Node → Except Fault (List Value)
  | [] => .ok []
  | item :: rest => do return (← item.toValue) :: (← itemsToValues rest)

/-- The names and values of the members. -/
def membersToValues : List Member → Except Fault (List (String × Value))
  | [] => .ok []
  | .mk key value _ :: rest => do
    return (← key, ← value.toValue) :: (← membersToValues rest)

end

mutual

/-- The value as a tree that never was text. -/
def Value.toNode (depth : Nat) : Value → Node
  | .null => .scalar (.ok .null)
  | .bool b => .scalar (.ok (.bool b))
  | .number n => .scalar (.ok (.number n))
  | .text s => .scalar (.ok (.text s))
  | .array items => .array depth (itemsToNodes (depth + 1) items) .inMemory
  | .object members => .object depth (membersToNodes (depth + 1) members) .inMemory

/-- The items as trees. -/
def itemsToNodes (depth : Nat) : List Value → List Node
  | [] => []
  | item :: rest => item.toNode depth :: itemsToNodes depth rest

/-- The members as trees. -/
def membersToNodes (depth : Nat) : List (String × Value) → List Member
  | [] => []
  | (name, value) :: rest =>
    .mk (.ok name) (value.toNode depth) none :: membersToNodes depth rest

end

/-- The document that the bytes hold. -/
def parse (bytes : List UInt8) : Except Fault Value := do
  let (node, after) := readDocument bytes
  let value ← node.toValue
  match trailingFault after with
  | some f => throw f
  | none => return value

end Pulse.Json
