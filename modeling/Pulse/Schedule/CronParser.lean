import Pulse.Schedule.Cron
import Pulse.Text.DecimalDigit

/-!
# Reading calendar schedules

A calendar schedule is written as six or seven fields, for seconds, minutes, hours, days of the
month, months, days of the week and, optionally, years.  A field is a list of items with commas
between them; an item is `*`, a number, a range `a-b`, each of them with or without a step `/n`, or
the name of a month or of a day of the week, or a range of names.  A number with a step means the
range from it to the greatest value.  `?` is another `*` for the two kinds of days.  Some schedules
have names, such as `@daily`.

The text is read into fields first (`readExpression`), which never depends on what the numbers
mean; `Item.values?` and `Scale` then say what an item names.
-/

set_option autoImplicit false

namespace Pulse.Schedule

/-! ## The grammar -/

/-- An item without a step. -/
inductive Stretch where
  | all
  | range (first last : Nat)
  | point (n : Nat)
  | names (first last : String)
deriving DecidableEq, Repr

/-- An item of a field. -/
inductive Item where
  | stretch (s : Stretch)
  | every (s : Stretch) (step : Nat)
  | name (s : String)
deriving DecidableEq, Repr

/-- Reading off the front of a text, or failing without having read anything. -/
abbrev Reading : Type → Type := StateT (List Char) Option

/-- Blanks between the parts of an expression. -/
def isGap (c : Char) : Bool :=
  c = ' ' || c = '\t' || c = '\n' || c = '\r'

/-- Passes over blanks. -/
def skipGap : Reading Unit :=
  modify (·.dropWhile isGap)

/-- One given character. -/
def readMark (c : Char) : Reading Unit
  | a :: rest => if a = c then some ((), rest) else none
  | [] => none

/-- At least one character of a class. -/
def readSome (accepted : Char → Bool) : Reading (List Char) := fun s =>
  let found := s.takeWhile accepted
  if found.isEmpty then none else some (found, s.drop found.length)

/-- Something with blanks around it. -/
def spaced {α : Type} (read : Reading α) : Reading α := do
  skipGap
  let a ← read
  skipGap
  return a

/-- A number of 32 bits. -/
def readOrdinal : Reading Nat := do
  let n := Text.digitsValue (← spaced (readSome Char.isDigit))
  if n ≤ 4294967295 then return n else failure

/-- A row of ASCII letters. -/
def readName : Reading String := do
  return String.ofList (← spaced (readSome Char.isAlpha))

/-- An item without a step; `?` counts as `*` if `anyMark` holds. -/
def readStretch (anyMark : Bool) : Reading Stretch :=
  (if anyMark then do spaced (readMark '?'); return .all else failure)
  <|> (do spaced (readMark '*'); return .all)
  <|> (do let first ← readOrdinal; readMark '-'; return .range first (← readOrdinal))
  <|> (do return .point (← readOrdinal))
  <|> (do let first ← readName; readMark '-'; return .names first (← readName))

/-- An item of a field. -/
def readItem (anyMark : Bool) : Reading Item :=
  (do let s ← readStretch anyMark; readMark '/'; return .every s (← readOrdinal))
  <|> (do return .stretch (← readStretch anyMark))
  <|> (do return .name (← readName))

/-- Further items, each after a comma. -/
def readMore (anyMark : Bool) : (fuel : Nat) → Reading (List Item)
  | 0 => return []
  | fuel + 1 =>
    (do readMark ','; let item ← readItem anyMark; return item :: (← readMore anyMark fuel))
    <|> return []

/-- A field: items with commas between them. -/
def readField (anyMark : Bool) : Reading (List Item) :=
  spaced do
    let item ← readItem anyMark
    let more ← readMore anyMark (← get).length
    return item :: more

/-! ## What items name -/

/-- The values that a field may name, from `least` to `greatest`, and names for some of them. -/
structure Scale where
  least : Nat
  greatest : Nat
  names : List (List String × Nat) := []

namespace Scale

/-- All values of the scale. -/
def all (scale : Scale) : List Nat :=
  List.range' scale.least (scale.greatest + 1 - scale.least)

/-- The value is on the scale. -/
def admits (scale : Scale) (n : Nat) : Bool :=
  scale.least ≤ n && n ≤ scale.greatest

/-- The value of a name, in whatever case. -/
def named? (scale : Scale) (name : String) : Option Nat :=
  let name := String.ofList (name.toList.map Char.toLower)
  (scale.names.find? fun (names, _) => names.contains name).map (·.2)

/-- The values from `first` to `last`, if both are on the scale and in this order. -/
def between? (scale : Scale) (first last : Nat) : Option (List Nat) :=
  if scale.admits first && scale.admits last && first ≤ last then
    some (List.range' first (last + 1 - first))
  else none

/-- Every `step`-th value, starting with the first. -/
def everyNth (step : Nat) (values : List Nat) : List Nat :=
  (values.zipIdx.filter fun (_, i) => i % step = 0).map (·.1)

/-- The values that an item without a step names. -/
def stretchValues? (scale : Scale) : Stretch → Option (List Nat)
  | .all => some scale.all
  | .point n => if scale.admits n then some [n] else none
  | .range first last => scale.between? first last
  | .names first last => do scale.between? (← scale.named? first) (← scale.named? last)

/-- The values that an item names. -/
def itemValues? (scale : Scale) : Item → Option (List Nat)
  | .stretch s => scale.stretchValues? s
  | .name s => (scale.named? s).map ([·])
  | .every s step =>
    if step < 1 ∨ scale.greatest < step then none
    else
      match s with
      | .point n => (scale.between? n scale.greatest).map (everyNth step)
      | s => (scale.stretchValues? s).map (everyNth step)

/-- The values that a field names, ascending. -/
def fieldValues? (scale : Scale) (items : List Item) : Option (List Nat) := do
  let named := (← items.mapM scale.itemValues?).flatten
  return scale.all.filter fun n => named.contains n

end Scale

/-- Seconds and minutes. -/
def sixtieths : Scale := ⟨0, 59, []⟩

/-- Hours. -/
def hourScale : Scale := ⟨0, 23, []⟩

/-- Days of the month. -/
def dayScale : Scale := ⟨1, 31, []⟩

/-- Months, by number or name. -/
def monthScale : Scale where
  least := 1
  greatest := 12
  names := [(["jan", "january"], 1), (["feb", "february"], 2), (["mar", "march"], 3),
    (["apr", "april"], 4), (["may"], 5), (["jun", "june"], 6), (["jul", "july"], 7),
    (["aug", "august"], 8), (["sep", "september"], 9), (["oct", "october"], 10),
    (["nov", "november"], 11), (["dec", "december"], 12)]

/-- Days of the week, by number or name. -/
def weekdayScale : Scale where
  least := 1
  greatest := 7
  names := [(["sun", "sunday"], 1), (["mon", "monday"], 2), (["tue", "tues", "tuesday"], 3),
    (["wed", "wednesday"], 4), (["thu", "thurs", "thursday"], 5), (["fri", "friday"], 6),
    (["sat", "saturday"], 7)]

/-- Years. -/
def yearScale : Scale := ⟨1970, 2100, []⟩

/-! ## Expressions -/

/-- The schedules with names of their own. -/
def namedSchedule? (s : List Char) : Option Cron :=
  let always : Cron := ⟨[0], [0], [0], [1], [1], weekdayScale.all, yearScale.all⟩
  if s = "@yearly".toList then some always
  else if s = "@monthly".toList then some { always with months := monthScale.all }
  else if s = "@weekly".toList then
    some { always with months := monthScale.all, daysOfMonth := dayScale.all, daysOfWeek := [1] }
  else if s = "@daily".toList then
    some { always with months := monthScale.all, daysOfMonth := dayScale.all }
  else if s = "@hourly".toList then
    some { always with
      months := monthScale.all, daysOfMonth := dayScale.all, hours := hourScale.all }
  else none

/-- A field of values on a scale. -/
def readValues (scale : Scale) (anyMark : Bool) : Reading (List Nat) := do
  match scale.fieldValues? (← readField anyMark) with
  | some values => return values
  | none => failure

/-- The fields of a schedule, up to the end of the text. -/
def readFields : Reading Cron := do
  let seconds ← readValues sixtieths false
  let minutes ← readValues sixtieths false
  let hours ← readValues hourScale false
  let daysOfMonth ← readValues dayScale true
  let months ← readValues monthScale false
  let daysOfWeek ← readValues weekdayScale true
  let years ← readValues yearScale false <|> return yearScale.all
  if (← get).isEmpty then
    return ⟨seconds, minutes, hours, daysOfMonth, months, daysOfWeek, years⟩
  else failure

/-- The calendar schedule that a text without blanks around it writes. -/
def Cron.parse? (s : List Char) : Option Cron :=
  (namedSchedule? s).orElse fun _ => (readFields s).map (·.1)

end Pulse.Schedule
