/-!
# Blank characters

Identifiers, schedule expressions and time texts are stripped of *blanks*: the twenty-five
characters with the Unicode property `White_Space`.  The class of core Lean, `Char.isWhitespace`,
is the part of it that ASCII keyboards have.
-/

set_option autoImplicit false

namespace Pulse.Text

/-- The code points of the blanks: six controls and the blank of ASCII, the next-line control,
the no-break blank, and the typographic ones. -/
def blankRanges : List (Nat × Nat) :=
  [(0x09, 0x0D), (0x20, 0x20), (0x85, 0x85), (0xA0, 0xA0), (0x1680, 0x1680), (0x2000, 0x200A),
   (0x2028, 0x2029), (0x202F, 0x202F), (0x205F, 0x205F), (0x3000, 0x3000)]

/-- `c` separates words and is dropped by `trim`. -/
def isBlank (c : Char) : Bool :=
  blankRanges.any fun (first, last) => first ≤ c.toNat && c.toNat ≤ last

/-- The text without the blanks it starts with. -/
def trimLeft (s : List Char) : List Char :=
  s.dropWhile isBlank

/-- The text without the blanks at either end. -/
def trim (s : List Char) : List Char :=
  (trimLeft (trimLeft s).reverse).reverse

/-- The characters of `s` without the blanks at either end. -/
def trimmed (s : String) : String :=
  String.ofList (trim s.toList)

/-- Nothing but blanks. -/
def isBlankText (s : String) : Bool :=
  s.toList.all isBlank

end Pulse.Text
