/-!
# White space and digits

The characters that count as blank, texts freed of the blanks at both ends, and the characters that
are digits.

* `isBlank` is the whole class: the ASCII blanks, the four separators `U+001C`–`U+001F`, and the
  white space beyond ASCII;
* `trim` and `strip` remove blanks from both ends, of a list of characters and of a text;
* `isNumeralBlank` is the smaller class that may surround a number;
* `digit?` is the value of a decimal digit, in any script: each script writes its digits as ten
  consecutive code points, from zero to nine.
-/

namespace StrategyGraph.Text

/-- The white space code points, as inclusive ranges. -/
def blankRanges : List (Nat × Nat) :=
  [(0x09, 0x0D), (0x1C, 0x20), (0x85, 0x85), (0xA0, 0xA0), (0x1680, 0x1680), (0x2000, 0x200A),
   (0x2028, 0x2029), (0x202F, 0x202F), (0x205F, 0x205F), (0x3000, 0x3000)]

/-- `c` is white space. -/
def isBlank (c : Char) : Bool :=
  blankRanges.any fun r => r.1 ≤ c.toNat && c.toNat ≤ r.2

/-- `c` may stand around a number: white space other than the separators `U+001C`–`U+001F`. -/
def isNumeralBlank (c : Char) : Bool :=
  isBlank c && !(0x1C ≤ c.toNat && c.toNat ≤ 0x1F)

/-- The characters between the first and the last that `skip` does not hold of. -/
def trimBy (skip : Char → Bool) (cs : List Char) : List Char :=
  ((cs.dropWhile skip).reverse.dropWhile skip).reverse

/-- The characters without the blanks at both ends. -/
def trim (cs : List Char) : List Char := trimBy isBlank cs

/-- The text without the blanks at both ends. -/
def strip (s : String) : String := String.ofList (trim s.toList)

/-! ### Digits -/

/-- The code point of the digit zero in each script. -/
def digitZeros : List Nat :=
  [0x30, 0x660, 0x6F0, 0x7C0, 0x966, 0x9E6, 0xA66, 0xAE6, 0xB66, 0xBE6, 0xC66, 0xCE6, 0xD66,
   0xDE6, 0xE50, 0xED0, 0xF20, 0x1040, 0x1090, 0x17E0, 0x1810, 0x1946, 0x19D0, 0x1A80, 0x1A90,
   0x1B50, 0x1BB0, 0x1C40, 0x1C50, 0xA620, 0xA8D0, 0xA900, 0xA9D0, 0xA9F0, 0xAA50, 0xABF0,
   0xFF10, 0x104A0, 0x10D30, 0x11066, 0x110F0, 0x11136, 0x111D0, 0x112F0, 0x11450, 0x114D0,
   0x11650, 0x116C0, 0x11730, 0x118E0, 0x11950, 0x11C50, 0x11D50, 0x11DA0, 0x16A60, 0x16AC0,
   0x16B50, 0x1D7CE, 0x1D7D8, 0x1D7E2, 0x1D7EC, 0x1D7F6, 0x1E140, 0x1E2F0, 0x1E950, 0x1FBF0]

/-- The value of a decimal digit. -/
def digit? (c : Char) : Option Nat :=
  (digitZeros.find? fun z => z ≤ c.toNat && c.toNat ≤ z + 9).map fun z => c.toNat - z

/-- `c` is a decimal digit. -/
def isDigit (c : Char) : Bool := (digit? c).isSome

end StrategyGraph.Text
