import StrategyGraph.Text.Printable

/-!
# Quoted texts

`quote s` shows a text between quotation marks: apostrophes, or double quotes when the text holds
an apostrophe and no double quote. The chosen mark and the backslash are written after a
backslash; line feed, carriage return and tab have escapes of their own; any other character that
is not printable is written by its code point in two, four or eight hexadecimal digits.
-/

namespace StrategyGraph.Text

/-- The `width` last hexadecimal digits of `n`, the highest first. -/
def hexDigits (width n : Nat) : List Char :=
  match width with
  | 0 => []
  | w + 1 => hexDigits w (n / 16) ++ [Nat.digitChar (n % 16)]

/-- How `c` is written in a text quoted by `mark`. -/
def quoteChar (mark c : Char) : List Char :=
  if c = mark ∨ c = '\\' then ['\\', c]
  else if c = '\n' then ['\\', 'n']
  else if c = '\r' then ['\\', 'r']
  else if c = '\t' then ['\\', 't']
  else if isPrintable c then [c]
  else if c.toNat < 0x100 then ['\\', 'x'] ++ hexDigits 2 c.toNat
  else if c.toNat < 0x10000 then ['\\', 'u'] ++ hexDigits 4 c.toNat
  else ['\\', 'U'] ++ hexDigits 8 c.toNat

/-- The mark that quotes the text. -/
def quoteMark (cs : List Char) : Char :=
  if '\'' ∈ cs ∧ '"' ∉ cs then '"' else '\''

/-- The text between quotation marks. -/
def quote (s : String) : String :=
  let mark := quoteMark s.toList
  String.ofList (mark :: s.toList.flatMap (quoteChar mark) ++ [mark])

end StrategyGraph.Text
