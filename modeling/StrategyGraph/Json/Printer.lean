import StrategyGraph.Json.Basic

/-!
# Writing JSON

`Json.compact` writes a value on one line without spaces, `Json.indented` one item or field a
line, each level two spaces further in. Both write ASCII only: other characters are escaped by
their UTF-16 units. The infinities and NaN are written as bare words.
-/

namespace StrategyGraph.Json

/-- The escape of one UTF-16 unit. -/
def unitEscape (n : Nat) : List Char := '\\' :: 'u' :: Text.hexDigits 4 n

/-- How a character is written in a JSON text. -/
def escapeChar (c : Char) : List Char :=
  if c = '"' then ['\\', '"']
  else if c = '\\' then ['\\', '\\']
  else if c = '\n' then ['\\', 'n']
  else if c = '\r' then ['\\', 'r']
  else if c = '\t' then ['\\', 't']
  else if c = '\x08' then ['\\', 'b']
  else if c = '\x0c' then ['\\', 'f']
  else if 0x20 ≤ c.toNat && c.toNat < 0x7F then [c]
  else if c.toNat < 0x10000 then unitEscape c.toNat
  else
    let n := c.toNat - 0x10000
    unitEscape (0xD800 + n / 0x400) ++ unitEscape (0xDC00 + n % 0x400)

/-- A text as JSON. -/
def escape (s : String) : String :=
  String.ofList ('"' :: s.toList.flatMap escapeChar ++ ['"'])

/-- A number as JSON. -/
def numberText : Number → String
  | .int n => toString n
  | .float x =>
    if x.isNaN then "NaN"
    else if x.isInf then (if x < 0.0 then "-Infinity" else "Infinity")
    else Decimal.shortest x

/-- What stands between the parts of an array or object. -/
structure Layout where
  /-- After the opening bracket and after each comma of a bracket `depth` levels deep. -/
  gap : Nat → String
  /-- Between a field's name and its value. -/
  colon : String

/-- Everything on one line. -/
def Layout.line : Layout := ⟨fun _ => "", ":"⟩

/-- One item or field a line, two spaces a level. -/
def Layout.tree : Layout :=
  ⟨fun depth => String.ofList ('\n' :: List.replicate (2 * depth) ' '), ": "⟩

mutual

/-- Writes a value that stands `depth` levels deep. -/
def render (l : Layout) (depth : Nat) : Json → String
  | .null => "null"
  | .bool b => if b then "true" else "false"
  | .number n => numberText n
  | .string s => escape s
  | .array [] => "[]"
  | .array (x :: xs) =>
    "[" ++ l.gap (depth + 1) ++ render l (depth + 1) x ++ renderItems l (depth + 1) xs
      ++ l.gap depth ++ "]"
  | .object [] => "\x7b\x7d"
  | .object ((k, v) :: fs) =>
    "\x7b" ++ l.gap (depth + 1) ++ escape k ++ l.colon ++ render l (depth + 1) v
      ++ renderFields l (depth + 1) fs ++ l.gap depth ++ "\x7d"

/-- Writes the items after the first one. -/
def renderItems (l : Layout) (depth : Nat) : List Json → String
  | [] => ""
  | x :: xs => "," ++ l.gap depth ++ render l depth x ++ renderItems l depth xs

/-- Writes the fields after the first one. -/
def renderFields (l : Layout) (depth : Nat) : List (String × Json) → String
  | [] => ""
  | (k, v) :: fs =>
    "," ++ l.gap depth ++ escape k ++ l.colon ++ render l depth v ++ renderFields l depth fs

end

/-- The value on one line. -/
def compact (j : Json) : String := render .line 0 j

/-- The value with one item or field a line. -/
def indented (j : Json) : String := render .tree 0 j

end StrategyGraph.Json
