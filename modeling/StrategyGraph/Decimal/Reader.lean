import StrategyGraph.Text.Classes
import StrategyGraph.Decimal.Binary64

/-!
# Reading numbers

A number may be surrounded by blanks and start with a sign. Its digits are decimal digits of any
script, and single underscores may stand between two digits.

* `readInt` reads digits only;
* `readFloat` reads a decimal with an optional fraction and an optional exponent, or one of the
  words `inf`, `infinity` and `nan` in any case, and gives the nearest double.
-/

namespace StrategyGraph.Decimal

open Text (digit?)

/-- The digits at the start of a text and the rest. A single underscore is skipped where it stands
between two digits; `inside` says that a digit was just read. -/
def digitRun (inside : Bool) : List Char → List Nat × List Char
  | [] => ([], [])
  | c :: cs =>
    match digit? c with
    | some d =>
      let (ds, rest) := digitRun true cs
      (d :: ds, rest)
    | none =>
      if inside && c = '_' && cs.head?.any Text.isDigit then digitRun false cs else ([], c :: cs)

/-- The number that the digits write, the highest digit first. -/
def ofDigits (ds : List Nat) : Nat := ds.foldl (fun n d => 10 * n + d) 0

/-- Splits an optional sign off; `true` is minus. -/
def takeSign : List Char → Bool × List Char
  | '+' :: cs => (false, cs)
  | '-' :: cs => (true, cs)
  | cs => (false, cs)

/-- The text of a number without the blanks around it. -/
def numeral (s : String) : List Char := Text.trimBy Text.isNumeralBlank s.toList

/-- Integers of more digits than this are not read. -/
def maxDigits : Nat := 4300

/-- What reading an integer can come to. -/
inductive ReadInt where
  /-- The integer. -/
  | value (n : Int)
  /-- The text is no integer. -/
  | malformed
  /-- An integer with more than `maxDigits` digits. -/
  | tooLong (digits : Nat)

/-- Reads an integer. -/
def readInt (s : String) : ReadInt :=
  let (negative, body) := takeSign (numeral s)
  match digitRun false body with
  | ([], _) => .malformed
  | (ds, []) =>
    if maxDigits < ds.length then .tooLong ds.length
    else .value (if negative then -(ofDigits ds : Int) else ofDigits ds)
  | (_, _ :: _) => .malformed

/-- The double nearest to `digits * 10 ^ exponent`. Beyond `10 ^ 310` and below `10 ^ -330` the
result is infinity and zero whatever the digits are. -/
def scale (digits : Nat) (exponent : Int) : Float :=
  if digits = 0 then Binary64.ofRatio 0 1
  else
    let order := exponent + (toString digits).length
    if 310 < order then Binary64.infinity
    else if order < -330 then Binary64.ofRatio 0 1
    else Binary64.ofRatio (digits * tenTo exponent.toNat) (tenTo (-exponent).toNat)

/-- The exponent at the end of a decimal; zero when there is none. -/
def readExponent : List Char → Option Int
  | [] => some 0
  | c :: cs =>
    if c = 'e' ∨ c = 'E' then
      let (negative, body) := takeSign cs
      match digitRun false body with
      | (d :: ds, []) =>
        let n : Int := ofDigits (d :: ds)
        some (if negative then -n else n)
      | _ => none
    else none

/-- Reads an unsigned decimal with an optional fraction and exponent. -/
def readDecimal (cs : List Char) : Option Float :=
  let (whole, rest) := digitRun false cs
  let (fraction, rest) := match rest with
    | '.' :: rest => digitRun false rest
    | _ => ([], rest)
  if whole.isEmpty && fraction.isEmpty then none
  else (readExponent rest).map fun e => scale (ofDigits (whole ++ fraction)) (e - fraction.length)

/-- Reads a number as a double. -/
def readFloat (s : String) : Option Float :=
  let (negative, body) := takeSign (numeral s)
  let magnitude :=
    match String.ofList (body.map Char.toLower) with
    | "inf" | "infinity" => some Binary64.infinity
    | "nan" => some Binary64.notANumber
    | _ => readDecimal body
  magnitude.map fun x => if negative then -x else x

end StrategyGraph.Decimal
