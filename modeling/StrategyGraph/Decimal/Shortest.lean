import StrategyGraph.Decimal.Binary64

/-!
# The shortest text of a double

`shortest x` writes a double with the fewest significant digits that read back as `x`, and among
those with the ones nearest to `x`. The value is written in positional notation when its first
digit stands for `10 ^ k` with `-4 ≤ k < 16`, always with a fractional part, and otherwise with an
exponent of at least two digits.
-/

namespace StrategyGraph.Decimal

open Binary64 (Parts parts)

/-- A decimal `digits * 10 ^ exponent`. -/
structure Scaled where
  /-- The significant digits as one integer. -/
  digits : Nat
  /-- The power of ten that the digits are multiplied by. -/
  exponent : Int

/-- The integer `k` with `10 ^ k ≤ num / den < 10 ^ (k + 1)`, for positive `num` and `den`. The
first guess, from the binary order, is exact or one too low. -/
def decimalOrder (num den : Nat) : Int :=
  let k := Binary64.binaryOrder num den * 30103 / 100000
  if den * tenTo (k + 1).toNat ≤ num * tenTo (-(k + 1)).toNat then k + 1 else k

/-- The reals that round to a given double: the fractions from `low / den` to `high / den`, the
ends included or not, around the value `mid / den`. -/
structure Interval where
  /-- Numerator of the lower end. -/
  low : Nat
  /-- Numerator of the value itself. -/
  mid : Nat
  /-- Numerator of the upper end. -/
  high : Nat
  /-- The common denominator. -/
  den : Nat
  /-- The ends round to the double as well. -/
  closed : Bool

/-- The interval of a positive double. The gap below a power of two is half the gap above it. -/
def Interval.around (p : Parts) : Interval :=
  let lowGap := if p.mantissa = twoTo 52 ∧ -1074 < p.exponent then 1 else 2
  let e := p.exponent - 2
  let scale := twoTo e.toNat
  { low := (4 * p.mantissa - lowGap) * scale
    mid := 4 * p.mantissa * scale
    high := (4 * p.mantissa + 2) * scale
    den := twoTo (-e).toNat
    closed := p.mantissa % 2 = 0 }

namespace Interval

/-- The decimal lies in the interval. -/
def holds (i : Interval) (d : Scaled) : Bool :=
  let v := d.digits * tenTo d.exponent.toNat * i.den
  let unit := tenTo (-d.exponent).toNat
  if i.closed then i.low * unit ≤ v && v ≤ i.high * unit
  else i.low * unit < v && v < i.high * unit

/-- The decimal with last digit at `10 ^ e` that lies in the interval and is nearest to its value;
the one with even digits of two equally near. -/
def nearest? (i : Interval) (e : Int) : Option Scaled :=
  let n := i.mid * tenTo (-e).toNat
  let d := i.den * tenTo e.toNat
  let below : Scaled := ⟨n / d, e⟩
  let above : Scaled := ⟨n / d + 1, e⟩
  match i.holds below, i.holds above with
  | true, true => some ⟨roundDiv n d, e⟩
  | true, false => some below
  | false, true => some above
  | false, false => none

end Interval

/-- The decimal of fewest digits that rounds to the positive double with these parts. -/
def shortestDecimal (p : Parts) : Scaled :=
  let i := Interval.around p
  let k := decimalOrder i.mid i.den
  ((List.range 17).findSome? fun n : Nat => i.nearest? (k - n)).getD ⟨i.mid / i.den, 0⟩

/-- The digits of `n` without the zeros at the end. -/
def significantDigits (n : Nat) : List Char :=
  ((toString n).toList.reverse.dropWhile (· = '0')).reverse

/-- An exponent, with its sign and at least two digits. -/
def exponentText (k : Int) : List Char :=
  let digits := (toString k.natAbs).toList
  (if k < 0 then '-' else '+') :: (if digits.length < 2 then '0' :: digits else digits)

/-- The notation of a positive decimal: positional when the first digit stands for `10 ^ k` with
`-4 ≤ k < 16`, and with an exponent otherwise. -/
def Scaled.layout (d : Scaled) : List Char :=
  let k := d.exponent + (toString d.digits).length - 1
  let digits := significantDigits d.digits
  if -4 ≤ k ∧ k < 16 then
    if k < 0 then '0' :: '.' :: List.replicate (-k - 1).toNat '0' ++ digits
    else
      let whole := k.toNat + 1
      let fraction := digits.drop whole
      digits.take whole ++ List.replicate (whole - digits.length) '0'
        ++ '.' :: (if fraction.isEmpty then ['0'] else fraction)
  else
    digits.take 1 ++ (if digits.length = 1 then [] else '.' :: digits.drop 1)
      ++ 'e' :: exponentText k

/-- The shortest text that reads back as `x`. -/
def shortest (x : Float) : String :=
  if x.isNaN then "nan"
  else
    let p := parts x
    let sign := if p.negative then ['-'] else []
    String.ofList <| sign ++
      if x.isInf then ['i', 'n', 'f']
      else if p.mantissa = 0 then ['0', '.', '0']
      else (shortestDecimal p).layout

end StrategyGraph.Decimal
