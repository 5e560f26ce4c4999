import StrategyGraph.Decimal.Shortest

/-!
# Numbers

A number of a payload is an integer of any size or a double, and stays what it is. `Number.order?`
compares two numbers by their exact values, and `Number.text` writes one.

Indicators, drawdowns and ledgers are written over any type with the operations of a field and an
order. The values of the integers are the two of them that doubles do not bring along.
-/

namespace StrategyGraph

/-- A number as it was written: an integer of any size, or a double. -/
inductive Number where
  /-- A number without fraction and exponent. -/
  | int (n : Int)
  /-- A number with a fraction or an exponent, an infinity or a NaN. -/
  | float (x : Float)

namespace Number

/-- How a number is written. An integer of more than `Decimal.maxDigits` digits is refused wherever
it is to be shown; this is how it would be written without that limit. -/
def text : Number → String
  | .int n => toString n
  | .float x => Decimal.shortest x

/-- The number is zero. -/
def isZero : Number → Bool
  | .int n => n = 0
  | .float x => x == 0.0

/-- Compares an integer with a finite double by value. -/
def compareParts (n : Int) (x : Float) : Ordering :=
  let p := Binary64.parts x
  let m : Int := if p.negative then -(p.num : Int) else p.num
  compare (n * p.den) m

/-- The order of two numbers by value; none when one of them is a NaN. -/
def order? : Number → Number → Option Ordering
  | .int m, .int n => some (compare m n)
  | .float x, .float y =>
    if x < y then some .lt else if x == y then some .eq else if y < x then some .gt else none
  | .int n, .float x =>
    if x.isNaN then none
    else if x.isInf then some (if x < 0.0 then .gt else .lt)
    else some (compareParts n x)
  | .float x, .int n =>
    if x.isNaN then none
    else if x.isInf then some (if x < 0.0 then .lt else .gt)
    else some (compareParts n x).swap

/-- The numbers are equal by value. -/
def same (a b : Number) : Bool := a.order? b = some .eq

end Number

instance natCastFloat : NatCast Float := ⟨Float.ofNat⟩

instance intCastFloat : IntCast Float := ⟨Float.ofInt⟩

end StrategyGraph
