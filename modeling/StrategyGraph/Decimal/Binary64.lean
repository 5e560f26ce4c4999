/-!
# Doubles as fractions

A finite double is `± mantissa * 2 ^ exponent`. `parts` takes it apart, `ofRatio` finds the double
nearest to a fraction, and `truncate` is the integer that is left when the fractional part is cut.

* `twoTo` and `tenTo` : the denominators of doubles and of decimals;
* `Decimal.roundDiv` : the integer nearest to a quotient; a quotient half way between two integers
  goes to the even one.
-/

namespace StrategyGraph

/-! ### Powers -/

/-- The power of two with exponent `n`. -/
def twoTo (n : Nat) : Nat := Nat.pow 2 n

/-- The power of ten with exponent `n`. -/
def tenTo (n : Nat) : Nat := Nat.pow 10 n

@[simp]
theorem twoTo_zero : twoTo 0 = 1 := rfl

@[simp]
theorem tenTo_zero : tenTo 0 = 1 := rfl

theorem tenTo_succ (n : Nat) : tenTo (n + 1) = tenTo n * 10 := rfl

theorem tenTo_le_tenTo {m n : Nat} (h : m ≤ n) : tenTo m ≤ tenTo n :=
  Nat.pow_le_pow_right (by decide) h

/-- Digits that are read one after the other make less than the power with as many zeros. -/
theorem foldl_digits_lt {ds : List Nat} (h : ∀ d ∈ ds, d < 10) (start : Nat) :
    ds.foldl (fun n d => 10 * n + d) start < (start + 1) * tenTo ds.length := by
  induction ds generalizing start with
  | nil => simp
  | cons d ds ih =>
    rw [List.forall_mem_cons] at h
    calc ds.foldl (fun n d => 10 * n + d) (10 * start + d)
        < (10 * start + d + 1) * tenTo ds.length := ih h.2 _
      _ ≤ (10 * (start + 1)) * tenTo ds.length := Nat.mul_le_mul_right _ (by omega)
      _ = (start + 1) * tenTo (ds.length + 1) := by
        rw [tenTo_succ]
        ac_rfl

/-! ### Rounding quotients -/

namespace Decimal

/-- The integer nearest to `num / den`, the even one of two equally near. -/
def roundDiv (num den : Nat) : Nat :=
  let q := num / den
  let r := num % den
  if 2 * r < den then q
  else if den < 2 * r then q + 1
  else if q % 2 = 0 then q else q + 1

theorem roundDiv_mul (q : Nat) {den : Nat} (h : 0 < den) : roundDiv (q * den) den = q := by
  simp [roundDiv, Nat.mul_div_cancel q h, h]

end Decimal

/-! ### Doubles -/

namespace Binary64

open Decimal (roundDiv)

/-- Sign, mantissa and binary exponent of a finite double. -/
structure Parts where
  /-- The sign bit. -/
  negative : Bool
  /-- The significand as an integer below `2 ^ 53`. -/
  mantissa : Nat
  /-- The power of two that the mantissa is multiplied by. -/
  exponent : Int

/-- The parts of a finite double. -/
def parts (x : Float) : Parts :=
  let bits : Nat := x.toBits.toNat
  let field : Nat := bits / twoTo 52 % twoTo 11
  let fraction : Nat := bits % twoTo 52
  { negative := bits / twoTo 63 = 1
    mantissa := if field = 0 then fraction else twoTo 52 + fraction
    exponent := if field = 0 then -1074 else (field : Int) - 1075 }

namespace Parts

/-- Numerator of the magnitude as a fraction. -/
def num (p : Parts) : Nat := p.mantissa * twoTo p.exponent.toNat

/-- Denominator of the magnitude as a fraction, a power of two. -/
def den (p : Parts) : Nat := twoTo (-p.exponent).toNat

end Parts

/-- The positive infinity. -/
def infinity : Float := Float.ofBits 0x7FF0000000000000

/-- A value that is not a number. -/
def notANumber : Float := Float.ofBits 0x7FF8000000000000

/-- The integer `k` with `2 ^ k ≤ num / den < 2 ^ (k + 1)`, for positive `num` and `den`. -/
def binaryOrder (num den : Nat) : Int :=
  let k : Int := (num.log2 : Int) - den.log2
  if num * twoTo (-k).toNat < den * twoTo k.toNat then k - 1 else k

/-- The non-negative double nearest to `num / den`, for positive `den`; the one with even mantissa
of two equally near, and infinity when the fraction is too large. -/
def ofRatio (num den : Nat) : Float :=
  if num = 0 then Float.ofBits 0 else
    let e := max (binaryOrder num den - 52) (-1074)
    let m := roundDiv (num * twoTo (-e).toNat) (den * twoTo e.toNat)
    let bits := m + (e + 1074).toNat * twoTo 52
    if bits < 2047 * twoTo 52 then Float.ofBits bits.toUInt64 else infinity

/-- The double nearest to an integer; infinite when the integer is too large. -/
def ofInt (n : Int) : Float :=
  if n < 0 then -(ofRatio n.natAbs 1) else ofRatio n.natAbs 1

/-- The integer part of a finite double: the fraction is cut off. -/
def truncate (x : Float) : Int :=
  let p := parts x
  let n : Int := p.num / p.den
  if p.negative then -n else n

end Binary64

end StrategyGraph
