import Mathlib.Algebra.Group.Nat.Defs
import StrategyGraph.Decimal.Binary64

/-!
# Quotients between bounds

The double nearest to a fraction is found from the order of the fraction, the power of two below it,
and from a rounded quotient.

* `roundDiv_le` and `le_roundDiv` : rounding does not move a quotient to the other side of an
  integer;
* `le_of_binaryOrder` and `lt_of_binaryOrder` : **a fraction lies between the power of two of its
  order and the next one**;
* `binaryOrder_le` and `binaryOrder_nonneg` : how large the order is.
-/

namespace StrategyGraph.Binary64

open Decimal (roundDiv)

variable {a b q num den : Nat}

theorem roundDiv_le (hb : 0 < b) (h : a ≤ q * b) : roundDiv a b ≤ q := by
  have hdiv : a / b ≤ q := Nat.div_le_of_le_mul (by rwa [Nat.mul_comm])
  have hmod : b * (a / b) + a % b = a := Nat.div_add_mod a b
  simp only [roundDiv]
  rcases Nat.lt_or_eq_of_le hdiv with hlt | heq
  · split
    · exact hdiv
    · split
      · exact hlt
      · split
        · exact hdiv
        · exact hlt
  · have hrest : a % b = 0 := by
      rw [heq, Nat.mul_comm] at hmod
      omega
    simp [hrest, heq, hb]

theorem le_roundDiv (hb : 0 < b) (h : q * b ≤ a) : q ≤ roundDiv a b := by
  have hdiv : q ≤ a / b := (Nat.le_div_iff_mul_le hb).2 h
  simp only [roundDiv]
  split
  · exact hdiv
  · split
    · exact Nat.le_succ_of_le hdiv
    · split
      · exact hdiv
      · exact Nat.le_succ_of_le hdiv

theorem le_of_binaryOrder (hnum : num ≠ 0) (den : Nat) :
    den * 2 ^ (binaryOrder num den).toNat ≤ num * 2 ^ (-binaryOrder num den).toNat := by
  rw [binaryOrder]
  split
  · generalize hk : (num.log2 : Int) - den.log2 = k
    calc den * 2 ^ (k - 1).toNat
        ≤ 2 ^ (den.log2 + 1) * 2 ^ (k - 1).toNat :=
          Nat.mul_le_mul_right _ (Nat.le_of_lt Nat.lt_log2_self)
      _ = 2 ^ num.log2 * 2 ^ (-(k - 1)).toNat := by
          rw [← Nat.pow_add, ← Nat.pow_add]
          congr 1
          omega
      _ ≤ num * 2 ^ (-(k - 1)).toNat := Nat.mul_le_mul_right _ (Nat.log2_self_le hnum)
  · next h => exact Nat.le_of_not_lt h

theorem lt_of_binaryOrder (num : Nat) (hden : den ≠ 0) :
    num * 2 ^ (-(binaryOrder num den + 1)).toNat < den * 2 ^ (binaryOrder num den + 1).toNat := by
  rw [binaryOrder]
  split
  · next h => rwa [Int.sub_add_cancel]
  · generalize hk : (num.log2 : Int) - den.log2 = k
    calc num * 2 ^ (-(k + 1)).toNat
        < 2 ^ (num.log2 + 1) * 2 ^ (-(k + 1)).toNat :=
          Nat.mul_lt_mul_of_pos_right Nat.lt_log2_self (Nat.two_pow_pos _)
      _ = 2 ^ den.log2 * 2 ^ (k + 1).toNat := by
          rw [← Nat.pow_add, ← Nat.pow_add]
          congr 1
          omega
      _ ≤ den * 2 ^ (k + 1).toNat := Nat.mul_le_mul_right _ (Nat.log2_self_le hden)

theorem binaryOrder_le (num den : Nat) : binaryOrder num den ≤ num.log2 := by
  rw [binaryOrder]
  split <;> omega

theorem binaryOrder_nonneg (hden : den ≠ 0) (h : den ≤ num) : 0 ≤ binaryOrder num den := by
  have hlog : den.log2 ≤ num.log2 :=
    (Nat.le_log2 (by omega)).2 (Nat.le_trans (Nat.log2_self_le hden) h)
  rw [binaryOrder]
  split
  · next hless =>
    have hne : num.log2 ≠ den.log2 := by
      intro heq
      rw [heq, Int.sub_self, Int.neg_zero, Int.toNat_zero, twoTo_zero] at hless
      omega
    omega
  · omega

end StrategyGraph.Binary64
