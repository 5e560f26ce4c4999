import Mathlib.Tactic.Ring
import StrategyGraph.Proofs.Number.Unpacked
import StrategyGraph.Proofs.Number.Value

/-!
# Integers that are doubles

An integer is a double if it has at most 53 bits before its trailing zeros and is not too large. On
these integers, doubles compute and compare as integers do.

* `Represents` : the mantissa and the exponent of a positive integer that is a double;
* `IsExact` : the integers that are doubles, among them the integer parts of all finite doubles
  (`isExact_truncate`);
* `truncate_ofInt` : **such an integer is the integer part of its nearest double**;
* `value_ofInt` : it is the value of that double, so that `order?_ofInt` : they stand in the order of
  their doubles;
* `ofInt_mul` : products are exact where they are small.
-/

namespace StrategyGraph.Binary64

open Float.Model (UnpackedFloat)
open Float.Model.UnpackedFloat (roundWithAccuracy)

variable {m : Nat} {e : Int} {x : Float}

/-! ### Mantissas and exponents of integers -/

/-- The integer `n` is the double `m * 2 ^ e` whose mantissa has all its bits. -/
structure Represents (n m : Nat) (e : Int) : Prop where
  /-- The mantissa has 53 bits, -/
  lower : 2 ^ 52 ≤ m
  /-- and no more. -/
  upper : m < 2 ^ 53
  /-- The double is finite. -/
  bound : e ≤ 971
  /-- Its value. -/
  value : n * 2 ^ (-e).toNat = m * 2 ^ e.toNat

namespace Represents

variable {n n' m' : Nat} {e' : Int}

theorem mantissa_pos (h : Represents n m e) : 0 < m := by
  have hlower := h.lower
  omega

theorem ne_zero (h : Represents n m e) : n ≠ 0 := by
  rintro rfl
  have hvalue := h.value
  rw [Nat.zero_mul] at hvalue
  exact Nat.ne_of_gt (Nat.mul_pos h.mantissa_pos (Nat.two_pow_pos _)) hvalue.symm

theorem log2_eq (h : Represents n m e) : (n.log2 : Int) = e + 52 := by
  have hm : m.log2 = 52 := (Nat.log2_eq_iff (Nat.ne_of_gt h.mantissa_pos)).2 ⟨h.lower, h.upper⟩
  have hvalue := congrArg Nat.log2 h.value
  rw [log2_mul_two_pow h.ne_zero, log2_mul_two_pow (Nat.ne_of_gt h.mantissa_pos), hm] at hvalue
  omega

/-- A mantissa of fewer bits is shifted until it has all of them. -/
theorem exists_of_lt {k : Nat} (hpos : 0 < m) (hm : m < 2 ^ 53) (hk : k ≤ 971) :
    ∃ m' e', Represents (m * 2 ^ k) m' e' := by
  have hlog : m.log2 < 53 := (Nat.log2_lt (Nat.ne_of_gt hpos)).2 hm
  have hshifted : (m * 2 ^ (52 - m.log2)).log2 = 52 := by
    rw [log2_mul_two_pow (Nat.ne_of_gt hpos)]
    omega
  have hne : m * 2 ^ (52 - m.log2) ≠ 0 :=
    Nat.mul_ne_zero (Nat.ne_of_gt hpos) (Nat.ne_of_gt (Nat.two_pow_pos _))
  obtain ⟨hlower, hupper⟩ := (Nat.log2_eq_iff hne).1 hshifted
  refine ⟨m * 2 ^ (52 - m.log2), k - (52 - m.log2 : Nat), hlower, hupper, by omega, ?_⟩
  rw [Nat.mul_assoc, Nat.mul_assoc, ← Nat.pow_add, ← Nat.pow_add]
  congr 2
  omega

/-- Integers below `2 ^ 53` are doubles. -/
theorem exists_of_lt_two_pow (hpos : 0 < n) (hn : n < 2 ^ 53) : ∃ m e, Represents n m e := by
  have h := exists_of_lt (k := 0) hpos hn (by decide)
  rwa [Nat.pow_zero, Nat.mul_one] at h

theorem binaryOrder_eq (h : Represents n m e) : binaryOrder n 1 = e + 52 := by
  have hle : ¬n * twoTo (-(n.log2 : Int)).toNat < 1 * twoTo (n.log2 : Int).toNat := by
    have hlog := Nat.log2_self_le h.ne_zero
    rw [Int.toNat_natCast, Int.toNat_neg_natCast, twoTo_zero, Nat.mul_one, Nat.one_mul]
    exact Nat.not_lt.2 hlog
  have hone : Nat.log2 1 = 0 := rfl
  rw [binaryOrder]
  simp only [hone, Int.natCast_zero, Int.sub_zero]
  rw [if_neg hle, h.log2_eq]

/-- **An integer that is a double is its nearest double.** -/
theorem ofRatio_eq (h : Represents n m e) :
    ofRatio n 1 = .ofModel (.pack (.finite .positive m e h.mantissa_pos)) := by
  have hlower := h.lower
  have hupper := h.upper
  have hbound := h.bound
  have hlog := h.log2_eq
  have hexponent : max (binaryOrder n 1 - 52) (-1074) = e := by
    rw [h.binaryOrder_eq]
    omega
  have hmantissa : Decimal.roundDiv (n * twoTo (-e).toNat) (1 * twoTo e.toNat) = m := by
    have hvalue : n * twoTo (-e).toNat = m * twoTo e.toNat := h.value
    have hpos : 0 < twoTo e.toNat := Nat.two_pow_pos _
    rw [hvalue, Nat.one_mul, Decimal.roundDiv_mul m hpos]
  have htwo : twoTo 52 = 2 ^ 52 := rfl
  have hbits : m + (e + 1074).toNat * 2 ^ 52 < 2047 * 2 ^ 52 := by omega
  rw [ofRatio, if_neg h.ne_zero]
  simp only [hexponent, hmantissa, htwo, if_pos hbits]
  exact ofBits_eq_pack h.mantissa_pos hlower hupper (by omega) hbound

theorem unpack_ofRatio (h : Represents n m e) :
    (ofRatio n 1).toModel.unpack = .finite .positive m e h.mantissa_pos := by
  have hlog := h.log2_eq
  rw [h.ofRatio_eq]
  exact unpack_pack h.lower h.upper (by omega) h.bound

theorem exists_mul {p : Nat} {q : Int} (h : Represents n m e) (h' : Represents n' m' e')
    (hproduct : Represents (n * n') p q) : ∃ k : Nat, m * m' = p * 2 ^ k ∧ q = e + e' + k := by
  have hvalue : m * m' * 2 ^ (e.toNat + e'.toNat + (-q).toNat) =
      p * 2 ^ (q.toNat + (-e).toNat + (-e').toNat) := by
    calc m * m' * 2 ^ (e.toNat + e'.toNat + (-q).toNat)
        = (m * 2 ^ e.toNat) * (m' * 2 ^ e'.toNat) * 2 ^ (-q).toNat := by ring
      _ = (n * n' * 2 ^ (-q).toNat) * 2 ^ (-e).toNat * 2 ^ (-e').toNat := by
          rw [← h.value, ← h'.value]
          ring
      _ = p * 2 ^ (q.toNat + (-e).toNat + (-e').toNat) := by
          rw [hproduct.value]
          ring
  have hne : m * m' ≠ 0 :=
    Nat.mul_ne_zero (Nat.ne_of_gt h.mantissa_pos) (Nat.ne_of_gt h'.mantissa_pos)
  have hlog : p.log2 = 52 := (Nat.log2_eq_iff (Nat.ne_of_gt hproduct.mantissa_pos)).2
    ⟨hproduct.lower, hproduct.upper⟩
  have hlarge : 104 ≤ (m * m').log2 := by
    rw [Nat.le_log2 hne]
    calc 2 ^ 104 = 2 ^ 52 * 2 ^ 52 := by rw [← Nat.pow_add]
      _ ≤ m * m' := Nat.mul_le_mul h.lower h'.lower
  have hlogs := congrArg Nat.log2 hvalue
  rw [log2_mul_two_pow hne, log2_mul_two_pow (Nat.ne_of_gt hproduct.mantissa_pos), hlog] at hlogs
  -- The zeros that the product of the mantissas has more than the mantissa of the product.
  obtain ⟨k, hk⟩ :
      ∃ k, q.toNat + (-e).toNat + (-e').toNat = k + (e.toNat + e'.toNat + (-q).toNat) :=
    ⟨_, (Nat.sub_add_cancel (by omega)).symm⟩
  refine ⟨k, Nat.eq_of_mul_eq_mul_right (Nat.two_pow_pos _) (hvalue.trans ?_), by omega⟩
  rw [hk, Nat.pow_add, Nat.mul_assoc]

/-- **A product of integers is exact if it is a double.** -/
theorem ofRatio_mul {p : Nat} {q : Int} (h : Represents n m e) (h' : Represents n' m' e')
    (hproduct : Represents (n * n') p q) :
    ofRatio n 1 * ofRatio n' 1 = ofRatio (n * n') 1 := by
  obtain ⟨k, hmantissa, rfl⟩ := h.exists_mul h' hproduct
  have hlog := hproduct.log2_eq
  have hround := roundWithAccuracy_two_pow (s := .positive) hproduct.lower hproduct.upper
    hproduct.mantissa_pos (e := e + e') (k := k) (by omega)
  have hmul : ∀ x y : Float, x * y =
      .ofModel (.pack (.mul .binary64 x.toModel.unpack y.toModel.unpack)) := fun _ _ => rfl
  rw [hmul, h.unpack_ofRatio, h'.unpack_ofRatio, hproduct.ofRatio_eq]
  change Float.ofModel (.pack (roundWithAccuracy .binary64 .positive (m * m') (e + e') .exact)) = _
  rw [hmantissa, hround]

end Represents

/-! ### Integers that are doubles -/

/-- The integer is a double: it has at most 53 bits before its trailing zeros, and is not too
large. -/
def IsExact (t : Int) : Prop :=
  ∃ m k : Nat, m < 2 ^ 53 ∧ k ≤ 971 ∧ t.natAbs = m * 2 ^ k

variable {t t' : Int}

theorem IsExact.represents (h : IsExact t) (ht : t ≠ 0) : ∃ m e, Represents t.natAbs m e := by
  obtain ⟨m, k, hm, hk, ht'⟩ := h
  rw [ht']
  refine Represents.exists_of_lt (Nat.pos_of_ne_zero ?_) hm hk
  rintro rfl
  rw [Nat.zero_mul] at ht'
  omega

theorem isExact_of_lt (h : t.natAbs < 2 ^ 53) : IsExact t :=
  ⟨t.natAbs, 0, h, by decide, (Nat.mul_one _).symm⟩

/-- **The integer part of a finite double is a double.** -/
theorem isExact_truncate (h : x.isFinite = true) : IsExact (truncate x) := by
  have hmantissa := mantissa_lt x
  have hexponent := exponent_le h
  have hnatAbs : (truncate x).natAbs = (parts x).num / (parts x).den := by
    rw [truncate]
    split
    · rw [Int.natAbs_neg]
      rfl
    · rfl
  rcases Int.le_total 0 (parts x).exponent with h | h
  · have hden : (parts x).den = 1 := by
      rw [Parts.den, Int.toNat_of_nonpos (by omega), twoTo_zero]
    refine ⟨(parts x).mantissa, (parts x).exponent.toNat, hmantissa, by omega, ?_⟩
    rw [hnatAbs, hden, Nat.div_one]
    rfl
  · have hnum : (parts x).num = (parts x).mantissa := by
      rw [Parts.num, Int.toNat_of_nonpos h, twoTo_zero, Nat.mul_one]
    refine isExact_of_lt ?_
    rw [hnatAbs, hnum]
    exact Nat.lt_of_le_of_lt (Nat.div_le_self ..) hmantissa

theorem unpack_ofInt (h : Represents t.natAbs m e) : (ofInt t).toModel.unpack =
    .finite (if t < 0 then .negative else .positive) m e h.mantissa_pos := by
  have hlog := h.log2_eq
  have hneg : ∀ x : Float, (-x).toModel = .pack x.toModel.unpack.neg := fun _ => rfl
  rw [ofInt]
  split
  · rw [hneg, h.unpack_ofRatio]
    exact unpack_pack h.lower h.upper (by omega) h.bound
  · exact h.unpack_ofRatio

theorem isFinite_ofInt (h : IsExact t) : (ofInt t).isFinite = true := by
  by_cases ht : t = 0
  · subst ht
    rfl
  · obtain ⟨m, e, hrep⟩ := h.represents ht
    change (ofInt t).toModel.unpack.isFinite = true
    rw [unpack_ofInt hrep]
    rfl

/-- **An integer that is a double is the integer part of its nearest double.** -/
theorem truncate_ofInt (h : IsExact t) : truncate (ofInt t) = t := by
  by_cases ht : t = 0
  · subst ht
    decide +kernel
  · obtain ⟨m, e, hrep⟩ := h.represents ht
    have hnum : m * twoTo e.toNat = t.natAbs * twoTo (-e).toNat := hrep.value.symm
    have hpos : 0 < twoTo (-e).toNat := Nat.two_pow_pos _
    have hquotient : m * twoTo e.toNat / twoTo (-e).toNat = t.natAbs := by
      rw [hnum, Nat.mul_div_cancel _ hpos]
    rw [truncate, parts_of_unpack (unpack_ofInt hrep)]
    simp only [Parts.num, Parts.den, ← Int.natCast_ediv, hquotient]
    by_cases hneg : t < 0
    · rw [if_pos hneg]
      change -(t.natAbs : Int) = t
      omega
    · rw [if_neg hneg]
      change (t.natAbs : Int) = t
      omega

theorem value_ofInt (h : IsExact t) : value (ofInt t) = t := by
  by_cases ht : t = 0
  · subst ht
    exact value_of_unpack_zero (s := .positive) rfl
  · obtain ⟨m, e, hrep⟩ := h.represents ht
    have hpower : (2 : ℚ) ^ e.toNat = 2 ^ e * 2 ^ (-e).toNat := by
      rw [← zpow_natCast, ← zpow_natCast, ← zpow_add₀ two_ne_zero]
      congr 1
      omega
    have hmagnitude : (m : ℚ) * 2 ^ e = t.natAbs := by
      have hvalue : (t.natAbs : ℚ) * 2 ^ (-e).toNat = m * 2 ^ e.toNat := by exact_mod_cast hrep.value
      rw [hpower, ← mul_assoc] at hvalue
      exact (mul_right_cancel₀ (pow_ne_zero _ two_ne_zero) hvalue).symm
    rw [value, parts_of_unpack (unpack_ofInt hrep), Parts.value, Parts.magnitude, hmagnitude]
    by_cases hneg : t < 0
    · simp [hneg, isNegative, abs_of_neg hneg]
    · simp [hneg, isNegative, abs_of_nonneg (not_lt.1 hneg)]

/-- **Integers that are doubles stand in the order of their doubles.** -/
theorem order?_ofInt (h : IsExact t) (h' : IsExact t') :
    order? (ofInt t) (ofInt t') = some (compare t t') := by
  rw [order?_eq_compare (isFinite_ofInt h) (isFinite_ofInt h'), value_ofInt h, value_ofInt h',
    ← cmp_eq_compare, ← cmp_eq_compare, Int.cast_strictMono.cmp_map_eq]

theorem ofInt_lt_iff (h : IsExact t) (h' : IsExact t') : ofInt t < ofInt t' ↔ t < t' := by
  rw [lt_iff, order?_ofInt h h', Option.some_inj, Int.compare_eq_lt]

/-- **A product of integers is exact if it is small.** -/
theorem ofInt_mul (ht : 0 < t) (ht' : 0 < t') (h : t * t' < 2 ^ 53) :
    ofInt t * ofInt t' = ofInt (t * t') := by
  obtain ⟨n, rfl⟩ := Int.eq_ofNat_of_zero_le (Int.le_of_lt ht)
  obtain ⟨n', rfl⟩ := Int.eq_ofNat_of_zero_le (Int.le_of_lt ht')
  have hofInt : ∀ n : Nat, ofInt n = ofRatio n 1 := fun n => if_neg (by omega)
  rw [← Int.natCast_mul] at h ⊢
  rw [hofInt, hofInt, hofInt]
  have hproduct : n * n' < 2 ^ 53 := by omega
  have hpos : 0 < n := by omega
  have hpos' : 0 < n' := by omega
  obtain ⟨m, e, hrep⟩ := Represents.exists_of_lt_two_pow hpos
    (Nat.lt_of_le_of_lt (Nat.le_mul_of_pos_right n hpos') hproduct)
  obtain ⟨m', e', hrep'⟩ := Represents.exists_of_lt_two_pow hpos'
    (Nat.lt_of_le_of_lt (Nat.le_mul_of_pos_left n' hpos) hproduct)
  obtain ⟨p, q, hrep''⟩ := Represents.exists_of_lt_two_pow (Nat.mul_pos hpos hpos') hproduct
  exact hrep.ofRatio_mul hrep' hrep''

end StrategyGraph.Binary64
