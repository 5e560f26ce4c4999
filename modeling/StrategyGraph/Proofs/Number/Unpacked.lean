import Mathlib
import StrategyGraph.Proofs.Number.Parts

/-!
# Packing and rounding

Arithmetic on doubles unpacks them into a sign, a mantissa and an exponent, computes exactly, rounds
to 53 bits and packs the result again.

* `unpack_pack` : packing keeps a mantissa that has all its bits, and `isFinite_pack` : it overflows
  only if the exponent is too large; `ofBits_eq_pack` : the word that such a mantissa is packed to;
* `roundWithAccuracy_two_pow` : **what has no bits beyond its mantissa is not rounded**;
* `isFinite_roundWithAccuracy` : rounding does not overflow far from the greatest double.
-/

namespace StrategyGraph.Binary64

open Float.Model (Format UnpackedFloat totalExponent)
open Float.Model.UnpackedFloat (Sign packComponents unpackExponent_packComponents
  unpackMantissa_packComponents unpackSign_packComponents ExtendedMantissa Accuracy
  shiftToTargetExponent shiftToExponent roundWithAccuracy)

variable {s : Sign} {m : Nat} {e : Int}

/-! ### Packing -/

/-- The fields of what is packed, if its exponent is not too large. -/
theorem pack_finite {hm : 0 < m} (he : e ≤ 971) : UnpackedFloat.pack .binary64 (.finite s m e hm) =
    packComponents .binary64 s (if m.log2 = 52 then BitVec.ofNat 11 (e + 1075).toNat else 0#11)
      (BitVec.ofNat 52 m) := by
  have hbiased : (e + (Format.binary64.exponentBias : Int) +
      (Format.binary64.mantissaBitsWithoutImplicit : Int)).toNat = (e + 1075).toNat := by
    change (e + 1023 + 52).toNat = _
    omega
  have hsmall : ¬2 ^ 11 ≤ (e + 1075).toNat + 1 := by omega
  have hbits : m.log2 + 1 = Format.binary64.mantissaBits ↔ m.log2 = 52 := Nat.succ_inj
  rw [UnpackedFloat.pack]
  simp only [hbiased, if_neg hsmall, hbits]
  split <;> rfl

/-- What is packed is a finite double unless the exponent is too large, whatever the mantissa. -/
theorem isFinite_pack {hm : 0 < m} (he : e ≤ 971) :
    (Float.ofModel (.pack (.finite s m e hm))).isFinite = true := by
  have hfield : (if m.log2 = 52 then BitVec.ofNat 11 (e + 1075).toNat else 0#11) ≠ -1#11 := by
    split
    · intro h
      have hfield : (e + 1075).toNat % 2048 = 2047 := congrArg BitVec.toNat h
      omega
    · decide
  change (UnpackedFloat.unpack .binary64 (UnpackedFloat.pack .binary64
    (.finite s m e hm))).isFinite = true
  rw [pack_finite he]
  generalize (if m.log2 = 52 then BitVec.ofNat 11 (e + 1075).toNat else 0#11) = field at hfield
  rw [UnpackedFloat.unpack, unpackExponent_packComponents, if_neg hfield]
  split
  · split <;> rfl
  · rfl

/-- **What is packed with all bits of its mantissa is unpacked again.** -/
theorem unpack_pack {hm : 0 < m} (hlo : 2 ^ 52 ≤ m) (hhi : m < 2 ^ 53) (he : -1074 ≤ e)
    (he' : e ≤ 971) : (Float.Model.pack (.finite s m e hm)).unpack = .finite s m e hm := by
  have hlog : m.log2 = 52 := (Nat.log2_eq_iff (by omega)).2 ⟨hlo, hhi⟩
  have hfield : (BitVec.ofNat 11 (e + 1075).toNat).toNat = (e + 1075).toNat :=
    Nat.mod_eq_of_lt (by omega)
  have hgreatest : BitVec.ofNat 11 (e + 1075).toNat ≠ -1#11 := fun h => by
    have hvalue : (e + 1075).toNat = 2047 := hfield.symm.trans (congrArg BitVec.toNat h)
    omega
  have hleast : BitVec.ofNat 11 (e + 1075).toNat ≠ 0#11 := fun h => by
    have hvalue : (e + 1075).toNat = 0 := hfield.symm.trans (congrArg BitVec.toNat h)
    omega
  have hmantissa : (1#1 ++ BitVec.ofNat 52 m).toNat = m := by
    rw [toNat_one_append, BitVec.toNat_ofNat]
    omega
  have hexponent : ((e + 1075).toNat : Int) - (1023 + 52) = e := by omega
  change UnpackedFloat.unpack .binary64 (UnpackedFloat.pack .binary64 (.finite s m e hm)) = _
  rw [pack_finite he', if_pos hlog, UnpackedFloat.unpack]
  simp only [unpackExponent_packComponents, unpackMantissa_packComponents,
    unpackSign_packComponents, Sign.ofBitVec_toBitVec, if_neg hgreatest, if_neg hleast, hmantissa,
    hfield]
  congr

theorem toNat_pack {hm : 0 < m} (hlo : 2 ^ 52 ≤ m) (hhi : m < 2 ^ 53) (he : -1074 ≤ e)
    (he' : e ≤ 971) : (UnpackedFloat.pack .binary64 (.finite .positive m e hm)).toNat =
      m + (e + 1074).toNat * 2 ^ 52 := by
  have hlog : m.log2 = 52 := (Nat.log2_eq_iff (by omega)).2 ⟨hlo, hhi⟩
  rw [pack_finite he', if_pos hlog]
  change (0#1 ++ BitVec.ofNat 11 (e + 1075).toNat ++ BitVec.ofNat 52 m).toNat = _
  rw [BitVec.toNat_append, ← Nat.shiftLeft_add_eq_or_of_lt (BitVec.isLt _), BitVec.toNat_append,
    ← Nat.shiftLeft_add_eq_or_of_lt (BitVec.isLt _)]
  simp only [BitVec.toNat_ofNat, Nat.shiftLeft_eq]
  omega

theorem ofBits_eq_pack (hm : 0 < m) (hlo : 2 ^ 52 ≤ m) (hhi : m < 2 ^ 53) (he : -1074 ≤ e)
    (he' : e ≤ 971) : Float.ofBits (m + (e + 1074).toNat * 2 ^ 52).toUInt64 =
      .ofModel (.pack (.finite .positive m e hm)) := by
  have hword : (m + (e + 1074).toNat * 2 ^ 52).toUInt64.toBitVec =
      UnpackedFloat.pack .binary64 (.finite .positive m e hm) := by
    refine BitVec.eq_of_toNat_eq ?_
    rw [toNat_pack hlo hhi he he', UInt64.toNat_toBitVec, Nat.toUInt64_eq, UInt64.toNat_ofNat']
    exact Nat.mod_eq_of_lt (by omega)
  have hunpack : (Float.Model.pack (.finite .positive m e hm)).unpack = _ :=
    unpack_pack hlo hhi he he'
  have hofBits : ∀ a : UInt64, Float.ofBits a =
      .ofModel (.pack (UnpackedFloat.unpack .binary64 a.toBitVec)) := fun _ => rfl
  rw [hofBits, hword]
  exact congrArg (fun u => Float.ofModel (.pack u)) hunpack

/-! ### Rounding -/

theorem log2_mul_two_pow {n : Nat} (hn : n ≠ 0) (k : Nat) : (n * 2 ^ k).log2 = n.log2 + k := by
  have hpos : 0 < 2 ^ k := Nat.two_pow_pos k
  rw [Nat.log2_eq_iff (Nat.mul_ne_zero hn (Nat.ne_of_gt hpos)), Nat.pow_add, Nat.add_right_comm,
    Nat.pow_add]
  exact ⟨Nat.mul_le_mul_right _ (Nat.log2_self_le hn),
    Nat.mul_lt_mul_of_pos_right Nat.lt_log2_self hpos⟩

theorem targetExponent_eq (total : Int) :
    Format.binary64.targetExponent total = max (total - 53) (-1074) := rfl

/-- Zeros are shifted out of a mantissa without a rest. -/
theorem shiftRight_two_pow (m k : Nat) :
    (⟨m * 2 ^ k, false, false⟩ : ExtendedMantissa) >>> k = ⟨m, false, false⟩ := by
  induction k generalizing m with
  | zero => rw [Nat.pow_zero, Nat.mul_one]; rfl
  | succ k ih =>
    change ((⟨m * 2 ^ (k + 1), false, false⟩ : ExtendedMantissa) >>> k).shiftRightOne = _
    rw [Nat.pow_succ', ← Nat.mul_assoc, ih]
    simp [ExtendedMantissa.shiftRightOne]

theorem shiftToTargetExponent_two_pow (hlower : 2 ^ 52 ≤ m) (hupper : m < 2 ^ 53) {k : Nat}
    (he : -1074 ≤ e + k) : shiftToTargetExponent .binary64 (m * 2 ^ k) e .exact =
      (⟨m, false, false⟩, e + k) := by
  have hm : m ≠ 0 := by omega
  have hlog : m.log2 = 52 := (Nat.log2_eq_iff hm).2 ⟨hlower, hupper⟩
  have htarget : Format.binary64.targetExponent (totalExponent (m * 2 ^ k) e) = e + k := by
    rw [targetExponent_eq, totalExponent, log2_mul_two_pow hm, hlog]
    omega
  have hshift : (e + k - e).toNat = k := by omega
  rw [shiftToTargetExponent]
  simp only [htarget, shiftToExponent, hshift]
  exact congrArg (·, e + k) (shiftRight_two_pow m k)

/-- **What has a mantissa of 53 bits behind zeros is not rounded.** -/
theorem roundWithAccuracy_two_pow (hlower : 2 ^ 52 ≤ m) (hupper : m < 2 ^ 53) (hpos : 0 < m)
    {k : Nat} (he : -1074 ≤ e + k) : roundWithAccuracy .binary64 s (m * 2 ^ k) e .exact =
      .finite s m (e + k) hpos := by
  have hagain := shiftToTargetExponent_two_pow (e := e + k) (k := 0) hlower hupper
    (by simpa using he)
  rw [Nat.pow_zero, Nat.mul_one] at hagain
  rw [roundWithAccuracy, shiftToTargetExponent_two_pow hlower hupper he]
  have hround : (⟨m, false, false⟩ : ExtendedMantissa).roundedMantissa = m := rfl
  simp only [hround, hagain]
  rw [dif_neg (Nat.ne_of_gt hpos)]
  simp

theorem mantissa_shiftRight_le (em : ExtendedMantissa) (k : Nat) :
    (em >>> k).mantissa ≤ em.mantissa := by
  induction k with
  | zero => exact Nat.le_refl _
  | succ k ih => exact Nat.le_trans (Nat.div_le_self (em >>> k).mantissa 2) ih

theorem roundedMantissa_le (em : ExtendedMantissa) : em.roundedMantissa ≤ em.mantissa + 1 := by
  obtain ⟨m, round, sticky⟩ := em
  have hmod : m % 2 < 2 := Nat.mod_lt m (by decide)
  cases round <;> cases sticky <;>
    simp only [ExtendedMantissa.roundedMantissa, ExtendedMantissa.accuracy,
      Accuracy.roundToNearestEven] <;> omega

theorem shiftToTargetExponent_le {k : Nat} (hm : m.log2 < k) (hk : 53 ≤ k) :
    (shiftToTargetExponent .binary64 m e .exact).1.mantissa ≤ m ∧
      (shiftToTargetExponent .binary64 m e .exact).2 ≤ max (e + (k - 53)) (-1074) := by
  refine ⟨mantissa_shiftRight_le _ _, ?_⟩
  change e + ((Format.binary64.targetExponent (totalExponent m e) - e).toNat : Int) ≤ _
  rw [targetExponent_eq, totalExponent]
  omega

/-- What is rounded is a finite double if it is far from the greatest one. -/
theorem isFinite_roundWithAccuracy (hm : m < 2 ^ 106) (he : e ≤ 800) :
    (Float.ofModel (.pack (roundWithAccuracy .binary64 s m e .exact))).isFinite = true := by
  have hlog : ∀ {n : Nat}, n < 2 ^ 107 → n.log2 < 107 := by
    intro n hn
    by_cases hzero : n = 0
    · subst hzero
      decide
    · exact (Nat.log2_lt hzero).2 hn
  obtain ⟨hfirst, hexponent⟩ := shiftToTargetExponent_le (e := e)
    (hlog (by omega : m < 2 ^ 107)) (by decide)
  rw [roundWithAccuracy]
  generalize shiftToTargetExponent .binary64 m e .exact = first at hfirst hexponent
  obtain ⟨em, e₁⟩ := first
  dsimp only at hfirst hexponent ⊢
  have hrounded := roundedMantissa_le em
  obtain ⟨-, hexponent'⟩ := shiftToTargetExponent_le (e := e₁)
    (hlog (by omega : em.roundedMantissa < 2 ^ 107)) (by decide)
  generalize shiftToTargetExponent .binary64 em.roundedMantissa e₁ .exact = second at hexponent'
  split
  · cases s <;> rfl
  · exact isFinite_pack (by omega)

end StrategyGraph.Binary64
