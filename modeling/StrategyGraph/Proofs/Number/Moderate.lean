import Mathlib.Tactic.Ring
import StrategyGraph.Proofs.Number.Order
import StrategyGraph.Proofs.Number.Quotient
import StrategyGraph.Proofs.Number.Unpacked

/-!
# Doubles far from the greatest one

A product of two doubles is finite if neither of them has a large exponent.

* `IsModerate` : the exponent of a finite double is far from the greatest one;
* `IsModerate.isFinite_mul` : **products of such doubles are finite**;
* `isModerate_of_lt` : a positive double below such a double is one as well;
* `isModerate_ofRatio` : the double nearest to a fraction is one if the numerator is not too large.
-/

namespace StrategyGraph.Binary64

open Float.Model (Format UnpackedFloat)
open Float.Model.UnpackedFloat (Sign unpackExponent unpackExponent_packComponents)

variable {s : Sign} {m : Nat} {e : Int} {x y : Float}

/-- The double is finite, and so are its products with other such doubles. -/
structure IsModerate (x : Float) : Prop where
  /-- The double is finite. -/
  isFinite : x.isFinite = true
  /-- Its exponent is small. -/
  exponent : (parts x).exponent ≤ 400

theorem IsModerate.exponent_unpack (h : IsModerate x) {hm : 0 < m}
    (hs : x.toModel.unpack = .finite s m e hm) : e ≤ 400 := by
  have he := h.exponent
  rwa [parts_of_unpack hs] at he

theorem isFinite_pack_zero (s : Sign) : (Float.ofModel (.pack (.zero s))).isFinite = true := by
  cases s <;> rfl

/-- **Products of such doubles are finite.** -/
theorem IsModerate.isFinite_mul (hx : IsModerate x) (hy : IsModerate y) :
    (x * y).isFinite = true := by
  have hmul : x * y =
      .ofModel (.pack (.mul .binary64 x.toModel.unpack y.toModel.unpack)) := rfl
  rw [hmul]
  rcases exists_unpack hx.isFinite with ⟨s, hs⟩ | ⟨s, m, e, hm, hs⟩
  · rcases exists_unpack hy.isFinite with ⟨s', hs'⟩ | ⟨s', m', e', hm', hs'⟩
    · rw [hs, hs']
      exact isFinite_pack_zero _
    · rw [hs, hs']
      exact isFinite_pack_zero _
  · rcases exists_unpack hy.isFinite with ⟨s', hs'⟩ | ⟨s', m', e', hm', hs'⟩
    · rw [hs, hs']
      exact isFinite_pack_zero _
    · have he := hx.exponent_unpack hs
      have he' := hy.exponent_unpack hs'
      have hlt := mantissa_lt_of_unpack hs
      have hlt' := mantissa_lt_of_unpack hs'
      have hproduct : m * m' < 2 ^ 106 := by
        calc m * m' < 2 ^ 53 * 2 ^ 53 := Nat.mul_lt_mul'' hlt hlt'
          _ = 2 ^ 106 := by rw [← Nat.pow_add]
      rw [hs, hs']
      exact isFinite_roundWithAccuracy hproduct (by omega)

theorem isModerate_of_lt (hx : 0.0 < x) (h : x < y) (hy : IsModerate y) : IsModerate x := by
  have hzero : (0.0 : Float).toModel.unpack = .zero .positive := rfl
  have hfinite : x.isFinite = true :=
    isFinite_of_le_of_lt (x := 0.0) rfl (le_iff.2 (by rw [lt_iff.1 hx]; rfl)) h
  refine ⟨hfinite, ?_⟩
  rw [lt_iff, order?] at hx h
  rcases exists_unpack hfinite with ⟨s, hs⟩ | ⟨s, m, e, hm, hs⟩
  · rw [hzero, hs] at hx
    cases hx
  · rw [hzero, hs] at hx
    rw [hs] at h
    cases s with
    | negative => cases hx
    | positive =>
      rcases exists_unpack hy.isFinite with ⟨s', hs'⟩ | ⟨s', m', e', hm', hs'⟩
      · rw [hs'] at h
        cases h
      · rw [hs'] at h
        have he' := hy.exponent_unpack hs'
        rw [parts_of_unpack hs]
        cases s' with
        | negative => cases h
        | positive =>
          have horder : some ((compare e e').then (compare m m')) = some .lt := h
          refine Int.le_trans (Int.not_lt.1 fun hlt => ?_) he'
          rw [Int.compare_eq_gt.2 hlt] at horder
          cases horder

/-! ### Signs and fractions -/

theorem isModerate_zero (s : Sign) : IsModerate (.ofModel (.pack (.zero s))) := by
  cases s
  · exact ⟨rfl, by decide⟩
  · exact ⟨rfl, by decide⟩

theorem isModerate_pack {hm : 0 < m} (he : e ≤ 400) :
    IsModerate (.ofModel (.pack (.finite s m e hm))) := by
  refine ⟨isFinite_pack (by omega), ?_⟩
  have hfield : (Float.ofModel (.pack (.finite s m e hm))).toBits.toNat / twoTo 52 % twoTo 11 ≤
      (e + 1075).toNat := by
    change (UnpackedFloat.pack .binary64 (.finite s m e hm)).toNat / twoTo 52 % twoTo 11 ≤ _
    rw [← toNat_unpackExponent, pack_finite (by omega), unpackExponent_packComponents]
    split
    · exact Nat.mod_le _ _
    · exact Nat.zero_le _
  simp only [parts]
  split <;> omega

theorem isModerate_ofBits {a : UInt64} (h : a.toNat / twoTo 52 % twoTo 11 ≤ 1474) :
    IsModerate (.ofBits a) := by
  have hfield : (@unpackExponent .binary64 a.toBitVec).toNat ≤ 1474 := by
    rwa [toNat_unpackExponent]
  have hnot : @unpackExponent .binary64 a.toBitVec ≠ -1#11 := by
    intro hfield'
    rw [hfield'] at hfield
    exact absurd hfield (by decide)
  have hofBits : Float.ofBits a =
      .ofModel (.pack (UnpackedFloat.unpack .binary64 a.toBitVec)) := rfl
  have hbias : (Format.binary64.exponentBias : Int) = 1023 := rfl
  rw [hofBits, UnpackedFloat.unpack]
  simp only [if_neg hnot, hbias]
  split
  · next hzero =>
    split
    · exact isModerate_zero _
    · refine isModerate_pack ?_
      rw [hzero]
      decide
  · exact isModerate_pack (by omega)

theorem IsModerate.neg (h : IsModerate x) : IsModerate (-x) := by
  have hneg : -x = .ofModel (.pack x.toModel.unpack.neg) := rfl
  rw [hneg]
  rcases exists_unpack h.isFinite with ⟨s, hs⟩ | ⟨s, m, e, hm, hs⟩
  · rw [hs]
    exact isModerate_zero _
  · rw [hs]
    exact isModerate_pack (h.exponent_unpack hs)

theorem isModerate_word (hm : m ≤ 2 ^ 53) (he : e ≤ 348) :
    IsModerate (.ofBits (m + (e + 1074).toNat * 2 ^ 52).toUInt64) := by
  refine isModerate_ofBits ?_
  have hword : (m + (e + 1074).toNat * 2 ^ 52).toUInt64.toNat = m + (e + 1074).toNat * 2 ^ 52 := by
    rw [Nat.toUInt64_eq, UInt64.toNat_ofNat']
    exact Nat.mod_eq_of_lt (by omega)
  change _ / 2 ^ 52 % 2 ^ 11 ≤ _
  rw [hword]
  omega

/-- A fraction whose numerator is not too large is nearest to such a double. -/
theorem isModerate_ofRatio {num den : Nat} (hden : den ≠ 0) (h : num.log2 ≤ 400) :
    IsModerate (ofRatio num den) := by
  have hlt := lt_of_binaryOrder num hden
  have h := Int.le_trans (binaryOrder_le num den) (Int.ofNat_le.2 h)
  have htwo : twoTo 52 = 2 ^ 52 := rfl
  rw [ofRatio]
  split
  · exact isModerate_ofBits (by decide)
  · dsimp only
    generalize binaryOrder num den = k at h hlt
    generalize he : max (k - 52) (-1074) = e
    have hscaled : num * twoTo (-e).toNat ≤ 2 ^ 53 * (den * twoTo e.toNat) := by
      refine Nat.le_of_mul_le_mul_right ?_ (Nat.two_pow_pos (-(k + 1)).toNat)
      calc num * 2 ^ (-e).toNat * 2 ^ (-(k + 1)).toNat
          = num * 2 ^ (-(k + 1)).toNat * 2 ^ (-e).toNat := Nat.mul_right_comm ..
        _ ≤ den * 2 ^ (k + 1).toNat * 2 ^ (-e).toNat := Nat.mul_le_mul_right _ (Nat.le_of_lt hlt)
        _ = den * 2 ^ ((k + 1).toNat + (-e).toNat) := by rw [Nat.mul_assoc, ← Nat.pow_add]
        _ ≤ den * 2 ^ (53 + e.toNat + (-(k + 1)).toNat) :=
          Nat.mul_le_mul_left _ (Nat.pow_le_pow_right (by decide) (by omega))
        _ = 2 ^ 53 * (den * 2 ^ e.toNat) * 2 ^ (-(k + 1)).toNat := by ring
    have hpos : 0 < den * twoTo e.toNat :=
      Nat.mul_pos (Nat.pos_of_ne_zero hden) (Nat.two_pow_pos e.toNat)
    have hm := roundDiv_le hpos hscaled
    generalize Decimal.roundDiv (num * twoTo (-e).toNat) (den * twoTo e.toNat) = m at hm
    rw [htwo, if_pos (by omega)]
    exact isModerate_word hm (by omega)

end StrategyGraph.Binary64
