import StrategyGraph.Proofs.Number.Unpacked
import StrategyGraph.Proofs.Number.Value

/-!
# Opposite doubles

A minus sign turns the sign bit of a finite double and leaves the other bits as they are. So it is
exact, and it turns the order of the doubles round.

* `unpack_packComponents_neg` : the other sign bit is unpacked to the opposite;
* `unpack_neg` : **how the opposite of a finite double is unpacked**;
* `neg_neg_of_isFinite`, `value_neg` and `opposite_lt_opposite` : what follows for the double itself,
  for its value and for the order.
-/

namespace StrategyGraph.Binary64

open Float.Model (Format UnpackedFloat)
open Float.Model.UnpackedFloat (Sign packComponents unpackExponent_packComponents
  unpackMantissa_packComponents unpackSign_packComponents pack_unpack_of_valid unpack_inj_of_valid)

variable {x y : Float} {s : Sign}

theorem unpack_packComponents_neg (s : Sign) (e : BitVec 11) (m : BitVec 52) :
    UnpackedFloat.unpack .binary64 (packComponents .binary64 (-s) e m) =
      (UnpackedFloat.unpack .binary64 (packComponents .binary64 s e m)).neg := by
  simp only [UnpackedFloat.unpack, unpackExponent_packComponents, unpackMantissa_packComponents,
    unpackSign_packComponents, Sign.ofBitVec_toBitVec]
  split
  · split <;> rfl
  · split
    · split <;> rfl
    · rfl

/-- **The opposite of a finite double is unpacked to the opposite.** -/
theorem unpack_neg (h : x.isFinite = true) : (-x).toModel.unpack = x.toModel.unpack.neg := by
  have hneg : (-x).toModel = .pack x.toModel.unpack.neg := rfl
  rcases exists_unpack h with ⟨s, hs⟩ | ⟨s, m, e, hm, hs⟩
  · rw [hneg, hs]
    cases s <;> rfl
  · have he : e ≤ 971 := by
      have hexponent := exponent_le h
      rwa [parts_of_unpack hs] at hexponent
    have hbits := pack_unpack_of_valid x.toModel.valid
    change UnpackedFloat.pack .binary64 x.toModel.unpack = _ at hbits
    change UnpackedFloat.unpack .binary64 (UnpackedFloat.pack .binary64 x.toModel.unpack.neg) =
      (UnpackedFloat.unpack .binary64 x.toModel.toBits.toBitVec).neg
    -- Packing reads the sign only for the sign bit.
    rw [← hbits, hs, UnpackedFloat.neg, pack_finite he, pack_finite he, unpack_packComponents_neg]

theorem isFinite_neg (h : x.isFinite = true) : (-x).isFinite = true := by
  refine isFinite_of_unpack (unpack_neg h) ?_
  rcases exists_unpack h with ⟨s, hs⟩ | ⟨s, m, e, hm, hs⟩ <;> rw [hs] <;> rfl

theorem neg_neg_of_isFinite (h : x.isFinite = true) : - -x = x := by
  have hunpack : (- -x).toModel.unpack = x.toModel.unpack := by
    rw [unpack_neg (isFinite_neg h), unpack_neg h]
    rcases exists_unpack h with ⟨s, hs⟩ | ⟨s, m, e, hm, hs⟩ <;> rw [hs] <;> cases s <;> rfl
  rw [← Float.toBits_inj, ← UInt64.toBitVec_inj]
  exact (unpack_inj_of_valid (- -x).toModel.valid x.toModel.valid).1 hunpack

theorem value_neg (h : x.isFinite = true) : value (-x) = -value x := by
  have hneg := unpack_neg h
  rcases exists_unpack h with ⟨s, hs⟩ | ⟨s, m, e, hm, hs⟩
  · rw [hs] at hneg
    rw [value_of_unpack_zero hneg, value_of_unpack_zero hs, neg_zero]
  · rw [hs] at hneg
    rw [value_of_unpack hneg, value_of_unpack hs, parts_of_unpack hneg, parts_of_unpack hs]
    cases s with
    | positive => rfl
    | negative => exact (neg_neg _).symm

/-- A minus sign turns the order round. -/
theorem opposite_lt_opposite (hx : x.isFinite = true) (hy : y.isFinite = true) : -x < -y ↔ y < x := by
  rw [lt_iff_value_lt (isFinite_neg hx) (isFinite_neg hy), value_neg hx, value_neg hy,
    neg_lt_neg_iff, lt_iff_value_lt hy hx]

end StrategyGraph.Binary64
