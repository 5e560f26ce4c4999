import Mathlib.Algebra.Group.Nat.Defs
import StrategyGraph.Decimal.Binary64

/-!
# Parts of doubles

A double is unpacked into a sign, a mantissa and an exponent, which are fields of its bits, and so
are its parts.

* `unpack_eq` : how fields are unpacked, and `parts_eq` : how parts are made of them;
* `unpack_parts` : **a finite double is unpacked into its parts**, unless it is a zero;
* `mantissa_lt` and `exponent_le` : how large the parts can be.
-/

namespace StrategyGraph.Binary64

open Float.Model (Format UnpackedFloat)
open Float.Model.UnpackedFloat (Sign unpackSign unpackExponent unpackMantissa)

variable {b : BitVec 64} {s : Sign} {m : Nat} {e : Int} {x : Float}

theorem toNat_unpackMantissa : (@unpackMantissa .binary64 b).toNat = b.toNat % twoTo 52 := by
  change (b.extractLsb 51 0).toNat = _
  rw [BitVec.extractLsb_toNat]
  rfl

theorem toNat_unpackExponent :
    (@unpackExponent .binary64 b).toNat = b.toNat / twoTo 52 % twoTo 11 := by
  change (b.extractLsb 62 52).toNat = _
  rw [BitVec.extractLsb_toNat, Nat.shiftRight_eq_div_pow]
  rfl

/-- The sign is a minus sign. -/
def isNegative (s : Sign) : Bool := s matches .negative

theorem isNegative_unpackSign : isNegative (.ofBitVec (@unpackSign .binary64 b)) =
    decide (b.toNat / twoTo 63 = 1) := by
  have hsign : (@unpackSign .binary64 b).toNat = b.toNat / twoTo 63 % 2 := by
    change (b.extractLsb 63 63).toNat = _
    rw [BitVec.extractLsb_toNat, Nat.shiftRight_eq_div_pow]
    rfl
  have hlt : b.toNat / twoTo 63 < 2 := Nat.div_lt_of_lt_mul b.isLt
  rw [Nat.mod_eq_of_lt hlt] at hsign
  rw [← hsign]
  generalize @unpackSign .binary64 b = v
  rcases v.eq_zero_or_eq_one with rfl | rfl <;> rfl

theorem toNat_one_append {w : Nat} (v : BitVec w) : (1#1 ++ v).toNat = 2 ^ w + v.toNat := by
  rw [BitVec.toNat_append, ← Nat.shiftLeft_add_eq_or_of_lt v.isLt, Nat.shiftLeft_eq]
  simp

theorem unpack_eq (b : BitVec 64) : UnpackedFloat.unpack .binary64 b =
    if @unpackExponent .binary64 b = -1#11 then
      if @unpackMantissa .binary64 b = 0#52 then
        .infinity (.ofBitVec (@unpackSign .binary64 b))
      else .notANumber
    else if @unpackExponent .binary64 b = 0#11 then
      if h : @unpackMantissa .binary64 b = 0#52 then .zero (.ofBitVec (@unpackSign .binary64 b))
      else
        .finite (.ofBitVec (@unpackSign .binary64 b)) (@unpackMantissa .binary64 b).toNat
          (((@unpackExponent .binary64 b).toNat : Int) - 1075 + 1)
          (Nat.pos_of_ne_zero fun hzero => h (BitVec.eq_of_toNat_eq hzero))
    else
      .finite (.ofBitVec (@unpackSign .binary64 b)) (1#1 ++ @unpackMantissa .binary64 b).toNat
        (((@unpackExponent .binary64 b).toNat : Int) - 1075)
        (toNat_one_append (@unpackMantissa .binary64 b) ▸ Nat.add_pos_left (Nat.two_pow_pos 52) _) :=
  rfl

theorem parts_eq (x : Float) : parts x = {
    negative := isNegative (.ofBitVec (@unpackSign .binary64 x.toBits.toBitVec))
    mantissa :=
      if @unpackExponent .binary64 x.toBits.toBitVec = 0#11
      then (@unpackMantissa .binary64 x.toBits.toBitVec).toNat
      else (1#1 ++ @unpackMantissa .binary64 x.toBits.toBitVec).toNat
    exponent :=
      if @unpackExponent .binary64 x.toBits.toBitVec = 0#11 then -1074
      else ((@unpackExponent .binary64 x.toBits.toBitVec).toNat : Int) - 1075 } := by
  simp only [← BitVec.toNat_inj, toNat_one_append, toNat_unpackMantissa, toNat_unpackExponent,
    isNegative_unpackSign]
  rfl

theorem unpackExponent_ne (h : x.isFinite = true) :
    @unpackExponent .binary64 x.toBits.toBitVec ≠ -1#11 := by
  intro hfield
  have hunpack : x.isFinite = (UnpackedFloat.unpack .binary64 x.toBits.toBitVec).isFinite := rfl
  rw [hunpack, unpack_eq, if_pos hfield] at h
  split at h <;> cases h

/-- **A finite double is unpacked into its parts**, unless it is a zero. -/
theorem unpack_parts (h : x.isFinite = true) :
    (∃ s, x.toModel.unpack = .zero s ∧ (parts x).mantissa = 0) ∨
    ∃ s m e, ∃ hm : 0 < m, x.toModel.unpack = .finite s m e hm ∧
      parts x = { negative := isNegative s, mantissa := m, exponent := e } := by
  have hunpack : x.toModel.unpack = UnpackedFloat.unpack .binary64 x.toBits.toBitVec := rfl
  rw [hunpack, unpack_eq, if_neg (unpackExponent_ne h), parts_eq]
  by_cases hfield : @unpackExponent .binary64 x.toBits.toBitVec = 0#11
  · rw [if_pos hfield, if_pos hfield, if_pos hfield]
    by_cases hzero : @unpackMantissa .binary64 x.toBits.toBitVec = 0#52
    · rw [dif_pos hzero, hzero]
      exact .inl ⟨_, rfl, rfl⟩
    · rw [dif_neg hzero, hfield]
      exact .inr ⟨_, _, _, _, rfl, rfl⟩
  · rw [if_neg hfield, if_neg hfield, if_neg hfield]
    exact .inr ⟨_, _, _, _, rfl, rfl⟩

theorem exists_unpack (h : x.isFinite = true) : (∃ s, x.toModel.unpack = .zero s) ∨
    ∃ s m e, ∃ hm : 0 < m, x.toModel.unpack = .finite s m e hm :=
  (unpack_parts h).imp (fun ⟨s, hs, _⟩ => ⟨s, hs⟩)
    fun ⟨s, m, e, hm, hs, _⟩ => ⟨s, m, e, hm, hs⟩

theorem isFinite_of_unpack {u : UnpackedFloat} (h : x.toModel.unpack = u)
    (hu : u.isFinite = true) : x.isFinite = true := by
  subst h
  exact hu

theorem parts_of_unpack {hm : 0 < m} (h : x.toModel.unpack = .finite s m e hm) :
    parts x = { negative := isNegative s, mantissa := m, exponent := e } := by
  rcases unpack_parts (isFinite_of_unpack h rfl) with ⟨t, ht, -⟩ | ⟨t, n, d, hn, ht, hparts⟩
  · cases h.symm.trans ht
  · cases h.symm.trans ht
    exact hparts

theorem mantissa_of_unpack_zero (h : x.toModel.unpack = .zero s) : (parts x).mantissa = 0 := by
  rcases unpack_parts (isFinite_of_unpack h rfl) with ⟨t, -, hmantissa⟩ | ⟨t, n, d, hn, ht, -⟩
  · exact hmantissa
  · cases h.symm.trans ht

theorem isInf_of_isFinite (h : x.isFinite = true) : x.isInf = false := by
  have hinf : x.isInf = x.toModel.unpack.isInf := rfl
  rcases exists_unpack h with ⟨s, hs⟩ | ⟨s, m, e, hm, hs⟩
  · rw [hinf, hs]
    rfl
  · rw [hinf, hs]
    rfl

theorem mantissa_lt (x : Float) : (parts x).mantissa < 2 ^ 53 := by
  have hfraction : x.toBits.toNat % twoTo 52 < 2 ^ 52 := Nat.mod_lt _ (Nat.two_pow_pos 52)
  have htwo : twoTo 52 = 2 ^ 52 := rfl
  simp only [parts]
  split <;> omega

theorem mantissa_lt_of_unpack {hm : 0 < m} (h : x.toModel.unpack = .finite s m e hm) :
    m < 2 ^ 53 := by
  have hlt := mantissa_lt x
  rwa [parts_of_unpack h] at hlt

theorem exponent_le (h : x.isFinite = true) : (parts x).exponent ≤ 971 := by
  have hnot := unpackExponent_ne h
  rw [Ne, ← BitVec.toNat_inj, toNat_unpackExponent] at hnot
  change ¬x.toBits.toNat / twoTo 52 % twoTo 11 = 2047 at hnot
  have hlt : x.toBits.toNat / twoTo 52 % twoTo 11 < 2048 := Nat.mod_lt _ (Nat.two_pow_pos 11)
  simp only [parts]
  split <;> omega

end StrategyGraph.Binary64
