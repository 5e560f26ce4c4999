import StrategyGraph.Decimal.Fixed
import StrategyGraph.Proofs.Number.Quotient
import StrategyGraph.Proofs.Number.Unpacked
import StrategyGraph.Proofs.Number.Value

/-!
# Rounding above one

A double that is one at least is not below one when it is rounded to decimal places, since one is a
decimal and a double: neither the decimal nearest to the double nor the double nearest to that
decimal is on the other side of it.

* `one_le_iff` : how doubles that are one at least are unpacked, `den_le_num_of_one_le` : which
  fractions they are, and `one_le_ofBits` : which words they have;
* `one_le_ofRatio` : **a fraction that is one at least is nearest to such a double**;
* `one_le_roundPlaces` : what follows for rounding to decimal places.
-/

namespace StrategyGraph.Binary64

open Float.Model (UnpackedFloat)
open Float.Model.UnpackedFloat (Sign)
open Decimal (roundDiv scaled roundPlaces)

variable {x : Float} {num den : Nat}

/-! ### Doubles that are one at least -/

theorem unpack_one :
    (1.0 : Float).toModel.unpack = .finite .positive (2 ^ 52) (-52) (by decide) := by
  rfl

/-- One has the least mantissa that has all its bits. So the doubles that are one at least are the
positive ones that have neither a shorter mantissa nor a smaller exponent. -/
theorem one_le_iff {s : Sign} {m : Nat} {e : Int} {hm : 0 < m}
    (h : x.toModel.unpack = .finite s m e hm) :
    1.0 ≤ x ↔ s = .positive ∧ 2 ^ 52 ≤ m ∧ -52 ≤ e := by
  have hlong := (Parts.canonical_parts x).long
  simp only [parts_of_unpack h] at hlong
  rw [le_iff, order?, unpack_one, h]
  cases s with
  | negative =>
    have hgreater : (UnpackedFloat.finite .positive (2 ^ 52) (-52) (by decide)).compare
        (.finite .negative m e hm) = some .gt := rfl
    rw [hgreater]
    simp
  | positive =>
    have hcompare : (UnpackedFloat.finite .positive (2 ^ 52) (-52) (by decide)).compare
        (.finite .positive m e hm) = some ((compare (-52) e).then (compare (2 ^ 52) m)) := rfl
    rw [hcompare, Option.any_some]
    rcases Int.lt_trichotomy (-52) e with hlt | heq | hgt
    · rw [Int.compare_eq_lt.2 hlt]
      simp only [Ordering.then, Ordering.isLE, true_and, true_iff]
      omega
    · subst heq
      rw [compare_eq_iff_eq.2 rfl]
      simp [Nat.isLE_compare]
    · rw [Int.compare_eq_gt.2 hgt]
      simp only [Ordering.then, Ordering.isLE, Bool.false_eq_true, true_and, false_iff]
      omega

theorem pos_of_one_le (h : 1.0 ≤ x) : 0.0 < x := by
  have hzero : (0.0 : Float).toModel.unpack = .zero .positive := rfl
  rw [lt_iff, order?, hzero]
  cases hx : x.toModel.unpack with
  | finite s m e hm =>
    obtain ⟨rfl, -, -⟩ := (one_le_iff hx).1 h
    rfl
  | infinity s =>
    rw [le_iff, order?, unpack_one, hx] at h
    cases s with
    | positive => rfl
    | negative => cases h
  | zero | notANumber =>
    rw [le_iff, order?, unpack_one, hx] at h
    cases h

/-- Such a double is not negative, and as a fraction it is one at least. -/
theorem den_le_num_of_one_le (hx : x.isFinite = true) (h : 1.0 ≤ x) :
    (parts x).negative = false ∧ (parts x).den ≤ (parts x).num := by
  rcases exists_unpack hx with ⟨s, hs⟩ | ⟨s, m, e, hm, hs⟩
  · rw [le_iff, order?, unpack_one, hs] at h
    cases h
  · obtain ⟨rfl, hlong, he⟩ := (one_le_iff hs).1 h
    rw [parts_of_unpack hs]
    refine ⟨rfl, ?_⟩
    calc 2 ^ (-e).toNat
        _ ≤ 2 ^ 52 := Nat.pow_le_pow_right (by decide) (by omega)
        _ ≤ m := hlong
        _ ≤ m * 2 ^ e.toNat := Nat.le_mul_of_pos_right m (Nat.two_pow_pos _)

/-- The words of the finite doubles that are one at least. -/
theorem one_le_ofBits {a : Nat} (hlo : 1023 * 2 ^ 52 ≤ a) (hhi : a < 2047 * 2 ^ 52) :
    1.0 ≤ Float.ofBits a.toUInt64 := by
  -- The fields of the word.
  obtain ⟨m, e, hm, hm', he, he', rfl⟩ : ∃ (m : Nat) (e : Int), 2 ^ 52 ≤ m ∧ m < 2 ^ 53 ∧
      -52 ≤ e ∧ e ≤ 971 ∧ a = m + (e + 1074).toNat * 2 ^ 52 :=
    ⟨2 ^ 52 + a % 2 ^ 52, a / 2 ^ 52 - 1075, by omega, by omega, by omega, by omega, by omega⟩
  have hpos : 0 < m := Nat.lt_of_lt_of_le (by decide) hm
  rw [ofBits_eq_pack hpos hm hm' (by omega) he']
  exact (one_le_iff (unpack_pack hm hm' (by omega) he')).2 ⟨rfl, hm, he⟩

/-! ### Fractions that are one at least -/

/-- **A fraction that is one at least is nearest to such a double.** -/
theorem one_le_ofRatio (hden : 0 < den) (h : den ≤ num) : 1.0 ≤ ofRatio num den := by
  have hnum : num ≠ 0 := by omega
  have horder := binaryOrder_nonneg (by omega) h
  have hle := le_of_binaryOrder hnum den
  rw [ofRatio, if_neg hnum]
  dsimp only
  generalize binaryOrder num den = k at horder hle
  have hmax : max (k - 52) (-1074) = k - 52 := by omega
  rw [hmax]
  have hscaled : 2 ^ 52 * (den * twoTo (k - 52).toNat) ≤ num * twoTo (-(k - 52)).toNat := by
    have hneg : (-k).toNat = 0 := by omega
    rw [hneg, Nat.pow_zero, Nat.mul_one] at hle
    calc 2 ^ 52 * (den * 2 ^ (k - 52).toNat)
        _ = den * 2 ^ (52 + (k - 52).toNat) := by
          rw [Nat.pow_add]
          exact Nat.mul_left_comm ..
        _ = den * 2 ^ k.toNat * 2 ^ (-(k - 52)).toNat := by
          rw [Nat.mul_assoc, ← Nat.pow_add]
          congr 2
          omega
        _ ≤ num * 2 ^ (-(k - 52)).toNat := Nat.mul_le_mul_right _ hle
  -- The mantissa has all its bits, and the exponent is not smaller than that of one.
  have hpos : 0 < den * twoTo (k - 52).toNat := Nat.mul_pos hden (Nat.two_pow_pos _)
  have hm := le_roundDiv hpos hscaled
  generalize roundDiv (num * twoTo (-(k - 52)).toNat) (den * twoTo (k - 52).toNat) = m at hm
  have htwo : twoTo 52 = 2 ^ 52 := rfl
  rw [htwo]
  split
  · next hbits => exact one_le_ofBits (by omega) hbits
  · exact le_iff.2 rfl

/-! ### Decimal places -/

theorem isFinite_of_not_special (h : ¬(x.isNaN || x.isInf) = true) : x.isFinite = true := by
  change ¬(x.toModel.unpack.isNaN || x.toModel.unpack.isInf) = true at h
  change x.toModel.unpack.isFinite = true
  cases hx : x.toModel.unpack with
  | zero | finite => rfl
  | notANumber | infinity =>
    rw [hx] at h
    exact absurd rfl h

theorem Parts.den_pos (p : Parts) : 0 < p.den := Nat.two_pow_pos _

/-- **A double that is one at least stays so when it is rounded to decimal places.** -/
theorem one_le_roundPlaces (places : Nat) (h : 1.0 ≤ x) : 1.0 ≤ roundPlaces places x := by
  rw [roundPlaces]
  split
  · exact h
  · next hspecial =>
    obtain ⟨hsign, hle⟩ := den_le_num_of_one_le (isFinite_of_not_special hspecial) h
    have hscaled : tenTo places ≤ scaled places x := by
      rw [scaled]
      refine le_roundDiv (Parts.den_pos _) ?_
      rw [Nat.mul_comm]
      exact Nat.mul_le_mul_right _ hle
    have hpos : 0 < tenTo places := Nat.pow_pos (by decide)
    simp only [hsign, Bool.false_eq_true, if_false]
    exact one_le_ofRatio hpos hscaled

end StrategyGraph.Binary64
