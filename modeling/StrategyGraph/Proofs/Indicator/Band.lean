import Mathlib.Analysis.Real.Sqrt
import Mathlib.Tactic.Linarith
import StrategyGraph.Indicator.Band
import StrategyGraph.Proofs.Indicator.Average
import StrategyGraph.Proofs.Number.Value

/-!
# Bands of exact values

Among the reals no square is too large and each root is exact, so there is a band at every bar.

* `variance` : the mean square of the distances from the mean, which is zero only of values that are
  all the same (`variance_eq_zero_iff`);
* `band_eq` : a band lies at a multiple of the root of the variance, above or below the mean, and
  `exists_bollinger` : so it does at every bar;
* `bands_bracket` : **the bands enclose the simple average symmetrically.**
-/

namespace StrategyGraph.Indicator

/-- Squares and roots of reals are exact. -/
noncomputable instance radicalReal : Radical ℝ := ⟨fun x => .ok (x ^ 2), Real.sqrt⟩

variable {window i : Nat} {xs : List ℝ}

/-! ### The variance -/

/-- The mean square of the distances from the mean. -/
noncomputable def variance (xs : List ℝ) : ℝ :=
  (xs.map fun x => (x - xs.sum / xs.length) ^ 2).sum / xs.length

theorem variance_nonneg (xs : List ℝ) : 0 ≤ variance xs :=
  div_nonneg (List.sum_nonneg (List.forall_mem_map.2 fun _ _ => sq_nonneg _)) (Nat.cast_nonneg _)

theorem variance_eq_zero_iff (h : xs ≠ []) : variance xs = 0 ↔ ∀ x ∈ xs, ∀ y ∈ xs, x = y := by
  have hlength : (xs.length : ℝ) ≠ 0 := Nat.cast_ne_zero.2 (List.length_pos_iff.2 h).ne'
  rw [variance, div_eq_zero_iff, or_iff_left hlength, sum_map_eq_zero_iff fun _ _ => sq_nonneg _]
  simp only [sq_eq_zero_iff, sub_eq_zero]
  constructor
  · intro hmean x hx y hy
    rw [hmean x hx, hmean y hy]
  · intro hsame x hx
    have hreplicate : xs = List.replicate xs.length x :=
      List.eq_replicate_of_mem fun y hy => hsame y hy x hx
    have hmean := mean_replicate (List.length_pos_iff.2 h).ne' x
    rw [← hreplicate, mean_eq] at hmean
    exact hmean.symm

/-! ### The bands of a window -/

theorem squaredDistances_eq (m : ℝ) (xs : List ℝ) :
    squaredDistances m xs = .ok (xs.map fun x => (x - m) ^ 2).sum := by
  have hfold : ∀ (xs : List ℝ) (sum : ℝ),
      xs.foldlM (fun sum x => (Radical.square (x - m)).map (sum + ·)) sum =
        (.ok (sum + (xs.map fun x => (x - m) ^ 2).sum) : Except Fault ℝ) := by
    intro xs
    induction xs with
    | nil =>
      intro sum
      rw [List.map_nil, List.sum_nil, add_zero]
      rfl
    | cons x xs ih =>
      intro sum
      rw [List.map_cons, List.sum_cons, ← add_assoc]
      exact ih (sum + (x - m) ^ 2)
  rw [squaredDistances, hfold, Nat.cast_zero, zero_add]

/-- The value a number of standard deviations above or below the mean. -/
noncomputable def bandValue (upper : Bool) (deviations : ℝ) (xs : List ℝ) : ℝ :=
  if upper then mean xs + deviations * √(variance xs) else mean xs - deviations * √(variance xs)

theorem band_eq (upper : Bool) (deviations : ℝ) (xs : List ℝ) :
    band upper deviations xs = .ok (bandValue upper deviations xs) := by
  rw [band, deviation, squaredDistances_eq, bandValue, mean_eq]
  rfl

section

variable {deviations : ℝ} {ws : List ℝ}

theorem bandValue_true : bandValue true deviations ws = mean ws + deviations * √(variance ws) :=
  if_pos rfl

theorem bandValue_false : bandValue false deviations ws = mean ws - deviations * √(variance ws) :=
  if_neg Bool.false_ne_true

theorem bandValue_false_le (h : 0 ≤ deviations) : bandValue false deviations ws ≤ mean ws := by
  rw [bandValue_false]
  exact sub_le_self _ (mul_nonneg h (Real.sqrt_nonneg _))

theorem le_bandValue_true (h : 0 ≤ deviations) : mean ws ≤ bandValue true deviations ws := by
  rw [bandValue_true]
  exact le_add_of_nonneg_right (mul_nonneg h (Real.sqrt_nonneg _))

theorem bandValue_true_sub :
    bandValue true deviations ws - mean ws = mean ws - bandValue false deviations ws := by
  rw [bandValue_true, bandValue_false, add_sub_cancel_left, sub_sub_cancel]

theorem sq_bandValue_true_sub :
    (bandValue true deviations ws - mean ws) ^ 2 = deviations ^ 2 * variance ws := by
  rw [bandValue_true, add_sub_cancel_left, mul_pow, Real.sq_sqrt (variance_nonneg ws)]

theorem bandValue_true_eq_iff (h : deviations ≠ 0) :
    bandValue true deviations ws = bandValue false deviations ws ↔ variance ws = 0 := by
  rw [bandValue_true, bandValue_false, ← Real.sqrt_eq_zero (variance_nonneg ws),
    ← mul_eq_zero_iff_left h]
  constructor
  · intro hmeet
    linarith
  · intro hzero
    rw [hzero, add_zero, sub_zero]

end

/-! ### The series of bands -/

theorem bollinger_eq (window : Nat) (upper : Bool) (deviations : ℝ) (xs : List ℝ) :
    bollinger window upper deviations xs =
      .ok (overPrefixes (fun p => some (bandValue upper deviations (trailing window p))) xs) := by
  simp only [bollinger, band_eq, overPrefixes, List.mapM_map]
  exact List.mapM_pure

theorem exists_bollinger (window : Nat) (upper : Bool) (deviations : ℝ) (xs : List ℝ) :
    ∃ series, bollinger window upper deviations xs = .ok series ∧ ∀ i < xs.length,
      series[i]? = some (some (bandValue upper deviations (xs.extract (i + 1 - window) (i + 1)))) := by
  refine ⟨_, bollinger_eq window upper deviations xs, fun i hi => ?_⟩
  rw [getElem?_overPrefixes _ hi, trailing_take window hi]

theorem value_defaultDeviations : Binary64.value defaultDeviations = 2 := by
  have hparts : Binary64.parts defaultDeviations =
      { negative := false, mantissa := 4503599627370496, exponent := -51 } := rfl
  rw [Binary64.value, hparts]
  norm_num [Binary64.Parts.value, Binary64.Parts.magnitude]

/-- **The bands enclose the simple average symmetrically.** At each bar the lower band is not above
the simple average and the upper band not below it, both are equally far from it, and the square of
that distance is four times the variance of the values that the average is made of. The bands meet
just where these values are all the same. -/
theorem bands_bracket (hwindow : 1 ≤ window) (xs : List ℝ) :
    ∃ uppers lowers, bollinger window true (Binary64.value defaultDeviations : ℝ) xs = .ok uppers ∧
      bollinger window false (Binary64.value defaultDeviations : ℝ) xs = .ok lowers ∧
      ∀ i < xs.length, ∃ u l m, uppers[i]? = some (some u) ∧ lowers[i]? = some (some l) ∧
        (sma window xs)[i]? = some (some m) ∧ l ≤ m ∧ m ≤ u ∧ u - m = m - l ∧
        (u - m) ^ 2 = 4 * variance (xs.extract (i + 1 - window) (i + 1)) ∧
        (u = l ↔ ∀ x ∈ xs.extract (i + 1 - window) (i + 1),
          ∀ y ∈ xs.extract (i + 1 - window) (i + 1), x = y) := by
  have htwo : (Binary64.value defaultDeviations : ℝ) = 2 := by
    rw [value_defaultDeviations, Rat.cast_ofNat]
  rw [htwo]
  obtain ⟨uppers, huppers, hupper⟩ := exists_bollinger window true 2 xs
  obtain ⟨lowers, hlowers, hlower⟩ := exists_bollinger window false 2 xs
  refine ⟨uppers, lowers, huppers, hlowers, fun i hi => ⟨_, _, _, hupper i hi, hlower i hi,
    getElem?_sma window hi, bandValue_false_le zero_le_two, le_bandValue_true zero_le_two,
    bandValue_true_sub, ?_, ?_⟩⟩
  · rw [sq_bandValue_true_sub]
    norm_num
  · rw [bandValue_true_eq_iff two_ne_zero, variance_eq_zero_iff (extract_ne_nil (by omega) hi)]

theorem bands_bracket_pair :
    1 ≤ 2 ∧ variance [1, 3] = 1 ∧
    ∃ uppers lowers, bollinger 2 true (Binary64.value defaultDeviations : ℝ) [5, 1, 3] = .ok uppers ∧
      bollinger 2 false (Binary64.value defaultDeviations : ℝ) [5, 1, 3] = .ok lowers ∧
      uppers[2]? = some (some 4) ∧ lowers[2]? = some (some 0) := by
  have hvariance : variance [1, 3] = 1 := by norm_num [variance]
  have hmean : mean [1, (3 : ℝ)] = 2 := by norm_num [mean_eq]
  obtain ⟨uppers, lowers, huppers, hlowers, hbands⟩ :=
    bands_bracket (by decide : 1 ≤ 2) [5, 1, (3 : ℝ)]
  obtain ⟨u, l, m, hu, hl, hm, hlm, hmu, hsymmetric, hsquare, -⟩ := hbands 2 (by decide)
  have hwindow : [5, 1, (3 : ℝ)].extract (2 + 1 - 2) (2 + 1) = [1, 3] := rfl
  rw [getElem?_sma 2 (by decide), hwindow, hmean] at hm
  obtain rfl : 2 = m := Option.some.inj (Option.some.inj hm)
  rw [hwindow, hvariance] at hsquare
  -- The distance of the bands from the average is the one whose square is 4, and not negative.
  have hdistance : u - 2 = 2 := by nlinarith
  obtain rfl : u = 4 := by linarith
  obtain rfl : l = 0 := by linarith
  exact ⟨by decide, hvariance, uppers, lowers, huppers, hlowers, hu, hl⟩

end StrategyGraph.Indicator
