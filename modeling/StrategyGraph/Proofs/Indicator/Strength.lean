import Mathlib.Algebra.Order.Field.Basic
import Mathlib.Algebra.Order.Field.Rat
import Mathlib.Algebra.Order.Group.PosPart
import Mathlib.Tactic.FieldSimp
import Mathlib.Tactic.Ring
import StrategyGraph.Indicator.Strength
import StrategyGraph.Proofs.Indicator.Mean
import StrategyGraph.Proofs.Indicator.Window

/-!
# Relative strength of exact changes

In an ordered field the relative strength index is the share of the gains in all that has changed,
in percent, and 100 where nothing was lost.

* `gains_eq_sum` and `losses_eq_sum` : gains and losses are the sums of the positive and of the
  negative parts of the changes, so that they change places when all changes turn round;
* `strength_eq` : the index as a share;
* `getElem?_rsi` : the index at a bar is that of the `lastChanges` up to it;
* `rsi_range` : **range, extremes and mirror symmetry of the index.**
-/

namespace StrategyGraph.Indicator

variable {K : Type} [Field K] [LinearOrder K] [IsStrictOrderedRing K] {cs : List K}

/-! ### Gains and losses -/

omit [IsStrictOrderedRing K] in
theorem gains_eq_sum (cs : List K) : gains cs = (cs.map (·⁺)).sum := by
  rw [gains, Nat.cast_zero, List.sum_eq_foldl, List.foldl_map]
  congr with g c
  split
  · next h => rw [posPart_of_nonneg h.le]
  · next h => rw [posPart_of_nonpos (not_lt.1 h), add_zero]

theorem losses_eq_sum (cs : List K) : losses cs = (cs.map (·⁻)).sum := by
  rw [losses, Nat.cast_zero, List.sum_eq_foldl, List.foldl_map]
  congr with l c
  split
  · next h => rw [negPart_of_nonneg h.le, add_zero]
  · next h => rw [negPart_of_nonpos (not_lt.1 h), sub_eq_add_neg]

theorem gains_nonneg (cs : List K) : 0 ≤ gains cs := by
  rw [gains_eq_sum]
  exact List.sum_nonneg (List.forall_mem_map.2 fun c _ => posPart_nonneg c)

theorem losses_nonneg (cs : List K) : 0 ≤ losses cs := by
  rw [losses_eq_sum]
  exact List.sum_nonneg (List.forall_mem_map.2 fun c _ => negPart_nonneg c)

theorem gains_eq_zero_iff : gains cs = 0 ↔ ∀ c ∈ cs, c ≤ 0 := by
  rw [gains_eq_sum, sum_map_eq_zero_iff fun c _ => posPart_nonneg c]
  exact forall₂_congr fun c _ => posPart_eq_zero

theorem losses_eq_zero_iff : losses cs = 0 ↔ ∀ c ∈ cs, 0 ≤ c := by
  rw [losses_eq_sum, sum_map_eq_zero_iff fun c _ => negPart_nonneg c]
  exact forall₂_congr fun c _ => negPart_eq_zero

theorem gains_map_neg (cs : List K) : gains (cs.map Neg.neg) = losses cs := by
  rw [gains_eq_sum, losses_eq_sum, List.map_map]
  exact congrArg List.sum (List.map_congr_left fun c _ => posPart_neg c)

theorem losses_map_neg (cs : List K) : losses (cs.map Neg.neg) = gains cs := by
  rw [gains_eq_sum, losses_eq_sum, List.map_map]
  exact congrArg List.sum (List.map_congr_left fun c _ => negPart_neg c)

theorem gains_add_losses_pos (h : losses cs ≠ 0) : 0 < gains cs + losses cs :=
  add_pos_of_nonneg_of_pos (gains_nonneg cs) ((losses_nonneg cs).lt_of_ne' h)

theorem gains_add_losses_pos_iff : 0 < gains cs + losses cs ↔ ∃ c ∈ cs, c ≠ 0 := by
  have hsum := add_eq_zero_iff_of_nonneg (gains_nonneg cs) (losses_nonneg cs)
  rw [(add_nonneg (gains_nonneg cs) (losses_nonneg cs)).lt_iff_ne', ne_eq, hsum, gains_eq_zero_iff,
    losses_eq_zero_iff, ← forall₂_and]
  simp [← le_antisymm_iff]

/-! ### The index of a list of changes -/

/-- The index is the share of the gains in all changes, in percent. -/
theorem strength_eq (h : cs ≠ []) : strength cs =
    if losses cs = 0 then 100 else 100 * gains cs / (gains cs + losses cs) := by
  have hlength : (cs.length : K) ≠ 0 := Nat.cast_ne_zero.2 (List.length_pos_iff.2 h).ne'
  have hzero : losses cs / cs.length = 0 ↔ losses cs = 0 := by simp [hlength]
  simp only [strength, Nat.cast_zero, Nat.cast_one, Nat.cast_ofNat, beq_iff_eq, hzero,
    div_div_div_cancel_right₀ hlength]
  split
  · rfl
  · next hlost =>
    have hpos := gains_add_losses_pos hlost
    have hsum : 1 + gains cs / losses cs = (gains cs + losses cs) / losses cs := by
      rw [add_div, div_self hlost, add_comm]
    rw [hsum, div_div_eq_mul_div, eq_div_iff hpos.ne', sub_mul, div_mul_cancel₀ _ hpos.ne']
    ring

theorem strength_nonneg (h : cs ≠ []) : 0 ≤ strength cs := by
  rw [strength_eq h]
  split
  · exact Nat.ofNat_nonneg 100
  · next hlost =>
    exact div_nonneg (mul_nonneg (Nat.ofNat_nonneg 100) (gains_nonneg cs))
      (gains_add_losses_pos hlost).le

theorem strength_le (h : cs ≠ []) : strength cs ≤ 100 := by
  rw [strength_eq h]
  split
  · exact le_rfl
  · next hlost =>
    rw [div_le_iff₀ (gains_add_losses_pos hlost)]
    exact mul_le_mul_of_nonneg_left (le_add_of_nonneg_right (losses_nonneg cs)) (Nat.ofNat_nonneg 100)

theorem strength_eq_hundred_iff (h : cs ≠ []) : strength cs = 100 ↔ ∀ c ∈ cs, 0 ≤ c := by
  rw [← losses_eq_zero_iff, strength_eq h]
  split
  · next hnone => exact iff_of_true rfl hnone
  · next hlost =>
    refine iff_of_false (fun hall => hlost ?_) hlost
    rw [div_eq_iff (gains_add_losses_pos hlost).ne', mul_add, left_eq_add] at hall
    exact (mul_eq_zero.1 hall).resolve_left (OfNat.ofNat_ne_zero 100)

theorem strength_eq_zero_iff (h : cs ≠ []) :
    strength cs = 0 ↔ (∀ c ∈ cs, c ≤ 0) ∧ ∃ c ∈ cs, c < 0 := by
  have hlost : (∃ c ∈ cs, c < 0) ↔ losses cs ≠ 0 := by
    simp [losses_eq_zero_iff]
  rw [hlost, ← gains_eq_zero_iff, strength_eq h]
  split
  · next hnone => exact iff_of_false (OfNat.ofNat_ne_zero 100) fun hboth => hboth.2 hnone
  · next hsome =>
    rw [div_eq_zero_iff, or_iff_left (gains_add_losses_pos hsome).ne', mul_eq_zero,
      or_iff_right (OfNat.ofNat_ne_zero 100), and_iff_left hsome]

/-- The index of opposite changes is what is left to 100, unless nothing has changed. -/
theorem strength_map_neg (h : ∃ c ∈ cs, c ≠ 0) : strength (cs.map Neg.neg) = 100 - strength cs := by
  have hsome : cs ≠ [] := by
    rintro rfl
    simp at h
  have hsome' : cs.map Neg.neg ≠ [] := by simpa using hsome
  have hpos := gains_add_losses_pos_iff.2 h
  rw [strength_eq hsome, strength_eq hsome', gains_map_neg, losses_map_neg]
  by_cases hgains : gains cs = 0
  · rw [hgains, zero_add] at hpos
    rw [if_pos hgains, if_neg hpos.ne', hgains, mul_zero, zero_div, sub_zero]
  · by_cases hlosses : losses cs = 0
    · rw [if_neg hgains, if_pos hlosses, hlosses, mul_zero, zero_div, sub_self]
    · rw [if_neg hgains, if_neg hlosses, add_comm (losses cs), div_eq_iff hpos.ne', sub_mul,
        div_mul_cancel₀ _ hpos.ne']
      ring

/-! ### The index at a bar -/

section

omit [LinearOrder K] [IsStrictOrderedRing K]

variable {window i : Nat} {xs : List K}

/-- The changes that the index looks at: the last ones up to the bar, at most fourteen of them. -/
def lastChanges (window i : Nat) (xs : List K) : List K :=
  (changes xs).extract (i - min 14 window) i

theorem length_changes (xs : List K) : (changes xs).length = xs.length - 1 := by
  simp [changes]

theorem lastChanges_ne_nil (hwindow : 1 ≤ window) (hi : min 14 window ≤ i) (hlast : i < xs.length) :
    lastChanges window i xs ≠ [] := by
  have hlength := length_changes xs
  exact extract_ne_nil (by omega) (by omega)

theorem lastChanges_map_neg (window i : Nat) (xs : List K) :
    lastChanges window i (xs.map Neg.neg) = (lastChanges window i xs).map Neg.neg := by
  have hchanges : changes (xs.map Neg.neg) = (changes xs).map Neg.neg := by
    rw [changes, changes, ← List.map_tail, List.zipWith_map, List.map_zipWith]
    congr with a b
    ring
  rw [lastChanges, lastChanges, hchanges, List.extract_eq_take_drop, List.extract_eq_take_drop,
    List.map_take, List.map_drop]

theorem getElem?_rsi [LinearOrder K] (hwindow : 1 ≤ window) (hi : min 14 window ≤ i)
    (hlast : i < xs.length) :
    (rsi window xs)[i]? = some (some (strength (lastChanges window i xs))) := by
  -- The change that leads to a bar has the place of the bar before.
  obtain ⟨j, rfl⟩ : ∃ j, i = j + 1 := Nat.exists_eq_add_of_le' (by omega)
  have hj : j < (changes xs).length := by
    rw [length_changes]
    omega
  have hsome : ¬xs.isEmpty = true := by
    rw [List.isEmpty_iff_length_eq_zero]
    omega
  have hperiod : period window ≤ ((changes xs).take (j + 1)).length := by
    rw [List.length_take_of_le hj]
    exact hi
  rw [rsi, if_neg hsome, strengthSeries, List.getElem?_cons_succ, getElem?_overPrefixes _ hj,
    lastStrength, if_pos hperiod, trailing_take _ hj]
  rfl

end

/-- **Range, extremes and mirror symmetry of the index.** At each bar with enough changes before it
the index lies between 0 and 100. It is 100 if none of the changes that it looks at was a loss, and
0 if none was a gain and some was a loss, and nowhere else. If one of them was a gain or a loss, the
index of the opposite values is what is left to 100. -/
theorem rsi_range {window : Nat} (hwindow : 1 ≤ window) (xs : List K) {i : Nat}
    (hi : min 14 window ≤ i) (hlast : i < xs.length) :
    ∃ v, (rsi window xs)[i]? = some (some v) ∧ 0 ≤ v ∧ v ≤ 100 ∧
      (v = 100 ↔ ∀ c ∈ lastChanges window i xs, 0 ≤ c) ∧
      (v = 0 ↔ (∀ c ∈ lastChanges window i xs, c ≤ 0) ∧ ∃ c ∈ lastChanges window i xs, c < 0) ∧
      ((∃ c ∈ lastChanges window i xs, c ≠ 0) →
        (rsi window (xs.map Neg.neg))[i]? = some (some (100 - v))) := by
  have hsome := lastChanges_ne_nil hwindow hi hlast
  refine ⟨strength (lastChanges window i xs), getElem?_rsi hwindow hi hlast, strength_nonneg hsome,
    strength_le hsome, strength_eq_hundred_iff hsome, strength_eq_zero_iff hsome, fun h => ?_⟩
  rw [getElem?_rsi hwindow hi (by rwa [List.length_map]), lastChanges_map_neg, strength_map_neg h]

theorem rsi_range_mixed :
    1 ≤ 3 ∧ min 14 3 ≤ 4 ∧ lastChanges 3 4 [1, 3, 2, 2, 5] = [(-1 : ℚ), 0, 3] ∧
    (rsi 3 [1, 3, 2, 2, (5 : ℚ)])[4]? = some (some 75) ∧
    ((75 : ℚ) = 100 ↔ ∀ c ∈ [-1, 0, 3], (0 : ℚ) ≤ c) ∧
    (rsi 3 ([1, 3, 2, 2, (5 : ℚ)].map Neg.neg))[4]? = some (some (100 - 75)) := by
  have hchanges : lastChanges 3 4 [1, 3, 2, 2, 5] = [(-1 : ℚ), 0, 3] := by decide +kernel
  have hvalue : (rsi 3 [1, 3, 2, 2, (5 : ℚ)])[4]? = some (some 75) := by decide +kernel
  obtain ⟨v, hv, -, -, hhundred, -, hmirror⟩ :=
    rsi_range (by decide : 1 ≤ 3) [1, 3, 2, 2, (5 : ℚ)] (by decide : min 14 3 ≤ 4) (by decide)
  obtain rfl : 75 = v := Option.some.inj (Option.some.inj (hvalue.symm.trans hv))
  rw [hchanges] at hhundred hmirror
  exact ⟨by decide, by decide, hchanges, hvalue, hhundred, hmirror ⟨-1, by simp, by decide⟩⟩

end StrategyGraph.Indicator
