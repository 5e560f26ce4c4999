import Mathlib.Algebra.Order.Field.Rat
import Mathlib.Algebra.Order.Group.MinMax
import StrategyGraph.Indicator.TrueRange
import StrategyGraph.Proofs.Indicator.Average

/-!
# True ranges of exact values

In an ordered field the true range of a bar is the greatest of three distances, and a close that
lies between the low and the high of its bar is no farther from the close before than that.

* `Candle` : a bar whose close lies between its low and its high;
* `abs_sub_le_trueRange` : the distance of two closes is at most the true range, and
  `trueRange_flat` : it is the true range where high and low are the close;
* `trueRanges_eq` and `closeRanges_eq` : both lists of ranges have an item for each bar and the one
  before it, so that `closeRanges_le_trueRanges` compares them bar by bar;
* `atr_compares` : **the average true range of closes alone is at most the one of highs and lows, and
  the same where highs and lows are the closes.**
-/

namespace StrategyGraph.Indicator

/-- A bar whose close lies between its low and its high. -/
structure Candle (K : Type) [LE K] where
  /-- The closing price. -/
  close : K
  /-- The highest price. -/
  high : K
  /-- The lowest price. -/
  low : K
  /-- The close is not below the lowest price, -/
  low_le_close : low ≤ close
  /-- and not above the highest one. -/
  close_le_high : close ≤ high

namespace Candle

section

variable {K : Type} [LE K]

/-- High and low are the close. -/
def IsFlat (b : Candle K) : Prop := b.high = b.close ∧ b.low = b.close

/-- The closes of bars. -/
def closes (candles : List (Candle K)) : List K := candles.map close

/-- The highs of bars. -/
def highs (candles : List (Candle K)) : List K := candles.map high

/-- The lows of bars. -/
def lows (candles : List (Candle K)) : List K := candles.map low

/-- Each bar from the second one on, after the bar before it. -/
def steps (candles : List (Candle K)) : List (Candle K × Candle K) := candles.zip candles.tail

theorem length_steps (candles : List (Candle K)) :
    (steps candles).length = candles.length - 1 := by
  simp [steps]

end

end Candle

open Candle (closes highs lows steps)

/-! ### The range of a bar -/

theorem greater_eq_max {K : Type} [LinearOrder K] (a b : K) : greater a b = max a b := by
  unfold greater
  split
  · next h => exact (max_eq_right h.le).symm
  · next h => exact (max_eq_left (not_lt.1 h)).symm

variable {K : Type} [Field K] [LinearOrder K] {window i : Nat} {candles : List (Candle K)}

section

variable [IsStrictOrderedRing K]

theorem magnitude_eq_abs (x : K) : magnitude x = |x| := by
  rw [magnitude, Nat.cast_zero]
  split
  · next h => exact (abs_of_neg h).symm
  · next h => exact (abs_of_nonneg (not_lt.1 h)).symm

theorem trueRange_eq (before high low : K) :
    trueRange before high low = max (max (high - low) |high - before|) |low - before| := by
  simp only [trueRange, greater_eq_max, magnitude_eq_abs]

/-- What lies between low and high is no farther from the close before than one of the two. -/
theorem abs_sub_le_trueRange {before close high low : K} (hlow : low ≤ close)
    (hhigh : close ≤ high) : |close - before| ≤ trueRange before high low := by
  have hends : |close - before| ≤ max |low - before| |high - before| :=
    abs_le_max_abs_abs (sub_le_sub_right hlow before) (sub_le_sub_right hhigh before)
  rw [trueRange_eq]
  refine hends.trans (max_le (le_max_right _ _) ?_)
  exact (le_max_right _ _).trans (le_max_left _ _)

theorem trueRange_flat (before close : K) : trueRange before close close = |close - before| := by
  have hpos : 0 ≤ |close - before| := abs_nonneg _
  rw [trueRange_eq, sub_self, max_eq_right hpos, max_self]

end

/-! ### The ranges of a list of bars -/

theorem trueRanges_eq (candles : List (Candle K)) :
    trueRanges (closes candles) (highs candles) (lows candles) =
      (steps candles).map fun p => trueRange p.1.close p.2.high p.2.low := by
  have hzip : (highs candles).zip (lows candles) = candles.map fun b => (b.high, b.low) := by
    rw [highs, lows, List.zip_map']
  rw [trueRanges, hzip, ← List.map_tail, closes, List.zipWith_map, steps, List.map_zip_eq_zipWith]
  rfl

theorem closeRanges_eq [IsStrictOrderedRing K] (candles : List (Candle K)) :
    closeRanges (closes candles) = (steps candles).map fun p => |p.2.close - p.1.close| := by
  simp only [closeRanges, changes, closes, ← List.map_tail, List.zipWith_map, List.map_zipWith,
    magnitude_eq_abs, steps, List.map_zip_eq_zipWith]
  rfl

variable [IsStrictOrderedRing K]

theorem closeRanges_le_trueRanges (candles : List (Candle K)) :
    List.Forall₂ (· ≤ ·) (closeRanges (closes candles))
      (trueRanges (closes candles) (highs candles) (lows candles)) := by
  rw [closeRanges_eq, trueRanges_eq, List.forall₂_map_left_iff, List.forall₂_map_right_iff,
    List.forall₂_same]
  intro p _
  exact abs_sub_le_trueRange p.2.low_le_close p.2.close_le_high

theorem closeRanges_eq_trueRanges (h : ∀ b ∈ candles, b.IsFlat) :
    closeRanges (closes candles) = trueRanges (closes candles) (highs candles) (lows candles) := by
  rw [closeRanges_eq, trueRanges_eq]
  refine List.map_congr_left fun p hp => ?_
  obtain ⟨hhigh, hlow⟩ := h p.2 (List.mem_of_mem_tail (List.of_mem_zip hp).2)
  rw [hhigh, hlow, trueRange_flat]

theorem closeRanges_nonneg (candles : List (Candle K)) :
    ∀ r ∈ closeRanges (closes candles), 0 ≤ r := by
  intro r hr
  rw [closeRanges_eq] at hr
  obtain ⟨p, -, rfl⟩ := List.mem_map.1 hr
  exact abs_nonneg _

/-! ### The averages -/

omit [LinearOrder K] [IsStrictOrderedRing K] in
theorem getElem?_rangeSeries (window : Nat) {ranges : List K} (hi : 1 ≤ i)
    (hlast : i ≤ ranges.length) :
    (rangeSeries window ranges)[i]? = some (some (mean (ranges.extract (i - window) i))) := by
  obtain ⟨j, rfl⟩ := Nat.exists_eq_add_of_le' hi
  rw [rangeSeries, List.getElem?_cons_succ, getElem?_sma window hlast]

theorem mean_nonneg {xs : List K} (h : ∀ x ∈ xs, 0 ≤ x) : 0 ≤ mean xs := by
  rw [mean_eq]
  exact div_nonneg (List.sum_nonneg h) (Nat.cast_nonneg _)

theorem mean_le_mean_extract {xs ys : List K} (h : List.Forall₂ (· ≤ ·) xs ys) (start stop : Nat) :
    mean (xs.extract start stop) ≤ mean (ys.extract start stop) := by
  rw [List.extract_eq_take_drop, List.extract_eq_take_drop]
  exact mean_le_mean (List.forall₂_take _ (List.forall₂_drop _ h))

/-- **The average true range of closes alone is at most the one of highs and lows.** From the second
bar on both averages are there. The one that is made of closes alone is not negative and not above
the one that is made of highs and lows. Where the highs and the lows of all bars are their closes,
both series are the same. -/
theorem atr_compares (window : Nat) (candles : List (Candle K)) :
    (∀ i, 1 ≤ i → i < candles.length → ∃ r c,
      (rangeAtr window (closes candles) (highs candles) (lows candles))[i]? = some (some r) ∧
      (closeAtr window (closes candles))[i]? = some (some c) ∧ c ≤ r ∧ 0 ≤ c) ∧
    ((∀ b ∈ candles, b.IsFlat) →
      rangeAtr window (closes candles) (highs candles) (lows candles) =
        closeAtr window (closes candles)) := by
  constructor
  · intro i hi hlast
    have hsome : ¬(closes candles).isEmpty = true := by
      simp [closes, List.ne_nil_of_length_pos (Nat.zero_lt_of_lt hlast)]
    have hle := closeRanges_le_trueRanges candles
    have hcloses : i ≤ (closeRanges (closes candles)).length := by
      rw [closeRanges_eq, List.length_map, Candle.length_steps]
      exact Nat.le_sub_one_of_lt hlast
    refine ⟨_, _, ?_, ?_, mean_le_mean_extract hle (i - window) i, mean_nonneg ?_⟩
    · rw [rangeAtr, if_neg hsome, getElem?_rangeSeries window hi (hle.length_eq ▸ hcloses)]
    · rw [closeAtr, if_neg hsome, getElem?_rangeSeries window hi hcloses]
    · intro r hr
      rw [List.extract_eq_take_drop] at hr
      exact closeRanges_nonneg candles r (List.mem_of_mem_drop (List.mem_of_mem_take hr))
  · intro hflat
    rw [rangeAtr, closeAtr, closeRanges_eq_trueRanges hflat]

/-- Four bars, the last of which begins far above the close before. -/
def gapped : List (Candle ℚ) :=
  [⟨10, 11, 9, by decide +kernel, by decide +kernel⟩,
    ⟨12, 13, 10, by decide +kernel, by decide +kernel⟩,
    ⟨11, 12, 10, by decide +kernel, by decide +kernel⟩,
    ⟨15, 16, 14, by decide +kernel, by decide +kernel⟩]

/-- The same closes without highs and lows. -/
def gappedCloses : List (Candle ℚ) :=
  (closes gapped).map fun x => ⟨x, x, x, le_rfl, le_rfl⟩

theorem atr_compares_gapped :
    rangeAtr 2 (closes gapped) (highs gapped) (lows gapped) =
      [none, some 3, some (5 / 2), some (7 / 2)] ∧
    closeAtr 2 (closes gapped) = [none, some 2, some (3 / 2), some (5 / 2)] ∧
    (5 / 2 : ℚ) ≤ 7 / 2 ∧ (0 : ℚ) ≤ 5 / 2 ∧
    (∀ b ∈ gappedCloses, b.IsFlat) ∧
    rangeAtr 2 (closes gappedCloses) (highs gappedCloses) (lows gappedCloses) =
      closeAtr 2 (closes gappedCloses) := by
  have hranges : rangeAtr 2 (closes gapped) (highs gapped) (lows gapped) =
      [none, some 3, some (5 / 2), some (7 / 2)] := by decide +kernel
  have hcloses : closeAtr 2 (closes gapped) = [none, some 2, some (3 / 2), some (5 / 2)] := by
    decide +kernel
  have hflat : ∀ b ∈ gappedCloses, b.IsFlat := by
    simp [gappedCloses, Candle.IsFlat]
  obtain ⟨r, c, hr, hc, hle, hnonneg⟩ := (atr_compares 2 gapped).1 3 (by decide) (by decide)
  rw [hranges] at hr
  rw [hcloses] at hc
  obtain rfl : 7 / 2 = r := Option.some.inj (Option.some.inj hr)
  obtain rfl : 5 / 2 = c := Option.some.inj (Option.some.inj hc)
  exact ⟨hranges, hcloses, hle, hnonneg, hflat, (atr_compares 2 gappedCloses).2 hflat⟩

end StrategyGraph.Indicator
