import Mathlib.Algebra.Order.Field.Rat
import Mathlib.Tactic.Ring
import StrategyGraph.Indicator.Average
import StrategyGraph.Proofs.Indicator.Mean
import StrategyGraph.Proofs.Indicator.Window

/-!
# Moving averages of exact values

In an ordered field the moving averages grow with the values, and so they stay between them.

* `forall₂_overPrefixes` : series over related lists are related bar by bar;
* `emaStep_le_emaStep` : a step of the exponential average, which goes from the average so far at
  most up to the next value, grows with both, and `emaLast_le_emaLast` : so does the average;
* `averages_within` : **moving averages grow with the values and lie between them.**
-/

namespace StrategyGraph.Indicator

section

variable {α α' β β' : Type} {R : α → α' → Prop} {S : β → β' → Prop} {xs : List α} {ys : List α'}

theorem forall₂_overPrefixes {f : List α → β} {g : List α' → β'} (h : List.Forall₂ R xs ys)
    (hfg : ∀ p q, List.Forall₂ R p q → S (f p) (g q)) :
    List.Forall₂ S (overPrefixes f xs) (overPrefixes g ys) := by
  rw [overPrefixes, overPrefixes, ← h.length_eq, List.forall₂_map_left_iff,
    List.forall₂_map_right_iff, List.forall₂_same]
  exact fun i _ => hfg _ _ (List.forall₂_take (i + 1) h)

theorem forall₂_trailing (window : Nat) (h : List.Forall₂ R xs ys) :
    List.Forall₂ R (trailing window xs) (trailing window ys) := by
  rw [trailing, trailing, h.length_eq]
  exact List.forall₂_drop _ h

end

variable {K : Type} [Field K] {window i : Nat} {xs ys : List K}

/-! ### The simple average -/

theorem getElem?_sma (window : Nat) (hi : i < xs.length) :
    (sma window xs)[i]? = some (some (mean (xs.extract (i + 1 - window) (i + 1)))) := by
  rw [sma, getElem?_overPrefixes _ hi, trailing_take window hi]

theorem mean_extract (hi : i < xs.length) : mean (xs.extract (i + 1 - window) (i + 1)) =
    (xs.extract (i + 1 - window) (i + 1)).sum / (min window (i + 1) : Nat) := by
  have hlength : i + 1 - (i + 1 - window) = min window (i + 1) := by omega
  rw [mean_eq, length_extract hi, hlength]

/-! ### The exponential average -/

theorem getElem?_ema (window : Nat) (hi : i < xs.length) : (ema window xs)[i]? =
    some (if window ≤ i + 1 then some (emaLast window (xs.take (i + 1))) else none) := by
  rw [ema, getElem?_overPrefixes _ hi, List.length_take_of_le hi]

theorem emaStep_same (m b : K) : emaStep m b b = b := by
  rw [emaStep, sub_self, zero_mul, zero_add]

variable [LinearOrder K] [IsStrictOrderedRing K]

theorem emaStep_le_emaStep {m current current' v v' : K} (hm : 0 ≤ m) (hm' : m ≤ 1)
    (hcurrent : current ≤ current') (hv : v ≤ v') :
    emaStep m current v ≤ emaStep m current' v' := by
  have hshare : ∀ c x : K, emaStep m c x = (1 - m) * c + m * x := by
    intro c x
    rw [emaStep]
    ring
  rw [hshare, hshare]
  exact add_le_add (mul_le_mul_of_nonneg_left hcurrent (sub_nonneg.2 hm'))
    (mul_le_mul_of_nonneg_left hv hm)

/-- The average goes at most the whole way up to the next value. -/
theorem multiplier_le_one (hwindow : 1 ≤ window) : ((2 : Nat) : K) / ((window + 1 : Nat) : K) ≤ 1 := by
  rw [div_le_one (Nat.cast_pos.2 (Nat.succ_pos window)), Nat.cast_le]
  omega

theorem emaLast_le_emaLast (hwindow : 1 ≤ window) (h : List.Forall₂ (· ≤ ·) xs ys) :
    emaLast window xs ≤ emaLast window ys := by
  have hstart := mean_le_mean (List.forall₂_take window h)
  have hrest := List.forall₂_drop window h
  exact List.rel_foldl (R := (· ≤ ·)) (P := (· ≤ ·)) (fun _ _ hcurrent _ _ hv => emaStep_le_emaStep
    (div_nonneg (Nat.cast_nonneg _) (Nat.cast_nonneg _)) (multiplier_le_one hwindow) hcurrent hv)
    hstart hrest

theorem emaLast_replicate {n : Nat} (hwindow : 1 ≤ window) (hn : window ≤ n) (b : K) :
    emaLast window (List.replicate n b) = b := by
  have hstart : mean ((List.replicate n b).take window) = b := by
    rw [List.take_replicate, Nat.min_eq_left hn, mean_replicate (Nat.ne_of_gt hwindow)]
  rw [emaLast, hstart, List.drop_replicate]
  refine List.foldlRecOn (motive := (· = b)) _ _ rfl fun current hcurrent v hv => ?_
  rw [hcurrent, List.eq_of_mem_replicate hv, emaStep_same]

/-- **Moving averages grow with the values and lie between them.** The simple average at a bar is
the sum of the last values up to it, `window` of them or fewer at the start, over their number, and
lies between the least and the greatest of them. The exponential average is there from the first
bar on that has a full window, and lies between the least and the greatest value up to its bar. Where
no value is less than that of another list, no average is less than that of the other list. -/
theorem averages_within (hwindow : 1 ≤ window) (xs : List K) :
    (∀ i < xs.length, ∃ v, (sma window xs)[i]? = some (some v) ∧
      v = (xs.extract (i + 1 - window) (i + 1)).sum / (min window (i + 1) : Nat) ∧
      Within (xs.extract (i + 1 - window) (i + 1)) v) ∧
    (∀ i < xs.length, i + 1 < window → (ema window xs)[i]? = some none) ∧
    (∀ i < xs.length, window ≤ i + 1 → ∃ v, (ema window xs)[i]? = some (some v) ∧
      Within (xs.take (i + 1)) v) ∧
    ∀ ys, List.Forall₂ (· ≤ ·) xs ys →
      List.Forall₂ (Option.Rel (· ≤ ·)) (sma window xs) (sma window ys) ∧
      List.Forall₂ (Option.Rel (· ≤ ·)) (ema window xs) (ema window ys) := by
  refine ⟨fun i hi => ?_, fun i hi hfew => ?_, fun i hi hfull => ?_, fun ys h => ⟨?_, ?_⟩⟩
  · exact ⟨_, getElem?_sma window hi, mean_extract hi, within_mean (extract_ne_nil (by omega) hi)⟩
  · rw [getElem?_ema window hi, if_neg (Nat.not_le.2 hfew)]
  · have hlength : (xs.take (i + 1)).length = i + 1 := List.length_take_of_le hi
    refine ⟨_, by rw [getElem?_ema window hi, if_pos hfull], ?_⟩
    exact within_of_monotone (List.ne_nil_of_length_eq_add_one hlength)
      (fun _ _ => emaLast_le_emaLast hwindow) fun b => emaLast_replicate hwindow (hlength.symm ▸ hfull) b
  · refine forall₂_overPrefixes h fun p q hpq => .some (mean_le_mean (forall₂_trailing window hpq))
  · refine forall₂_overPrefixes h fun p q hpq => ?_
    rw [hpq.length_eq]
    split
    · exact .some (emaLast_le_emaLast hwindow hpq)
    · exact .none

theorem averages_within_climb :
    1 ≤ 3 ∧
    sma 3 [4, 1, 1, 7, (5 : ℚ)] = [some 4, some (5 / 2), some 2, some 3, some (13 / 3)] ∧
    ema 3 [4, 1, 1, 7, (5 : ℚ)] = [none, none, some 2, some (9 / 2), some (19 / 4)] ∧
    Within [1, 1, (7 : ℚ)] 3 ∧ Within [4, 1, 1, (7 : ℚ)] (9 / 2) ∧
    List.Forall₂ (· ≤ ·) [4, 1, 1, 7, (5 : ℚ)] [4, 2, 1, 8, 5] ∧
    List.Forall₂ (Option.Rel (· ≤ ·)) (ema 3 [4, 1, 1, 7, (5 : ℚ)]) (ema 3 [4, 2, 1, 8, 5]) := by
  have hsma : sma 3 [4, 1, 1, 7, (5 : ℚ)] = [some 4, some (5 / 2), some 2, some 3, some (13 / 3)] := by
    decide +kernel
  have hema : ema 3 [4, 1, 1, 7, (5 : ℚ)] = [none, none, some 2, some (9 / 2), some (19 / 4)] := by
    decide +kernel
  have hle : List.Forall₂ (· ≤ ·) [4, 1, 1, 7, (5 : ℚ)] [4, 2, 1, 8, 5] := by decide +kernel
  obtain ⟨hsimple, -, hexponential, hgrow⟩ := averages_within (by decide : 1 ≤ 3) [4, 1, 1, 7, (5 : ℚ)]
  obtain ⟨v, hv, -, hwithin⟩ := hsimple 3 (by decide)
  obtain ⟨w, hw, hwithin'⟩ := hexponential 3 (by decide) (by decide)
  rw [hsma] at hv
  rw [hema] at hw
  obtain rfl : 3 = v := Option.some.inj (Option.some.inj hv)
  obtain rfl : 9 / 2 = w := Option.some.inj (Option.some.inj hw)
  exact ⟨by decide, hsma, hema, hwithin, hwithin', hle, (hgrow _ hle).2⟩

end StrategyGraph.Indicator
