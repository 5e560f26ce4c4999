import Mathlib.Algebra.Order.BigOperators.Group.List
import Mathlib.Algebra.Order.Field.Basic
import Mathlib.Data.Set.Finite.Lemmas
import Mathlib.Order.Bounds.Basic
import StrategyGraph.Indicator.Series

/-!
# Sums and means of exact values

In a field, where nothing is rounded, the sum from the left is the sum of a list.

* `sum_map_eq_zero_iff` : a sum that nothing is taken away from is zero only if all of it is;
* `mean_le_mean` : the mean of greater values is greater;
* `Within` : a value lies between the least and the greatest one of a list;
* `within_of_monotone` : **what grows with the values of a list, and is their value where they are
  all the same, lies between them**, and so does the mean (`within_mean`).
-/

namespace StrategyGraph.Indicator

variable {α K : Type} [Field K]

theorem total_eq_sum (xs : List K) : total xs = xs.sum := by
  rw [total, Nat.cast_zero, List.sum_eq_foldl]

theorem mean_eq (xs : List K) : mean xs = xs.sum / (xs.length : K) := by
  rw [mean, total_eq_sum]

variable [LinearOrder K] [IsStrictOrderedRing K]

theorem sum_map_eq_zero_iff {f : α → K} {xs : List α} (h : ∀ x ∈ xs, 0 ≤ f x) :
    (xs.map f).sum = 0 ↔ ∀ x ∈ xs, f x = 0 := by
  refine ⟨fun hsum x hx => ?_, fun hzero => List.sum_eq_zero (List.forall_mem_map.2 hzero)⟩
  exact List.all_zero_of_le_zero_le_of_sum_eq_zero (List.forall_mem_map.2 h) hsum
    (List.mem_map_of_mem hx)

/-- The mean of greater values is greater. -/
theorem mean_le_mean {xs ys : List K} (h : List.Forall₂ (· ≤ ·) xs ys) : mean xs ≤ mean ys := by
  rw [mean_eq, mean_eq, h.length_eq]
  exact div_le_div_of_nonneg_right h.sum_le_sum (Nat.cast_nonneg _)

theorem mean_replicate {n : Nat} (hn : n ≠ 0) (b : K) : mean (List.replicate n b) = b := by
  rw [mean_eq, List.sum_replicate, List.length_replicate, nsmul_eq_mul,
    mul_div_cancel_left₀ b (Nat.cast_ne_zero.2 hn)]

/-! ### Between the values of a list -/

/-- The value lies between the least and the greatest one of a list. -/
def Within (xs : List K) (v : K) : Prop :=
  ∃ least greatest, IsLeast {x | x ∈ xs} least ∧ IsGreatest {x | x ∈ xs} greatest ∧
    least ≤ v ∧ v ≤ greatest

omit [Field K] [IsStrictOrderedRing K] in
/-- **What grows with the values of a list, and is their value where they are all the same, lies
between them.** -/
theorem within_of_monotone {f : List K → K} {xs : List K} (hsome : xs ≠ [])
    (hmono : ∀ ys zs, List.Forall₂ (· ≤ ·) ys zs → f ys ≤ f zs)
    (hsame : ∀ b, f (List.replicate xs.length b) = b) : Within xs (f xs) := by
  have hnonempty : {x | x ∈ xs}.Nonempty := List.exists_mem_of_ne_nil xs hsome
  obtain ⟨least, hleast, hle⟩ := Set.exists_min_image _ id xs.finite_toSet hnonempty
  obtain ⟨greatest, hgreatest, hge⟩ := Set.exists_max_image _ id xs.finite_toSet hnonempty
  refine ⟨least, greatest, ⟨hleast, hle⟩, ⟨hgreatest, hge⟩, ?_, ?_⟩
  · calc least
        = f (List.replicate xs.length least) := (hsame least).symm
      _ ≤ f xs := hmono _ _ (by
        rw [← List.map_const', List.forall₂_map_left_iff, List.forall₂_same]
        exact hle)
  · calc f xs
        ≤ f (List.replicate xs.length greatest) := hmono _ _ (by
          rw [← List.map_const', List.forall₂_map_right_iff, List.forall₂_same]
          exact hge)
      _ = greatest := hsame greatest

theorem within_mean {xs : List K} (h : xs ≠ []) : Within xs (mean xs) :=
  within_of_monotone h (fun _ _ => mean_le_mean) fun b =>
    mean_replicate (List.length_pos_iff.2 h).ne' b

end StrategyGraph.Indicator
