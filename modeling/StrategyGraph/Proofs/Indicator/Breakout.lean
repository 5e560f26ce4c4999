import Mathlib.Algebra.Order.Group.Unbundled.Basic
import Mathlib.Order.OrderDual
import StrategyGraph.Indicator.Breakout
import StrategyGraph.Proofs.Indicator.Window
import StrategyGraph.Proofs.Number.Opposite

/-!
# Breakout levels

A breakout level is the highest or the lowest of the values before a bar. What is compared are the
values that numbers stand for, and two numbers may stand for the same one, as the two zeros of the
doubles do; then the first of them is the level.

* `highest_map` : a map that keeps the order keeps the highest value;
* `lowest_eq_highest` : the lowest value is the highest one in the opposite order, so that a fact
  about breakouts to one side is one about the other side as well;
* `exists_rollingHigh` : the level at a bar is the greatest of the values before it;
* `TotallyOrdered` : numbers are compared by their values, and a minus sign turns their order round;
* `breakout_levels` : **the levels are the extremes of the bars before, and mirror each other.**
-/

namespace StrategyGraph.Indicator

variable {α β K : Type}

/-! ### Highest and lowest values -/

section

variable [LT α] [DecidableLT α] [LT β] [DecidableLT β] {xs : List α}

theorem highest_map {f : α → β} (h : ∀ x ∈ xs, ∀ y ∈ xs, f x < f y ↔ x < y) :
    highest (xs.map f) = (highest xs).map f := by
  cases xs with
  | nil => rfl
  | cons x xs =>
    refine congrArg some ?_
    rw [List.foldl_map]
    -- The best value so far is one of the list, so that it compares as its image does.
    refine (List.foldl_rel (r := fun image best => best ∈ x :: xs ∧ image = f best)
      ⟨List.mem_cons_self, rfl⟩ ?_).2
    rintro v hv _ best ⟨hbest, rfl⟩
    have hv := List.mem_cons_of_mem x hv
    by_cases hlt : best < v
    · rw [if_pos hlt, if_pos ((h best hbest v hv).2 hlt)]
      exact ⟨hv, rfl⟩
    · rw [if_neg hlt, if_neg ((h best hbest v hv).not.2 hlt)]
      exact ⟨hbest, rfl⟩

theorem highest_eq_none : highest xs = none ↔ xs = [] := by
  cases xs <;> simp [highest]

theorem highest_mem {high : α} (h : highest xs = some high) : high ∈ xs := by
  cases xs with
  | nil => cases h
  | cons x xs =>
    obtain rfl := Option.some.inj h
    refine List.foldlRecOn xs _ List.mem_cons_self fun best hbest v hv => ?_
    split
    · exact List.mem_cons_of_mem x hv
    · exact hbest

/-- The lowest value is the highest one in the opposite order. -/
theorem lowest_eq_highest (xs : List α) : lowest xs = highest (α := αᵒᵈ) xs := rfl

theorem lowest_eq_none : lowest xs = none ↔ xs = [] := highest_eq_none (α := αᵒᵈ)

end

section

variable [LinearOrder K]

/-- In a total order, the highest value is the greatest one. -/
theorem highest_eq_max? (xs : List K) : highest xs = xs.max? := by
  cases xs with
  | nil => rfl
  | cons x xs => simp only [highest, List.max?_cons', ← max_def_lt]

/-- No value is greater than the highest one, where values in a total order are compared. -/
theorem value_le_of_highest [LT α] [DecidableLT α] {value : α → K} {xs : List α} {high : α}
    (hvalue : ∀ x ∈ xs, ∀ y ∈ xs, x < y ↔ value x < value y) (h : highest xs = some high) :
    ∀ x ∈ xs, value x ≤ value high := by
  have hmax : highest (xs.map value) = some (value high) := by
    rw [highest_map fun x hx y hy => (hvalue x hx y hy).symm, h, Option.map_some]
  rw [highest_eq_max?, List.max?_eq_some_iff] at hmax
  exact fun x hx => hmax.2 _ (List.mem_map_of_mem hx)

end

/-! ### The levels of a series -/

theorem before_take_succ (window : Nat) {i : Nat} {xs : List α} (h : i < xs.length) :
    before window (xs.take (i + 1)) = if window ≤ i then trailing window (xs.take i) else [] := by
  rw [before, List.dropLast_eq_take, List.length_take_of_le h, List.take_take, Nat.succ_sub_one,
    Nat.min_eq_left (Nat.le_succ i)]
  exact if_congr Nat.lt_succ_iff rfl rfl

theorem before_map (window : Nat) (f : α → β) (xs : List α) :
    before window (xs.map f) = (before window xs).map f := by
  rw [before, before, List.length_map]
  split
  · rw [← List.map_dropLast, trailing_map]
  · rfl

theorem mem_of_mem_before {window : Nat} {x : α} {xs : List α} (h : x ∈ before window xs) :
    x ∈ xs := by
  rw [before] at h
  split at h
  · exact List.mem_of_mem_dropLast (List.mem_of_mem_drop h)
  · cases h

section

variable [LT α] [DecidableLT α] [LT β] [DecidableLT β] {window i : Nat} {xs : List α}

theorem rollingLow_eq_rollingHigh (window : Nat) (xs : List α) :
    rollingLow window xs = rollingHigh (α := αᵒᵈ) window xs :=
  congrArg (overPrefixes · xs) (funext fun p => lowest_eq_highest (before window p))

theorem getElem?_rollingHigh (hi : window ≤ i) (hlast : i < xs.length) :
    (rollingHigh window xs)[i]? = some (highest (xs.extract (i - window) i)) := by
  rw [rollingHigh, getElem?_overPrefixes _ hlast, before_take_succ window hlast, if_pos hi,
    trailing_take window hlast.le]

/-- The level at a bar is one of the values before it, and the greatest of them. -/
theorem exists_rollingHigh [LinearOrder K] {value : α → K}
    (hvalue : ∀ x ∈ xs, ∀ y ∈ xs, x < y ↔ value x < value y) (hwindow : 1 ≤ window)
    (hi : window ≤ i) (hlast : i < xs.length) :
    ∃ high, (rollingHigh window xs)[i]? = some (some high) ∧
      high ∈ xs.extract (i - window) i ∧
      ∀ x ∈ xs.extract (i - window) i, value x ≤ value high := by
  have hsub : ∀ x ∈ xs.extract (i - window) i, x ∈ xs := fun x hx =>
    List.mem_of_mem_drop (List.mem_of_mem_take hx)
  have hsome : xs.extract (i - window) i ≠ [] := extract_ne_nil (by omega) hlast.le
  obtain ⟨high, h⟩ := Option.ne_none_iff_exists'.1 (highest_eq_none.not.2 hsome)
  rw [getElem?_rollingHigh hi hlast, h]
  exact ⟨high, rfl, highest_mem h,
    value_le_of_highest (fun x hx y hy => hvalue x (hsub x hx) y (hsub y hy)) h⟩

theorem rollingHigh_map {f : α → β} (h : ∀ x ∈ xs, ∀ y ∈ xs, f x < f y ↔ x < y) :
    rollingHigh window (xs.map f) = (rollingHigh window xs).map (Option.map f) := by
  rw [rollingHigh, rollingHigh, overPrefixes, overPrefixes, List.length_map, List.map_map]
  refine List.map_congr_left fun i _ => ?_
  have hsub : ∀ x ∈ before window (xs.take (i + 1)), x ∈ xs := fun x hx =>
    List.mem_of_mem_take (mem_of_mem_before hx)
  rw [Function.comp, ← List.map_take, before_map]
  exact highest_map fun x hx y hy => h x (hsub x hx) y (hsub y hy)

/-- A map that turns the order of the values round takes levels of one side to the other side. -/
theorem map_rollingLow {f : α → β} (h : ∀ x ∈ xs, ∀ y ∈ xs, f x < f y ↔ y < x) :
    rollingHigh window (xs.map f) = (rollingLow window xs).map (Option.map f) := by
  rw [rollingLow_eq_rollingHigh]
  exact rollingHigh_map (α := αᵒᵈ) h

/-- The level at a bar depends on the values before it only. -/
theorem getElem?_rollingHigh_congr {ys : List α} (h : xs.take i = ys.take i)
    (hxs : i < xs.length) (hys : i < ys.length) :
    (rollingHigh window xs)[i]? = (rollingHigh window ys)[i]? := by
  rw [rollingHigh, rollingHigh, getElem?_overPrefixes _ hxs, getElem?_overPrefixes _ hys,
    before_take_succ window hxs, before_take_succ window hys, h]

theorem mem_of_mem_rollingLow {low : α} (h : some low ∈ rollingLow window xs) : low ∈ xs := by
  obtain ⟨i, -, h⟩ := List.mem_map.1 h
  exact List.mem_of_mem_take (mem_of_mem_before (highest_mem (α := αᵒᵈ) h))

end

/-! ### Both sides -/

/-- The numbers of a list are compared by values in a total order, which a minus sign turns round. -/
structure TotallyOrdered [LT α] [Neg α] [LinearOrder K] (value : α → K) (xs : List α) : Prop where
  /-- Numbers compare as their values do. -/
  lt_iff : ∀ x ∈ xs, ∀ y ∈ xs, x < y ↔ value x < value y
  /-- A minus sign turns the order round. -/
  neg_lt_neg : ∀ x ∈ xs, ∀ y ∈ xs, -x < -y ↔ y < x
  /-- A second minus sign takes the first one back. -/
  neg_neg : ∀ x ∈ xs, - -x = x

/-- Numbers of an ordered group are their own values. -/
theorem totallyOrdered_id [AddCommGroup K] [LinearOrder K] [IsOrderedAddMonoid K] (xs : List K) :
    TotallyOrdered id xs where
  lt_iff _ _ _ _ := Iff.rfl
  neg_lt_neg _ _ _ _ := neg_lt_neg_iff
  neg_neg x _ := neg_neg x

/-- Finite doubles stand for fractions. -/
theorem totallyOrdered_value {xs : List Float} (h : ∀ x ∈ xs, x.isFinite = true) :
    TotallyOrdered Binary64.value xs where
  lt_iff x hx y hy := Binary64.lt_iff_value_lt (h x hx) (h y hy)
  neg_lt_neg x hx y hy := Binary64.opposite_lt_opposite (h x hx) (h y hy)
  neg_neg x hx := Binary64.neg_neg_of_isFinite (h x hx)

/-- **The levels are the extremes of the bars before, and mirror each other.** At each bar with
`window` bars before it, the upper level is the greatest value of these bars and the lower level
the least one. Neither depends on the bar itself or on a later one. The lower levels are the
opposites of the upper levels of the opposite numbers. -/
theorem breakout_levels [LT α] [DecidableLT α] [Neg α] [LinearOrder K] {value : α → K}
    {window : Nat} {xs : List α} (hwindow : 1 ≤ window) (hxs : TotallyOrdered value xs) :
    (∀ i, window ≤ i → i < xs.length → ∃ high low,
      (rollingHigh window xs)[i]? = some (some high) ∧ high ∈ xs.extract (i - window) i ∧
      (∀ x ∈ xs.extract (i - window) i, value x ≤ value high) ∧
      (rollingLow window xs)[i]? = some (some low) ∧ low ∈ xs.extract (i - window) i ∧
      ∀ x ∈ xs.extract (i - window) i, value low ≤ value x) ∧
    (∀ i ys, xs.take i = ys.take i → i < xs.length → i < ys.length →
      (rollingHigh window xs)[i]? = (rollingHigh window ys)[i]? ∧
      (rollingLow window xs)[i]? = (rollingLow window ys)[i]?) ∧
    rollingLow window xs = (rollingHigh window (xs.map Neg.neg)).map (Option.map Neg.neg) := by
  refine ⟨fun i hi hlast => ?_, fun i ys h hi hlast => ⟨?_, ?_⟩, ?_⟩
  · obtain ⟨high, hhigh⟩ := exists_rollingHigh hxs.lt_iff hwindow hi hlast
    obtain ⟨low, hlow⟩ := exists_rollingHigh (α := αᵒᵈ) (K := Kᵒᵈ)
      (fun x hx y hy => hxs.lt_iff y hy x hx) hwindow hi hlast
    rw [← rollingLow_eq_rollingHigh] at hlow
    exact ⟨high, low, hhigh.1, hhigh.2.1, hhigh.2.2, hlow⟩
  · exact getElem?_rollingHigh_congr h hi hlast
  · rw [rollingLow_eq_rollingHigh, rollingLow_eq_rollingHigh]
    exact getElem?_rollingHigh_congr h hi hlast
  · rw [map_rollingLow hxs.neg_lt_neg, List.map_map]
    refine (List.map_id' _).symm.trans (List.map_congr_left fun level hlevel => ?_)
    cases level with
    | none => rfl
    | some low => exact congrArg some (hxs.neg_neg low (mem_of_mem_rollingLow hlevel)).symm

/-- A list with both zeros of the doubles. -/
def zeros : List Float := [1.5, -0.0, 0.0, 2.0, 0.5]

theorem breakout_levels_zeros :
    TotallyOrdered id ([3, 1, 2] : List Int) ∧
    rollingLow 2 ([3, 1, 2] : List Int) =
      (rollingHigh 2 (([3, 1, 2] : List Int).map Neg.neg)).map (Option.map Neg.neg) ∧
    TotallyOrdered Binary64.value zeros ∧
    rollingHigh 2 zeros = [none, none, some 1.5, some (-0.0), some 2.0] ∧
    (∃ high low, (rollingHigh 2 zeros)[3]? = some (some high) ∧ high ∈ zeros.extract 1 3 ∧
      (rollingLow 2 zeros)[3]? = some (some low) ∧ low ∈ zeros.extract 1 3) ∧
    rollingLow 2 zeros = (rollingHigh 2 (zeros.map Neg.neg)).map (Option.map Neg.neg) := by
  have hints := totallyOrdered_id ([3, 1, 2] : List Int)
  have hdoubles : TotallyOrdered Binary64.value zeros := totallyOrdered_value (by decide)
  obtain ⟨hextremes, -, hmirror⟩ := breakout_levels (by decide : 1 ≤ 2) hdoubles
  obtain ⟨high, low, hhigh, hmem, -, hlow, hmem', -⟩ := hextremes 3 (by decide) (by decide)
  exact ⟨hints, (breakout_levels (by decide) hints).2.2, hdoubles, by decide +kernel,
    ⟨high, low, hhigh, hmem, hlow, hmem'⟩, hmirror⟩

end StrategyGraph.Indicator
