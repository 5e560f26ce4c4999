import Mathlib.Algebra.Order.Field.Basic
import Mathlib.Order.Bounds.Basic
import StrategyGraph.Indicator.Series

/-!
# Drawdowns of exact values

In an ordered field, where nothing is rounded, a drawdown is a fraction, so that it does not depend
on the unit in which a series is told: `maxDrawdown_scaled`.

The pass over a series keeps the highest value so far and compares each value with that one only.

* `declines` are the declines of a series, from any positive value to any later one;
* `Scanned` : what the pass knows of the values that it has seen, which `Scanned.step` keeps true
  for one more value and `Scanned.run` for any number of them;
* `isGreatest_maxDrawdown` : **the pass finds the greatest of all declines.**
-/

namespace StrategyGraph.Indicator

variable {K : Type} [Field K] [LinearOrder K]

section

variable [IsStrictOrderedRing K] {c : K}

theorem drawdownFrom_scaled (hc : 0 < c) (peak worst : K) (series : List K) :
    drawdownFrom (c * peak) worst (series.map (c * ·)) = drawdownFrom peak worst series := by
  induction series generalizing peak worst with
  | nil => rfl
  | cons v vs ih =>
    have hpeak : (if c * peak < c * v then c * v else c * peak) =
        c * if peak < v then v else peak := by
      simp only [mul_lt_mul_iff_right₀ hc, mul_ite]
    have hdecline : ∀ top : K, (c * top - c * v) / (c * top) = (top - v) / top := by
      intro top
      rw [← mul_sub, mul_div_mul_left _ _ hc.ne']
    rw [List.map_cons, drawdownFrom, drawdownFrom]
    simp only [hpeak, hdecline, Nat.cast_zero, mul_pos_iff_of_pos_left hc]
    exact ih _ _

theorem maxDrawdown_scaled (hc : 0 < c) (series : List K) :
    maxDrawdown (series.map (c * ·)) = maxDrawdown series := by
  have h := drawdownFrom_scaled hc 0 0 series
  rw [mul_zero] at h
  simpa [maxDrawdown] using h

end

/-! ### Declines -/

/-- The declines from a positive value to the same or a later one, as fractions of the former. -/
def declines (series : List K) : Set K :=
  {d | ∃ (i j : Nat) (x v : K), i ≤ j ∧ series[i]? = some x ∧ series[j]? = some v ∧ 0 < x ∧
    d = (x - v) / x}

/-- The declines from positive values to a given one. -/
def declinesTo (v : K) (series : List K) : Set K := {d | ∃ x ∈ series, 0 < x ∧ d = (x - v) / x}

@[simp]
theorem declines_nil : declines ([] : List K) = ∅ := by
  simp [declines]

/-- One more value adds the declines to it. -/
theorem declines_concat (series : List K) (v : K) :
    declines (series ++ [v]) = declines series ∪ declinesTo v (series ++ [v]) := by
  ext d
  constructor
  · rintro ⟨i, j, x, w, hij, hx, hw, hpos, rfl⟩
    -- The decline ends before the new value, or at it.
    rcases Nat.lt_or_ge j series.length with hj | hj
    · rw [List.getElem?_append_left (hij.trans_lt hj)] at hx
      rw [List.getElem?_append_left hj] at hw
      exact .inl ⟨i, j, x, w, hij, hx, hw, hpos, rfl⟩
    · rw [List.getElem?_append_right hj, List.getElem?_singleton] at hw
      split at hw
      · cases hw
        exact .inr ⟨x, List.mem_of_getElem? hx, hpos, rfl⟩
      · cases hw
  · rintro (⟨i, j, x, w, hij, hx, hw, hpos, rfl⟩ | ⟨x, hx, hpos, rfl⟩)
    · have hj := (List.getElem?_eq_some_iff.1 hw).1
      exact ⟨i, j, x, w, hij, (List.getElem?_append_left (hij.trans_lt hj)).trans hx,
        (List.getElem?_append_left hj).trans hw, hpos, rfl⟩
    · obtain ⟨i, hi⟩ := List.getElem?_of_mem hx
      have hlt := (List.getElem?_eq_some_iff.1 hi).1
      rw [List.length_append, List.length_singleton] at hlt
      exact ⟨i, series.length, x, v, Nat.le_of_lt_succ hlt, hi, by simp, hpos, rfl⟩

/-! ### The pass -/

/-- What the pass knows of the values that it has seen: the highest one and the largest decline, and
zero where there is none. -/
structure Scanned (peak worst : K) (seen : List K) : Prop where
  /-- The highest value. -/
  peak : IsGreatest (insert 0 {x | x ∈ seen}) peak
  /-- The largest decline. -/
  worst : IsGreatest (insert 0 (declines seen)) worst

variable {peak worst v : K} {seen series : List K}

theorem scanned_nil : Scanned (0 : K) 0 [] := by
  constructor <;> simp

theorem declinesTo_eq_empty (h : IsGreatest (insert 0 {x | x ∈ series}) peak) (hpos : ¬0 < peak) :
    declinesTo v series = ∅ := by
  refine Set.eq_empty_iff_forall_notMem.2 ?_
  rintro _ ⟨x, hx, hxpos, -⟩
  exact hpos (hxpos.trans_le (h.2 (.inr hx)))

variable [IsStrictOrderedRing K]

/-- The largest decline to a value that is not negative comes from the highest value. -/
theorem isGreatest_declinesTo (hv : 0 ≤ v) (h : IsGreatest (insert 0 {x | x ∈ series}) peak)
    (hpos : 0 < peak) : IsGreatest (declinesTo v series) ((peak - v) / peak) := by
  constructor
  · rcases h.1 with rfl | hpeak
    · exact absurd hpos (lt_irrefl 0)
    · exact ⟨peak, hpeak, hpos, rfl⟩
  · rintro _ ⟨x, hx, hxpos, rfl⟩
    have hle : x ≤ peak := h.2 (.inr hx)
    -- The value is the least share of the highest value, as it is not negative.
    have hshare : v / peak ≤ v / x := div_le_div_of_nonneg_left hv hxpos hle
    rw [sub_div, sub_div, div_self hxpos.ne', div_self hpos.ne']
    exact sub_le_sub_left hshare 1

/-- **One more value**: it is the highest one or not, and only the decline from the highest value
can be larger than those before. -/
theorem Scanned.step (h : Scanned peak worst seen) (hv : 0 ≤ v) {top : K}
    (htop : top = if peak < v then v else peak) :
    Scanned top (if 0 < top ∧ worst < (top - v) / top then (top - v) / top else worst)
      (seen ++ [v]) := by
  have hpeak : IsGreatest (insert 0 {x | x ∈ seen ++ [v]}) top := by
    have hseen : insert (0 : K) {x | x ∈ seen ++ [v]} = insert v (insert 0 {x | x ∈ seen}) := by
      ext x
      simp only [List.mem_append, List.mem_singleton, Set.mem_insert_iff, Set.mem_ofPred_eq]
      tauto
    rw [hseen, htop, ← max_def_lt, max_comm]
    exact h.peak.insert v
  refine ⟨hpeak, ?_⟩
  rw [declines_concat, ← Set.insert_union]
  by_cases hpos : 0 < top
  · simp only [hpos, true_and, ← max_def_lt]
    exact h.worst.union (isGreatest_declinesTo hv hpeak hpos)
  · rw [declinesTo_eq_empty hpeak hpos, Set.union_empty, if_neg fun hboth => hpos hboth.1]
    exact h.worst

theorem Scanned.run (h : Scanned peak worst seen) {rest : List K} (hrest : ∀ v ∈ rest, 0 ≤ v) :
    IsGreatest (insert 0 (declines (seen ++ rest))) (drawdownFrom peak worst rest) := by
  -- On the values still to come; those that the pass has seen grow at their end.
  induction rest generalizing peak worst seen with
  | nil =>
    rw [List.append_nil]
    exact h.worst
  | cons v rest ih =>
    obtain ⟨hv, hrest⟩ := List.forall_mem_cons.1 hrest
    have hnext := ih (h.step hv rfl) hrest
    rw [List.append_assoc] at hnext
    simpa [drawdownFrom] using hnext

/-- **The pass finds the greatest of all declines**, and zero where there is none. -/
theorem isGreatest_maxDrawdown (h : ∀ v ∈ series, 0 ≤ v) :
    IsGreatest (insert 0 (declines series)) (maxDrawdown series) := by
  have hrun := (scanned_nil (K := K)).run h
  simpa [maxDrawdown] using hrun

theorem maxDrawdown_nonneg (h : ∀ v ∈ series, 0 ≤ v) : 0 ≤ maxDrawdown series :=
  (isGreatest_maxDrawdown h).2 (Set.mem_insert _ _)

theorem maxDrawdown_le_one (h : ∀ v ∈ series, 0 ≤ v) : maxDrawdown series ≤ 1 := by
  rcases (isGreatest_maxDrawdown h).1 with hzero | ⟨i, j, x, v, -, -, hv, hpos, hdecline⟩
  · rw [hzero]
    exact zero_le_one
  · rw [hdecline, div_le_one hpos]
    exact sub_le_self x (h v (List.mem_of_getElem? hv))

/-- Values that stay positive lose less than everything. -/
theorem maxDrawdown_lt_one (h : ∀ v ∈ series, 0 < v) : maxDrawdown series < 1 := by
  rcases (isGreatest_maxDrawdown fun v hv => (h v hv).le).1 with
    hzero | ⟨i, j, x, v, -, -, hv, hpos, hdecline⟩
  · rw [hzero]
    exact zero_lt_one
  · rw [hdecline, div_lt_one hpos]
    exact sub_lt_self x (h v (List.mem_of_getElem? hv))

end StrategyGraph.Indicator
