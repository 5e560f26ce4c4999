import StrategyGraph.Indicator.Series

/-!
# Windows of a series

The value of a series at a bar is made of the items of a window that ends there.

* `getElem?_overPrefixes` : the value at a bar, from the items up to it;
* `trailing_take` : the last of these items are a window, from one place of the list to another.
-/

namespace StrategyGraph.Indicator

variable {α β : Type} {xs : List α} {i : Nat}

theorem getElem?_overPrefixes (f : List α → β) (h : i < xs.length) :
    (overPrefixes f xs)[i]? = some (f (xs.take (i + 1))) := by
  simp [overPrefixes, h]

theorem trailing_map (window : Nat) (g : α → β) (xs : List α) :
    trailing window (xs.map g) = (trailing window xs).map g := by
  simp [trailing]

theorem trailing_take (window : Nat) (h : i ≤ xs.length) :
    trailing window (xs.take i) = xs.extract (i - window) i := by
  rw [trailing, List.length_take_of_le h, List.drop_take]

theorem length_extract {start stop : Nat} (h : stop ≤ xs.length) :
    (xs.extract start stop).length = stop - start := by
  rw [List.extract_eq_take_drop, List.length_take, List.length_drop]
  omega

theorem extract_ne_nil {start stop : Nat} (h : start < stop) (hstop : stop ≤ xs.length) :
    xs.extract start stop ≠ [] := by
  refine List.ne_nil_of_length_pos ?_
  rw [length_extract hstop]
  exact Nat.sub_pos_of_lt h

end StrategyGraph.Indicator
