import StrategyGraph.Indicator.Series

/-!
# Moving averages

* `sma` is the mean of the last `window` values, of fewer at the start;
* `ema` starts with the mean of the first `window` values, and each further value moves it by the
  fraction `2 / (window + 1)` of the distance between them.
-/

namespace StrategyGraph.Indicator

variable {α : Type} [Add α] [Sub α] [Mul α] [Div α] [NatCast α]

/-- The simple moving average. -/
def sma (window : Nat) (xs : List α) : Series α :=
  overPrefixes (fun p => some (mean (trailing window p))) xs

/-- The average `current`, moved towards `v`. -/
def emaStep (multiplier current v : α) : α := (v - current) * multiplier + current

/-- The exponential average of a list of at least `window` values. -/
def emaLast (window : Nat) (xs : List α) : α :=
  let multiplier : α := ((2 : Nat) : α) / ((window + 1 : Nat) : α)
  (xs.drop window).foldl (emaStep multiplier) (mean (xs.take window))

/-- The exponential moving average. -/
def ema (window : Nat) (xs : List α) : Series α :=
  overPrefixes (fun p => if window ≤ p.length then some (emaLast window p) else none) xs

end StrategyGraph.Indicator
