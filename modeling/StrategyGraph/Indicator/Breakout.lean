import StrategyGraph.Indicator.Series

/-!
# Breakout levels

The highest and the lowest of the `window` values before a bar; the bar itself does not count.
-/

namespace StrategyGraph.Indicator

variable {α : Type} [LT α] [DecidableLT α]

/-- The greatest value, the first of equal ones. -/
def highest : List α → Option α
  | [] => none
  | x :: xs => some (xs.foldl (fun best v => if best < v then v else best) x)

/-- The least value, the first of equal ones. -/
def lowest : List α → Option α
  | [] => none
  | x :: xs => some (xs.foldl (fun best v => if v < best then v else best) x)

/-- The `window` values before the last one, if there are that many. -/
def before (window : Nat) (xs : List α) : List α :=
  if window < xs.length then trailing window xs.dropLast else []

/-- The highest of the `window` values before each bar. -/
def rollingHigh (window : Nat) (xs : List α) : Series α :=
  overPrefixes (fun p => highest (before window p)) xs

/-- The lowest of the `window` values before each bar. -/
def rollingLow (window : Nat) (xs : List α) : Series α :=
  overPrefixes (fun p => lowest (before window p)) xs

end StrategyGraph.Indicator
