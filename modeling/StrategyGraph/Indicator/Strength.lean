import StrategyGraph.Indicator.Series

/-!
# Relative strength

The relative strength index compares the average gain and the average loss of the last changes, at
most fourteen of them: 100 when nothing was lost, 0 when nothing was gained.

* `strength` is the index of a list of changes;
* `strengthSeries` is the index at each bar, from the changes between the bars;
* `rsi` is the index at each bar, from the values.
-/

namespace StrategyGraph.Indicator

/-- The index looks at no more changes than this. -/
def maxPeriod : Nat := 14

/-- The number of changes that the index of a window looks at. -/
def period (window : Nat) : Nat := min maxPeriod window

variable {α : Type} [Add α] [Sub α] [Mul α] [Div α] [NatCast α] [LT α] [DecidableLT α]
  [BEq α]

/-- The sum of the changes that are gains. -/
def gains (changes : List α) : α :=
  changes.foldl (fun g c => if ((0 : Nat) : α) < c then g + c else g) (0 : Nat)

/-- The sum of the changes that are no gains, without their sign. -/
def losses (changes : List α) : α :=
  changes.foldl (fun l c => if ((0 : Nat) : α) < c then l else l - c) (0 : Nat)

/-- The index of a list of changes. -/
def strength (changes : List α) : α :=
  let gain := gains changes / (changes.length : Nat)
  let loss := losses changes / (changes.length : Nat)
  let hundred : α := (100 : Nat)
  if loss == ((0 : Nat) : α) then hundred
  else hundred - hundred / ((1 : Nat) + gain / loss)

/-- The index of the last changes, if there are enough of them. -/
def lastStrength (window : Nat) (changes : List α) : Option α :=
  if period window ≤ changes.length then some (strength (trailing (period window) changes))
  else none

/-- The index at each bar, from the changes between the bars. -/
def strengthSeries (window : Nat) (changes : List α) : Series α :=
  none :: overPrefixes (lastStrength window) changes

/-- The index at each bar. -/
def rsi (window : Nat) (xs : List α) : Series α :=
  if xs.isEmpty then [] else strengthSeries window (changes xs)

end StrategyGraph.Indicator
