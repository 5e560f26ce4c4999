import StrategyGraph.Number.Basic

/-!
# Series over a list of bars

An indicator has one value for each bar, or none where there is not enough history. Its value at a
bar is computed from the bars up to that one: `overPrefixes` maps a function over the beginnings of
a list.

The drawdown of a series is its largest decline from a value to a later one, as a fraction of the
earlier one. `maxDrawdown` finds it in one pass that keeps the highest value so far.
-/

namespace StrategyGraph

/-- One value for each bar, or none. -/
abbrev Series (α : Type) := List (Option α)

namespace Indicator

variable {α β : Type}

/-- What `f` makes of the beginnings of a list that end at each of its items. -/
def overPrefixes (f : List α → β) (xs : List α) : List β :=
  (List.range xs.length).map fun i => f (xs.take (i + 1))

/-- The last `window` items, or all when there are fewer. -/
def trailing (window : Nat) (xs : List α) : List α := xs.drop (xs.length - window)

/-- The differences of items that follow each other. -/
def changes [Sub α] (xs : List α) : List α := List.zipWith (fun a b => b - a) xs xs.tail

/-- The sum from the left. -/
def total [Add α] [NatCast α] (xs : List α) : α := xs.foldl (· + ·) (0 : Nat)

/-- The arithmetic mean. -/
def mean [Add α] [Div α] [NatCast α] (xs : List α) : α := total xs / (xs.length : Nat)

@[simp]
theorem length_overPrefixes (f : List α → β) (xs : List α) :
    (overPrefixes f xs).length = xs.length := by
  simp [overPrefixes]

theorem length_trailing (window : Nat) (xs : List α) :
    (trailing window xs).length = min window xs.length := by
  simp [trailing]; omega

theorem overPrefixes_append (f : List α → β) (xs ys : List α) :
    (overPrefixes f (xs ++ ys)).take xs.length = overPrefixes f xs := by
  apply List.ext_getElem
  · simp
  · intro i h _
    simp only [List.length_take, length_overPrefixes, List.length_append] at h
    simp [overPrefixes, List.take_append, show i + 1 - xs.length = 0 by omega]

/-! ### Drawdown -/

section

variable [Sub α] [Div α] [NatCast α] [LT α] [DecidableLT α]

/-- The largest decline, given the highest value and the largest decline so far. -/
def drawdownFrom (peak worst : α) : List α → α
  | [] => worst
  | v :: vs =>
    let peak := if peak < v then v else peak
    let decline := (peak - v) / peak
    drawdownFrom peak (if ((0 : Nat) : α) < peak ∧ worst < decline then decline else worst) vs

/-- The largest decline of a series. Declines count from positive values only. -/
def maxDrawdown (series : List α) : α := drawdownFrom ((0 : Nat) : α) ((0 : Nat) : α) series

end

end Indicator

end StrategyGraph
