import StrategyGraph.Indicator.Average

/-!
# Average true range

The true range of a bar is the widest of the distances between its high, its low and the close
before; without highs and lows it is the distance between the two closes. The indicator is the mean
of the last `window` true ranges, of fewer at the start, from the second bar on.
-/

namespace StrategyGraph.Indicator

variable {α : Type} [Add α] [Sub α] [Mul α] [Div α] [Neg α] [NatCast α] [LT α] [DecidableLT α]

/-- The value without its sign. -/
def magnitude (x : α) : α := if x < ((0 : Nat) : α) then -x else x

/-- The greater value, the first of equal ones. -/
def greater (a b : α) : α := if a < b then b else a

/-- The true range of a bar from its high, its low and the close before. -/
def trueRange (close high low : α) : α :=
  greater (greater (high - low) (magnitude (high - close))) (magnitude (low - close))

/-- The true ranges from the second bar on. -/
def trueRanges (closes highs lows : List α) : List α :=
  List.zipWith (fun close bar => trueRange close bar.1 bar.2) closes (highs.zip lows).tail

/-- The distances between the closes of bars that follow each other. -/
def closeRanges (closes : List α) : List α := (changes closes).map magnitude

/-- The average of the true ranges at each bar, given from the second bar on. -/
def rangeSeries (window : Nat) (ranges : List α) : Series α := none :: sma window ranges

/-- The average true range from closes alone. -/
def closeAtr (window : Nat) (closes : List α) : Series α :=
  if closes.isEmpty then [] else rangeSeries window (closeRanges closes)

/-- The average true range from closes, highs and lows. -/
def rangeAtr (window : Nat) (closes highs lows : List α) : Series α :=
  if closes.isEmpty then [] else rangeSeries window (trueRanges closes highs lows)

end StrategyGraph.Indicator
