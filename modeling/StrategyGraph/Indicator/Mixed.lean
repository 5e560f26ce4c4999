import StrategyGraph.Indicator.Breakout
import StrategyGraph.Indicator.Strength
import StrategyGraph.Indicator.Band
import StrategyGraph.Indicator.Series
import StrategyGraph.Indicator.TrueRange

/-!
# Indicators over integers and doubles

Series may be computed over numbers that are partly integers. Breakout levels are numbers of the
list and stay what they are. Everything else is a double; differences of two integers are taken
exactly before they become doubles.
-/

namespace StrategyGraph.Indicator.Mixed

/-- The doubles nearest to the numbers. -/
def floats (xs : List Number) : Except Fault (List Float) := xs.mapM Number.toFloat

/-- A series of doubles as numbers. -/
def ofFloats (series : Series Float) : Series Number := series.map fun x => x.map .float

/-- No value at any of the places. -/
def absent (xs : List Number) : Series Number := xs.map fun _ => none

/-- The simple moving average. -/
def sma (window : Nat) (xs : List Number) : Except Fault (Series Number) := do
  pure (ofFloats (Indicator.sma window (← floats xs)))

/-- The exponential moving average. -/
def ema (window : Nat) (xs : List Number) : Except Fault (Series Number) := do
  if xs.length < window then pure (absent xs)
  else pure (ofFloats (Indicator.ema window (← floats xs)))

/-- The relative strength index. -/
def rsi (window : Nat) (xs : List Number) : Except Fault (Series Number) := do
  if xs.length ≤ period window then pure (absent xs)
  else
    let changes ← (xs.zip xs.tail).mapM fun p => p.2.sub p.1
    pure (ofFloats (strengthSeries window (← floats changes)))

/-- The upper or lower band. -/
def bollinger (window : Nat) (upper : Bool) (deviations : Number) (xs : List Number) :
    Except Fault (Series Number) := do
  if xs.isEmpty then pure []
  else pure (ofFloats (← Indicator.bollinger window upper (← deviations.toFloat) (← floats xs)))

/-- The distance of two numbers. -/
def distance (a b : Number) : Except Fault Number := (a.sub b).map Number.abs

/-- The true range of a bar from its high, its low and the close before. -/
def trueRange (close high low : Number) : Except Fault Number := do
  let range ← high.sub low
  let up ← distance high close
  let down ← distance low close
  pure (greater (greater range up) down)

/-- The average true range. Highs and lows count when there is one of each for every close. -/
def atr (window : Nat) (closes : List Number) (highs lows : Option (List Number)) :
    Except Fault (Series Number) := do
  if closes.isEmpty then pure []
  else
    let byClose := (closes.zip closes.tail).mapM fun p => distance p.2 p.1
    let ranges ←
      match highs, lows with
      | some highs, some lows =>
        if highs.length = closes.length && lows.length = closes.length then
          (closes.zip (highs.zip lows).tail).mapM fun p => trueRange p.1 p.2.1 p.2.2
        else byClose
      | _, _ => byClose
    pure (ofFloats (rangeSeries window (← floats ranges)))

/-- The largest decline of a series. -/
def maxDrawdown (series : List Number) : Except Fault Float :=
  (Indicator.maxDrawdown (series.map Checked.ofNumber)).toFloat

end StrategyGraph.Indicator.Mixed
