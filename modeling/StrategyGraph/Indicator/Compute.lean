import StrategyGraph.Indicator.Kind
import StrategyGraph.Indicator.Breakout
import StrategyGraph.Indicator.Strength
import StrategyGraph.Indicator.Band
import StrategyGraph.Indicator.TrueRange
import StrategyGraph.Price.Bar
import StrategyGraph.Supply

/-!
# Computing an indicator

* `ofBars` is the series of an indicator over bars;
* `ofCloses` is its series over closing prices alone;
* `compute` takes kind, window and prices as they come in a payload.
-/

namespace StrategyGraph.Indicator

/-- The series of an indicator over closes; `ranges` are the highs and lows of the same bars. -/
def ofCloses (kind : IndicatorKind) (window : Nat) (closes : List Float)
    (ranges : Option (List Float × List Float) := none) : Except Fault (Series Float) :=
  match kind with
  | .rollingHigh => .ok (rollingHigh window closes)
  | .rollingLow => .ok (rollingLow window closes)
  | .sma => .ok (sma window closes)
  | .ema => .ok (ema window closes)
  | .rsi => .ok (rsi window closes)
  | .bollingerUpper => bollinger window true defaultDeviations closes
  | .bollingerLower => bollinger window false defaultDeviations closes
  | .atr =>
    match ranges with
    | some (highs, lows) => .ok (rangeAtr window closes highs lows)
    | none => .ok (closeAtr window closes)

/-- The highs and lows, if every bar has both. -/
def ranges? (bars : List Bar) : Option (List Float × List Float) := do
  let highs ← bars.mapM Bar.high
  let lows ← bars.mapM Bar.low
  some (highs, lows)

/-- The series of an indicator over bars. -/
def ofBars (kind : IndicatorKind) (window : Nat) (bars : List Bar) :
    Except Fault (Series Float) :=
  ofCloses kind window (bars.map Bar.price) (ranges? bars)

/-- A window must be at least one bar long. -/
def checkWindow (window : Int) : Except Fault Nat :=
  if window < 1 then .error (.windowTooSmall window) else .ok window.toNat

/-- Reads a window. An infinite one is too large for an integer, anything else that is no integer
is no window. -/
def readWindow (window : Json) : Except Fault Nat :=
  match window.toInt with
  | .ok n => checkWindow n
  | .error .infinityToInteger => .error .infinityToInteger
  | .error _ => .error (.invalidWindow window)

/-- The series of an indicator over prices that are read or still to be read. -/
def compute (kind : Json) (window : Json) (prices : Supply Bar) : Except Fault (Series Float) := do
  match IndicatorKind.ofJson? kind with
  | none => throw (.unknownIndicator kind)
  | some kind =>
    let window ← readWindow window
    match prices with
    | .ready bars => ofBars kind window bars
    | .payload raw => ofCloses kind window (← (← raw.items).mapM Json.toFloat)

end StrategyGraph.Indicator
