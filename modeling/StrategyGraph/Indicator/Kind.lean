import StrategyGraph.Json.Basic
import StrategyGraph.Text.Case
import StrategyGraph.Text.Classes

/-!
# Kinds of indicators

The indicators by name. `IndicatorKind.parse` knows each by its own name and by shorter ones, in
any case, with hyphens or spaces for underscores.
-/

namespace StrategyGraph

/-- An indicator. -/
inductive IndicatorKind where
  /-- The highest price of the bars before. -/
  | rollingHigh
  /-- The lowest price of the bars before. -/
  | rollingLow
  /-- The simple moving average. -/
  | sma
  /-- The exponential moving average. -/
  | ema
  /-- The relative strength index. -/
  | rsi
  /-- The upper Bollinger band. -/
  | bollingerUpper
  /-- The lower Bollinger band. -/
  | bollingerLower
  /-- The average true range. -/
  | atr
  deriving DecidableEq

namespace IndicatorKind

/-- The name of an indicator. -/
def name : IndicatorKind → String
  | rollingHigh => "rolling_high"
  | rollingLow => "rolling_low"
  | sma => "sma"
  | ema => "ema"
  | rsi => "rsi"
  | bollingerUpper => "bollinger_upper"
  | bollingerLower => "bollinger_lower"
  | atr => "atr"

/-- The indicator of a name in lower case with underscores. -/
def ofName? : String → Option IndicatorKind
  | "rolling_high" | "30d_high" | "high" | "highest" | "rollinghigh" => some rollingHigh
  | "rolling_low" | "30d_low" | "low" | "lowest" | "rollinglow" => some rollingLow
  | "sma" => some sma
  | "ema" => some ema
  | "rsi" => some rsi
  | "bollinger_upper" | "bb_upper" | "bollingerupper" => some bollingerUpper
  | "bollinger_lower" | "bb_lower" | "bollingerlower" => some bollingerLower
  | "atr" => some atr
  | _ => none

/-- The indicator that a text names. -/
def parse (s : String) : Option IndicatorKind :=
  ofName? (Text.replaceChar (Text.replaceChar (Text.lower (Text.strip s)) '-' '_') ' ' '_')

/-- The indicator that a value names; only texts are names. -/
def ofJson? : Json → Option IndicatorKind
  | .string s => parse s
  | _ => none

end IndicatorKind

end StrategyGraph
