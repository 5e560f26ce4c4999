import StrategyGraph.Blueprint.Compile
import StrategyGraph.Indicator.Compute

/-!
# What is known at a bar

A walk reads prices and series at one bar.

* `BarContext` holds the number of the bar, its price, the entry price of the open trade and all
  series;
* `valueAt` reads a list at a place, counted from its end when negative;
* `Blueprint.series` computes the series of a blueprint.
-/

namespace StrategyGraph

/-- What is known at a bar. -/
structure BarContext where
  /-- The number of the bar. -/
  index : Int
  /-- Its price. -/
  price : Number
  /-- The entry price of the open trade. -/
  entry : Option Number := none
  /-- The series, each under its name. -/
  series : List (String × Series Number) := []

/-- The item at a place; negative places count from the end. -/
def valueAt {α : Type} (items : List α) (place : Int) : Except Fault α :=
  let fromStart := if place < 0 then place + items.length else place
  if fromStart < 0 then .error .indexOutOfRange
  else
    match items[fromStart.toNat]? with
    | some item => .ok item
    | none => .error .indexOutOfRange

/-- The series of a producer over bars. -/
def Producer.series (p : Producer) (bars : List Bar) : Except Fault (Series Float) :=
  match p.source with
  | .price _ => .ok (bars.map fun b => some b.price)
  | .indicator kind window => do Indicator.ofBars kind (← Indicator.checkWindow window) bars

/-- The series of all producers over bars, each under its name. -/
def Blueprint.series (b : Blueprint) (bars : List Bar) :
    Except Fault (List (String × Series Float)) :=
  b.producers.mapM fun p => (p.series bars).map fun series => (p.outputKey, series)

/-- Series of doubles as a walk reads them. -/
def BarContext.table (series : List (String × Series Float)) : List (String × Series Number) :=
  series.map fun s => (s.1, s.2.map fun value => value.map Number.float)

end StrategyGraph
