import StrategyGraph.Fault
import StrategyGraph.Number.Checked
import StrategyGraph.Indicator.Series

/-!
# Bollinger bands

A band lies a number of standard deviations above or below the mean of the last `window` values, of
fewer at the start. The square of a double can be too large for one, so computing a band can fail.
-/

namespace StrategyGraph.Indicator

/-- Squares, which may be too large, and roots. -/
class Radical (α : Type) where
  /-- The square. -/
  square : α → Except Fault α
  /-- The root of a value that is not negative. -/
  sqrt : α → α

instance : Radical Float := ⟨Number.squareFloat, Float.sqrt⟩

/-- The distance of the bands from the mean, in standard deviations. -/
def defaultDeviations : Float := 2.0

variable {α : Type} [Add α] [Sub α] [Mul α] [Div α] [NatCast α] [Radical α]

/-- The sum of the squared distances from `m`. -/
def squaredDistances (m : α) (xs : List α) : Except Fault α :=
  xs.foldlM (fun sum x => (Radical.square (x - m)).map (sum + ·)) ((0 : Nat) : α)

/-- The standard deviation of the values from their mean `m`. -/
def deviation (m : α) (xs : List α) : Except Fault α :=
  (squaredDistances m xs).map fun sum => Radical.sqrt (sum / (xs.length : Nat))

/-- The upper or lower band of the values. -/
def band (upper : Bool) (deviations : α) (xs : List α) : Except Fault α :=
  let m := mean xs
  (deviation m xs).map fun sd =>
    if upper then m + deviations * sd else m - deviations * sd

/-- The upper or lower band at each bar. -/
def bollinger (window : Nat) (upper : Bool) (deviations : α) (xs : List α) :
    Except Fault (Series α) :=
  (overPrefixes (fun p => (band upper deviations (trailing window p)).map some) xs).mapM id

end StrategyGraph.Indicator
