import StrategyGraph.Decimal.Shortest

/-!
# Failures of a simulation

A simulation that cannot be run, or is stopped, reports why. A failure is part of its result.
-/

namespace StrategyGraph.Simulation

/-- Why a simulation has no full result. -/
inductive Failure where
  /-- Fee or capital is no number. -/
  | notNumbers
  /-- The fee is negative, or everything, or not finite. -/
  | feeOutOfRange (percent : Float)
  /-- The capital is not positive or not finite. -/
  | capitalNotPositive (capital : Float)
  /-- There is no blueprint. -/
  | noBlueprint
  /-- There are no prices. -/
  | noPrices
  /-- An entry of the price list is no bar. -/
  | invalidBar (index : Nat)
  /-- A price is not positive. -/
  | nonPositivePrice (index : Nat)
  /-- A bar is earlier than the one before it. -/
  | unordered (index : Nat)
  /-- There are too few bars. -/
  | tooFewBars (count : Nat) (least : Int)
  /-- The strategy cannot buy. -/
  | noEntry
  /-- The simulation was stopped. -/
  | cancelled

/-- The wording of a failure. -/
def Failure.message : Failure → String
  | notNumbers => "feePercent and initialCapital must be numbers"
  | feeOutOfRange percent => "feePercent must be in [0, 100), got " ++ Decimal.shortest percent
  | capitalNotPositive capital =>
    "initialCapital must be positive, got " ++ Decimal.shortest capital
  | noBlueprint => "No blueprint to simulate"
  | noPrices => "Price series is empty"
  | invalidBar index => s!"Price series contains an invalid bar at index {index}"
  | nonPositivePrice index => s!"Price series contains a non-positive price at index {index}"
  | unordered index => s!"Price series is not ordered by time at index {index}"
  | tooFewBars count least => s!"Price series has {count} bars; at least {least} are required"
  | noEntry => "Strategy has no resolvable entry condition"
  | cancelled => "Simulation cancelled"

end StrategyGraph.Simulation
