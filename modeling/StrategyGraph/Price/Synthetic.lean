import StrategyGraph.Decimal.Fixed
import StrategyGraph.Number.Basic
import StrategyGraph.Number.Checked
import StrategyGraph.Price.Bar
import StrategyGraph.Random.Twister

/-!
# Synthetic prices

A geometric random walk for demonstrations: each bar moves the price by a drift and a random shock,
never below one. The same seed gives the same walk.

* `nextPrice` and `walk` are the walk in any arithmetic, from a stream of numbers in `[0, 1)`, and
  `quotes` are its rounded prices with times, of which the last is given;
* `synthetic` is the list of bars that a seed stands for.
-/

namespace StrategyGraph

/-- How the bars of a resolution follow each other. -/
structure Pace where
  /-- Milliseconds between two bars. -/
  step : Int
  /-- The width of the random shock. -/
  volatility : Float
  /-- The shock without randomness. -/
  drift : Float

namespace Pace

/-- Daily bars. -/
def daily : Pace := ⟨24 * 60 * 60 * 1000, 0.02, 0.0006⟩

/-- Hourly bars. -/
def hourly : Pace := ⟨60 * 60 * 1000, 0.0125, 0.0002⟩

/-- Bars of a minute. -/
def minutely : Pace := ⟨60 * 1000, 0.004, 0.00005⟩

/-- The pace of a resolution; daily when the name is not known. -/
def ofName (name : String) : Pace :=
  match name with
  | "1h" => hourly
  | "1m" => minutely
  | _ => daily

end Pace

namespace Synthetic

/-- The times of `n` bars that end at `endTime`. -/
def times (step endTime : Int) (n : Nat) : List Int :=
  (List.range n).map fun i : Nat => endTime - step * (n - 1) + i * step

section Walk

variable {α : Type} [Add α] [Sub α] [Mul α] [Div α] [NatCast α] [LT α] [DecidableLT α]

/-- The price after `price`, moved by the shock that `u` in `[0, 1)` stands for. -/
def nextPrice (drift volatility price u : α) : α :=
  let one : α := (1 : Nat)
  let shock := drift + (u - one / (2 : Nat)) * volatility
  let moved := price * (one + shock)
  if one < moved then moved else one

/-- The prices after `price`, one for each number of the stream. -/
def walk (drift volatility : α) (price : α) : List α → List α
  | [] => []
  | u :: us =>
    let next := nextPrice drift volatility price u
    next :: walk drift volatility next us

/-- The times and rounded prices of a walk, one for each number of the stream, of which the last has
the time `endTime`. -/
def quotes (round : α → α) (drift volatility : α) (step : Int) (start : α) (endTime : Int)
    (units : List α) : List (Int × α) :=
  (times step endTime units.length).zip ((walk drift volatility start units).map round)

end Walk

/-- The number of bars that are made when `points` are asked for. -/
def barCount (points : Int) : Nat := (max 2 points).toNat

/-- The price the walk starts from: 1000 unless a positive number is given. -/
def startFrom (start : Json) : Except Fault Float :=
  if start.isTruthy then
    match start.asNumber? with
    | none => .error (.notComparable start.typeName "int")
    | some n => if Number.int 0 < n then n.toFloat else .ok 1000.0
  else .ok 1000.0

/-- The bars of a stream of numbers. -/
def bars (pace : Pace) (start : Float) (endTime : Int) (units : List Float) : List Bar :=
  (quotes (Decimal.roundPlaces 2) pace.drift pace.volatility pace.step start endTime units).map
    fun (time, price) => { time := some time, price }

end Synthetic

/-- A random walk of `points` bars, two at least, of which the last has the time `endTime`. -/
def synthetic (points : Int) (start : Float) (pace : Pace) (seed : Int) (endTime : Int) :
    List Bar :=
  Synthetic.bars pace start endTime
    ((Random.Twister.ofSeed seed).units (Synthetic.barCount points))

end StrategyGraph
