import StrategyGraph.Price.Bar
import StrategyGraph.Simulation.Failure
import StrategyGraph.Supply

/-!
# Bars of a simulation

A simulation takes every entry of a price list or none: each must be a bar with a positive price
that is not earlier than the bar before it.
-/

namespace StrategyGraph.Simulation

/-- Reads an entry that may have been read before. -/
def readEntry : Json ⊕ Bar → Except Fault (Option Bar)
  | .inl j => Bar.read j
  | .inr bar => .ok (some bar)

/-- The entry at a place of the list as the bar that follows `previous`. -/
def checkBar (index : Nat) (previous : Option Bar) (bar : Option Bar) : Except Failure Bar :=
  match bar with
  | none => .error (.invalidBar index)
  | some bar =>
    if bar.price ≤ 0.0 then .error (.nonPositivePrice index)
    else if previous.all fun p => p.notAfter bar then .ok bar
    else .error (.unordered index)

/-- Reads the entries from place `index` on, the first of which follows `previous`. -/
def readBarsFrom (index : Nat) (previous : Option Bar) :
    List (Json ⊕ Bar) → ExceptT Failure (Except Fault) (List Bar)
  | [] => pure []
  | entry :: entries => do
    let bar ← ExceptT.mk ((readEntry entry).map (checkBar index previous))
    let bars ← readBarsFrom (index + 1) (some bar) entries
    pure (bar :: bars)

/-- Reads the entries of a price list. -/
def readBars (entries : List (Json ⊕ Bar)) : ExceptT Failure (Except Fault) (List Bar) :=
  readBarsFrom 0 none entries

end StrategyGraph.Simulation
