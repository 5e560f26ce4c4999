import StrategyGraph.Indicator.Series
import StrategyGraph.Ledger.Trade

/-!
# Summary of a run

Total return, share of winning trades, average duration of a trade and largest drawdown, from the
equity at each bar and the list of trades.
-/

namespace StrategyGraph.Ledger

variable {α : Type}

/-- What a run comes to. -/
structure Summary (α : Type) where
  /-- The change of the equity as a fraction of the initial capital. -/
  totalReturn : α
  /-- The share of the ended trades that earned something. -/
  winRate : α
  /-- The average number of bars from purchase to sale. -/
  avgDuration : α
  /-- The largest decline of the equity. -/
  maxDrawdown : α

namespace Summary

/-- The summary of nothing. -/
def zero [NatCast α] : Summary α :=
  let zero : α := (0 : Nat)
  ⟨zero, zero, zero, zero⟩

variable [Sub α] [Div α] [NatCast α] [IntCast α] [LT α] [DecidableLT α]

/-- The number of trades that earned something. -/
def wins (exits : List (Trade α × Exit α)) : Nat :=
  exits.countP fun e => decide (((0 : Nat) : α) < e.2.netReturn)

/-- The number of bars of all trades together. -/
def bars (exits : List (Trade α × Exit α)) : Int :=
  (exits.map fun e => e.2.index - e.1.entryIndex).foldl (· + ·) 0

/-- The trades that have ended, with how they ended. -/
def ended (trades : List (Trade α)) : List (Trade α × Exit α) :=
  trades.filterMap fun t => t.exit.map fun e => (t, e)

/-- Summarizes the equity at each bar and the trades of a run. -/
def of (equity : List α) (trades : List (Trade α)) (capital : α) : Summary α :=
  let exits := ended trades
  let zero : α := (0 : Nat)
  { totalReturn := match equity.getLast? with
      | some last => last / capital - (1 : Nat)
      | none => zero
    winRate := if exits.isEmpty then zero else (wins exits : α) / (exits.length : α)
    avgDuration := if exits.isEmpty then zero else (bars exits : α) / (exits.length : α)
    maxDrawdown := Indicator.maxDrawdown equity }

end Summary

end StrategyGraph.Ledger
