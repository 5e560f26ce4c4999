import StrategyGraph.Decimal.Fixed
import StrategyGraph.Simulation.Result
import StrategyGraph.Text.Table

/-!
# Reports

A result as text: its warnings, its failure, a table of its trades, and a summary.
-/

namespace StrategyGraph.CommandLine

/-- A fraction in percent. A fraction of zero has no sign. -/
def percent (places : Nat) (x : Float) : String := Decimal.fixed places (x * 100.0) ++ "%"

/-- The columns of the table of trades. -/
def tradeHeaders : List String := ["#", "Entry", "Entry $", "Exit", "Exit $", "Net", "Bars"]

/-- The row of trade number `n`, if it has ended. -/
def tradeRow (n : Nat) (t : Ledger.Trade Float) : Option (List String) :=
  t.exit.map fun exit =>
    let net := if exit.netReturn == 0.0 then 0.0 else exit.netReturn
    [toString n, toString t.entryIndex, Decimal.fixed 2 t.entryPrice, toString exit.index,
     Decimal.fixed 2 exit.price, percent 2 net, toString (exit.index - t.entryIndex)]

/-- The rows of trades that are numbered from `n` on. -/
def tradeRows (n : Nat) : List (Ledger.Trade Float) → List (List String)
  | [] => []
  | t :: ts => (tradeRow n t).toList ++ tradeRows (n + 1) ts

/-- The rows of the summary of a run over some bars. -/
def summaryRows (bars : Nat) (r : Simulation.Result) : List (List String) :=
  [["Bars", toString bars], ["Trades", toString r.trades.length],
   ["Total return", percent 2 r.summary.totalReturn], ["Win rate", percent 1 r.summary.winRate],
   ["Avg duration", Decimal.fixed 1 r.summary.avgDuration ++ " bars"],
   ["Max drawdown", percent 2 r.summary.maxDrawdown]]

/-- The report of a run over some bars. -/
def report (bars : Nat) (r : Simulation.Result) : String :=
  let warnings := r.warnings.map fun w => "⚠️  " ++ w.message
  let failure := (r.failure.map fun f => "❌ " ++ f.message).toList
  let rows := tradeRows 1 r.trades
  let trades := if rows.isEmpty then [] else [Text.Table.framed tradeHeaders rows]
  let parts := warnings ++ failure ++ trades ++ [Text.Table.plain (summaryRows bars r)]
  String.join (parts.map (· ++ "\n"))

end StrategyGraph.CommandLine
