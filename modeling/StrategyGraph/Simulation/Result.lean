import StrategyGraph.Graph.Warning
import StrategyGraph.Ledger.Statement
import StrategyGraph.Simulation.Failure

/-!
# Results of a simulation

The equity at each bar, the trades, their summary, the warnings of the blueprint, and the failure if
there was one.
-/

namespace StrategyGraph

/-- A trade as a JSON object. -/
def Ledger.Trade.toJson (t : Ledger.Trade Float) : Json :=
  .object
    [("entryIndex", .ofInt t.entryIndex), ("entryPrice", .ofFloat t.entryPrice),
     ("exitIndex", Json.ofOption (fun e => .ofInt e.index) t.exit),
     ("exitPrice", Json.ofOption (fun e => .ofFloat e.price) t.exit),
     ("netReturn", Json.ofOption (fun e => .ofFloat e.netReturn) t.exit)]

namespace Simulation

/-- What a simulation comes to. -/
structure Result where
  /-- What the account was worth after each bar. -/
  equity : List Float := []
  /-- The trades that have ended. -/
  trades : List (Ledger.Trade Float) := []
  /-- The summary of equity and trades; all zero after a failure. -/
  summary : Ledger.Summary Float := .zero
  /-- What is wrong with the strategy. -/
  warnings : List Warning
  /-- Why there is no full result. -/
  failure : Option Failure := none

namespace Result

/-- The result that a statement tells. -/
def ofStatement (warnings : List Warning) (s : Ledger.Statement Float) : Result :=
  { equity := s.equity
    trades := s.trades
    summary := s.summary
    warnings
    failure := if s.stopped then some .cancelled else none }

/-- The simulation ran to its end. -/
def success (r : Result) : Bool := r.failure.isNone

/-- The result as a JSON object. -/
def toJson (r : Result) : Json :=
  .object
    [("equitySeries", .array (r.equity.map .ofFloat)),
     ("trades", .array (r.trades.map Ledger.Trade.toJson)),
     ("totalReturn", .ofFloat r.summary.totalReturn), ("winRate", .ofFloat r.summary.winRate),
     ("avgDuration", .ofFloat r.summary.avgDuration),
     ("maxDrawdown", .ofFloat r.summary.maxDrawdown),
     ("warnings", Json.strings (r.warnings.map Warning.message)),
     ("error", Json.ofOption (fun f => .string f.message) r.failure)]

end Result

end Simulation

end StrategyGraph
