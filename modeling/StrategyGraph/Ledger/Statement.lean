import StrategyGraph.Ledger.Account
import StrategyGraph.Ledger.Summary

/-!
# Statements

A run plays a list of prices with some capital and ends the trade that is open at the last of them.
Its statement lists the equity at each bar and the trades that have ended, with their summary; `run`
draws it up for a trader who decides in any monad.
-/

namespace StrategyGraph.Ledger

variable {α : Type} [Sub α] [Mul α] [Div α] [NatCast α] [IntCast α] [LT α] [DecidableLT α]

/-- What a run comes to. -/
structure Statement (α : Type) where
  /-- What the account was worth after each bar. -/
  equity : List α
  /-- The trades that have ended. -/
  trades : List (Trade α)
  /-- The summary of equity and trades; all zero when the trader ended the run. -/
  summary : Summary α
  /-- The trader ended the run. -/
  stopped : Bool

/-- The statement of a run. -/
def Statement.of (fee capital : α) (prices : List α) (played : Played α) : Statement α :=
  let account := played.settled fee prices
  let equity := account.equity.toList
  let trades := account.trades.toList
  { equity, trades
    summary := if played.stopped then Summary.zero else Summary.of equity trades capital
    stopped := played.stopped }

/-- Plays all prices with some capital. -/
def run {m : Type → Type} [Monad m] (fee capital : α) (trader : Trader m α) (prices : List α) :
    m (Statement α) := do
  let played ← (Account.opened capital).play fee trader 0 prices
  pure (Statement.of fee capital prices played)

end StrategyGraph.Ledger
