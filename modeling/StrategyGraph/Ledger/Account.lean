import StrategyGraph.Ledger.Trade

/-!
# Accounts

An account holds cash or one open trade. It buys for all its cash and sells its whole position; the
fee is a fraction of what is bought or sold.

* `Account.step` is what a bar does to an account;
* `Account.play` plays a list of prices, with a `Trader` who decides at each of them. The trader
  decides in any monad, so deciding may fail or leave traces;
* `Account.liquidate` ends the open trade at a price, and `Played.settled` does so at the last one.
-/

namespace StrategyGraph.Ledger

variable {α : Type}

/-- What an account holds. -/
inductive Holding (α : Type) where
  /-- Cash. -/
  | cash (amount : α)
  /-- A position that an open trade has bought. -/
  | position (amount : α) (trade : Trade α)

/-- An account and its history. -/
structure Account (α : Type) where
  /-- What it holds. -/
  holding : Holding α
  /-- The trades that have ended. -/
  trades : Array (Trade α) := #[]
  /-- What it was worth after each bar. -/
  equity : Array α := #[]

/-- Who decides at each bar. -/
structure Trader (m : Type → Type) (α : Type) where
  /-- The play ends before this bar. -/
  stops : Nat → m Bool
  /-- Without an open trade: buy at this bar and price. -/
  buys : Nat → α → m Bool
  /-- With an open trade: sell at this bar and price, given the entry price. -/
  sells : Nat → α → α → m Bool

/-- How a play ended. -/
structure Played (α : Type) where
  /-- The account at the end. -/
  account : Account α
  /-- The trader ended it. -/
  stopped : Bool

namespace Account

/-- An account with some cash. -/
def opened (capital : α) : Account α := { holding := .cash capital }

section Arithmetic

variable [Sub α] [Mul α] [Div α] [NatCast α] (fee : α)

/-- Buys for all cash, or sells the whole position, at a bar and price. -/
def trade (a : Account α) (index : Nat) (price : α) : Account α :=
  match a.holding with
  | .cash amount =>
    let bought := amount * ((1 : Nat) - fee) / price
    { a with holding := .position bought { entryIndex := index, entryPrice := price } }
  | .position amount open_ =>
    { a with
      holding := .cash (amount * price * ((1 : Nat) - fee))
      trades := a.trades.push (open_.close index price (Trade.kept fee)) }

/-- What the account is worth at a price. -/
def worth (a : Account α) (price : α) : α :=
  match a.holding with
  | .cash amount => amount
  | .position amount _ => amount * price

/-- Adds what the account is worth to its history. -/
def valued (a : Account α) (price : α) : Account α :=
  { a with equity := a.equity.push (a.worth price) }

/-- What a bar does to an account; `acts` tells whether it buys or sells. -/
def step (a : Account α) (index : Nat) (price : α) (acts : Bool) : Account α :=
  valued (if acts then a.trade fee index price else a) price

/-- The trader's decision at a bar. Nothing is bought at the last bar: it would be sold at once. -/
def decision {m : Type → Type} [Monad m] (trader : Trader m α) (a : Account α) (index : Nat)
    (price : α) (isLast : Bool) : m Bool :=
  match a.holding with
  | .cash _ => if isLast then pure false else trader.buys index price
  | .position _ t => trader.sells index price t.entryPrice

/-- Plays the prices from bar `index` on. -/
def play {m : Type → Type} [Monad m] (trader : Trader m α) (a : Account α) (index : Nat) :
    List α → m (Played α)
  | [] => pure ⟨a, false⟩
  | price :: prices => do
    if ← trader.stops index then pure ⟨a, true⟩
    else
      let acts ← decision trader a index price prices.isEmpty
      play trader (a.step fee index price acts) (index + 1) prices

/-- Ends the open trade, if there is one, at a bar and price, and values the account again. -/
def liquidate (a : Account α) (index : Nat) (price : α) : Account α :=
  match a.holding with
  | .cash _ => a
  | .position _ _ =>
    let sold := a.trade fee index price
    { sold with equity := sold.equity.pop.push (sold.worth price) }

end Arithmetic

end Account

/-- The account after all prices were played. Unless the trader ended the play, the open trade ends
at the last bar. -/
def Played.settled [Sub α] [Mul α] [Div α] [NatCast α] (fee : α) (prices : List α)
    (played : Played α) : Account α :=
  if played.stopped then played.account
  else
    played.account.liquidate fee (prices.length - 1) (prices.getLast?.getD ((0 : Nat) : α))

end StrategyGraph.Ledger
