import StrategyGraph.Number.Basic

/-!
# Trades

A trade buys at one bar and sells at a later one. What it earns is the quotient of the two prices,
less the fee on both sides. Prices are of any type with the operations of a field.
-/

namespace StrategyGraph.Ledger

variable {α : Type}

/-- How a trade ended. -/
structure Exit (α : Type) where
  /-- The bar of the sale. -/
  index : Int
  /-- The price of the sale. -/
  price : α
  /-- What the trade earned, as a fraction of what it cost. -/
  netReturn : α

/-- A purchase and, if there was one, its sale. -/
structure Trade (α : Type) where
  /-- The bar of the purchase. -/
  entryIndex : Int
  /-- The price of the purchase. -/
  entryPrice : α
  /-- The sale. -/
  exit : Option (Exit α) := none

namespace Trade

/-- The trade has not ended. -/
def isOpen (t : Trade α) : Bool := t.exit.isNone

/-- What both fees leave of a notional: the square of what one leaves. Over doubles it is a rounded
product; a power with exponent two may differ from it in its last bit. -/
def kept [Sub α] [Mul α] [NatCast α] (fee : α) : α :=
  ((1 : Nat) - fee) * ((1 : Nat) - fee)

/-- Ends a trade at a bar and price; `kept` is what both fees leave. -/
def close [Sub α] [Mul α] [Div α] [NatCast α] (t : Trade α) (index : Int) (price kept : α) :
    Trade α :=
  let exit : Exit α := { index, price, netReturn := price / t.entryPrice * kept - (1 : Nat) }
  { t with exit := some exit }

end Trade

end StrategyGraph.Ledger
