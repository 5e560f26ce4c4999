import StrategyGraph.Json.Reading

/-!
# Payloads and what was read from them

Nodes, edges and bars are handed over either as they come in a payload or after they were read.
-/

namespace StrategyGraph

/-- Things of type `α`, read or still to be read. -/
inductive Supply (α : Type) where
  /-- A payload that lists them. -/
  | payload (raw : Json)
  /-- The things themselves. -/
  | ready (items : List α)

namespace Supply

variable {α : Type}

/-- Nothing is listed. -/
def isEmpty : Supply α → Bool
  | .payload raw => !raw.isTruthy
  | .ready items => items.isEmpty

/-- What is listed, each thing read or still to be read. -/
def entries : Supply α → Except Fault (List (Json ⊕ α))
  | .payload raw => raw.itemsIfAny.map (·.map .inl)
  | .ready items => .ok (items.map .inr)

end Supply

end StrategyGraph
