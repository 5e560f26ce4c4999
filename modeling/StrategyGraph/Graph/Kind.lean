import StrategyGraph.Json.Basic
import StrategyGraph.Text.Case
import StrategyGraph.Text.Classes

/-!
# Kinds of nodes

The kinds of nodes an editor can place, and the role each plays in a strategy. `NodeKind.ofJson?`
reads a kind from its name in any case, with underscores, or with the ending `Node`.
-/

namespace StrategyGraph

/-- A kind of node. -/
inductive NodeKind where
  /-- A plain input. -/
  | input
  /-- An indicator series. -/
  | inputIndicator
  /-- The series of closing prices. -/
  | inputPrice
  /-- An indicator series with slots for its parameters. -/
  | indicator
  /-- A condition. -/
  | condition
  /-- A purchase. -/
  | buy
  /-- A sale. -/
  | sell
  /-- A rectangle around other nodes. -/
  | block
  /-- A name for a series. -/
  | setParameter
  /-- A note. -/
  | record
  /-- A purchase or sale, as its data says. -/
  | execute
  deriving DecidableEq

/-- What a node does when a walk comes to it. -/
inductive Role where
  /-- It makes a series, and the walk goes on. -/
  | producer
  /-- The walk goes on. -/
  | passThrough
  /-- The walk goes on along one branch. -/
  | condition
  /-- The walk ends with a purchase or sale. -/
  | action
  /-- It holds other nodes, and the walk goes on. -/
  | container
  deriving DecidableEq

namespace NodeKind

/-- The name of a kind. -/
def name : NodeKind → String
  | input => "input"
  | inputIndicator => "inputIndicator"
  | inputPrice => "inputPrice"
  | indicator => "indicator"
  | condition => "if"
  | buy => "buy"
  | sell => "sell"
  | block => "block"
  | setParameter => "setParameter"
  | record => "record"
  | execute => "execute"

/-- The role of a kind. -/
def role : NodeKind → Role
  | input | setParameter | record => .passThrough
  | inputIndicator | inputPrice | indicator => .producer
  | condition => .condition
  | buy | sell | execute => .action
  | block => .container

/-- The kind of a name in lower case without underscores. -/
def ofName? : String → Option NodeKind
  | "input" => some input
  | "inputindicator" => some inputIndicator
  | "inputprice" => some inputPrice
  | "indicator" => some indicator
  | "if" => some condition
  | "buy" => some buy
  | "sell" => some sell
  | "block" => some block
  | "setparameter" => some setParameter
  | "record" => some record
  | "execute" => some execute
  | _ => none

/-- The text without the ending `Node`. -/
def dropNode (s : String) : String :=
  if Text.endsIn s "Node" then String.ofList (s.toList.take (s.length - 4)) else s

/-- The kind that a text names. -/
def parse (s : String) : Option NodeKind :=
  ofName? (Text.removeChar (Text.lower (dropNode (Text.strip s))) '_')

/-- The kind that a value names; only texts are names. -/
def ofJson? : Json → Option NodeKind
  | .string s => parse s
  | _ => none

end NodeKind

/-- The name of a role. -/
def Role.name : Role → String
  | .producer => "producer"
  | .passThrough => "pass_through"
  | .condition => "condition"
  | .action => "action"
  | .container => "container"

end StrategyGraph
