import StrategyGraph.Json.Basic

/-!
# Warnings

What can be wrong with a strategy graph without making it useless. `Warning.message` is the only
place that words a warning.
-/

namespace StrategyGraph

/-- A part of a strategy. -/
inductive Part where
  /-- The conditions of a purchase. -/
  | entry
  /-- The conditions of a sale. -/
  | inTrade
  deriving DecidableEq

/-- The name of a part. -/
def Part.name : Part → String
  | .entry => "entry"
  | .inTrade => "in-trade"

/-- A side of a comparison. -/
inductive Side where
  /-- The left operand. -/
  | left
  /-- The right operand. -/
  | right
  deriving DecidableEq

/-- The name of a side. -/
def Side.name : Side → String
  | .left => "left"
  | .right => "right"

/-- Something wrong with a strategy graph. -/
inductive Warning where
  /-- The list of nodes is empty. -/
  | noNodes
  /-- The list of nodes holds no node. -/
  | noUsableNodes
  /-- A value of this type is no node. -/
  | notANode (typeName : String)
  /-- A node has no id. -/
  | nodeWithoutId
  /-- A node's type is no kind of node. -/
  | unknownNodeType (id type : Json)
  /-- A node has the id of an earlier one. -/
  | duplicateNode (id : String)
  /-- A value of this type is no edge. -/
  | notAnEdge (index : Nat) (typeName : String)
  /-- An edge lacks an end. -/
  | edgeWithoutEnds (index : Nat)
  /-- An edge has an end that is no node. -/
  | danglingEdge (id source target : String)
  /-- A node's lookback is no window. -/
  | invalidLookback (nodeId : String) (given : Json) (used : Int)
  /-- A producer's series has no name. -/
  | unnamedOutput (nodeId default : String)
  /-- No indicator has the name that a node gives. -/
  | unknownIndicator (given : Json) (nodeId : String)
  /-- Two producers' series have one name. -/
  | outputTaken (key nodeId : String)
  /-- An operand's parameter does not exist. -/
  | deletedParameter (nodeId parameterId : String) (label : Json)
  /-- A condition lacks an operand. -/
  | noOperand (nodeId : String) (side : Side)
  /-- A condition lacks an operator. -/
  | noOperator (nodeId : String)
  /-- There is no purchase. -/
  | noBuy
  /-- There are several purchases. -/
  | severalBuys (count : Nat) (used : String)
  /-- No condition leads to the purchase. -/
  | buyUnreached (id : String)
  /-- Several conditions are marked as the first one. -/
  | severalMasters (ids : List String) (used : String)
  /-- Several conditions could be the first one. -/
  | severalRoots (ids : List String) (used : String)
  /-- No condition could be the first one. -/
  | noRoot (used : String)
  /-- There are several blocks of exit conditions. -/
  | severalBlocks (used : String)
  /-- A block of exit conditions holds none. -/
  | blockWithoutConditions (id : String)
  /-- There is neither a block of exit conditions nor a sale. -/
  | noExit
  /-- There is no block of exit conditions, but there is a sale. -/
  | exitFromSells
  /-- A part of the strategy leads back to one of its nodes. -/
  | cycle (part : Part) (nodeId : String)
  /-- Entries of the price list are no bars. -/
  | droppedPrices (count : Nat)

namespace Warning

/-- The wording of a warning. -/
def message : Warning → String
  | noNodes => "Graph has no nodes."
  | noUsableNodes => "Graph has no usable nodes."
  | notANode typeName => s!"Skipped node payload of type {typeName}"
  | nodeWithoutId => "Skipped node without an id"
  | unknownNodeType id type =>
    "Skipped node '" ++ id.text ++ "' with unknown type '" ++ type.text ++ "'"
  | duplicateNode id => s!"Duplicate node id '{id}'; keeping the first occurrence"
  | notAnEdge index typeName => s!"Skipped edge #{index} of type {typeName}"
  | edgeWithoutEnds index => s!"Skipped edge #{index} without source/target"
  | danglingEdge id source target =>
    s!"Skipped edge '{id}': {source} -> {target} references a missing node"
  | invalidLookback nodeId given used =>
    s!"Indicator node '{nodeId}' has an invalid lookback " ++ given.literal ++ s!"; using {used}"
  | unnamedOutput nodeId default =>
    s!"Could not resolve an output parameter for node '{nodeId}'; using default '{default}'"
  | unknownIndicator given nodeId =>
    "Unknown indicator '" ++ given.text ++ s!"' on node '{nodeId}'; using rolling high"
  | outputTaken key nodeId =>
    s!"Output '{key}' of node '{nodeId}' is already produced; ignoring it"
  | deletedParameter nodeId parameterId label =>
    s!"If node '{nodeId}' references deleted parameter '{parameterId}' (" ++ label.text
      ++ "); operand is unbound"
  | noOperand nodeId side => s!"If node '{nodeId}' has no " ++ side.name ++ " operand"
  | noOperator nodeId => s!"If node '{nodeId}' has no operator"
  | noBuy => "Strategy is missing a 'Buy' node."
  | severalBuys count used =>
    s!"Strategy has {count} Buy nodes; entry logic is taken from '{used}'"
  | buyUnreached id =>
    s!"Buy node '{id}' is not reached from any If condition; strategy cannot enter"
  | severalMasters ids used =>
    "Several If nodes are marked as master (" ++ ", ".intercalate ids ++ s!"); using '{used}'"
  | severalRoots ids used =>
    "Ambiguous entry condition: root If nodes " ++ ", ".intercalate ids ++ s!"; using '{used}'"
  | noRoot used =>
    s!"Ambiguous entry condition: every If node has a parent condition; using '{used}'"
  | severalBlocks used => s!"Several 'In a trade' blocks found; using '{used}'"
  | blockWithoutConditions id => s!"'In a trade' block '{id}' contains no If conditions"
  | noExit =>
    "No 'In a trade' block or Sell node; open positions are only closed at the end of the series"
  | exitFromSells =>
    "No 'In a trade' block; exit logic is taken from the conditions upstream of Sell nodes"
  | cycle part nodeId =>
    "Cycle detected in the " ++ part.name
      ++ s!" graph at node '{nodeId}'; traversal stops at revisited nodes"
  | droppedPrices count => s!"Dropped {count} price entries without a usable price"

end Warning

end StrategyGraph
