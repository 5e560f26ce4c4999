import StrategyGraph.Blueprint.Entry
import StrategyGraph.Settings

/-!
# The in-trade graph

The in-trade graph holds the conditions that end a trade. They are the nodes inside the block "In a
trade", or connected with it when the block has no place; without such a block, everything that
leads to a sale.
-/

namespace StrategyGraph

namespace Node

/-- The label of the block of exit conditions. -/
def inTradeLabel : String := "in a trade"

/-- The data marks the node as the block of exit conditions. -/
def isMarkedInTrade (n : Node) : Bool :=
  match n.data.get "inTrade" with
  | .bool b => b
  | _ => false

/-- The node is a block of exit conditions. -/
def isInTradeBlock (n : Node) : Bool :=
  n.kind = .block && (Text.lower (Text.strip n.label) = inTradeLabel || n.isMarkedInTrade)

/-- The left upper corner of the node lies in the rectangle at `corner`. -/
def isInside (corner size : Float × Float) (n : Node) : Bool :=
  match n.position with
  | none => false
  | some (x, y) =>
    corner.1 ≤ x && x ≤ corner.1 + size.1 && corner.2 ≤ y && y ≤ corner.2 + size.2

end Node

namespace Graph

variable (settings : Settings) (g : Graph)

/-- The ids of the nodes that belong to a block. -/
def blockMembers (block : Node) : List String :=
  match block.position with
  | none => g.connected block.id
  | some corner =>
    let size := block.size.getD (settings.blockWidth, settings.blockHeight)
    (g.nodes.filter fun n => n.id ≠ block.id && n.isInside corner size).map Node.id

/-- The ids of the conditions among the members, in the order of the nodes. -/
def conditionsOf (members : List String) : List String :=
  ((g.ofKind .condition).filter fun n => n.id ∈ members).map Node.id

/-- The part of a graph that belongs to a block; each of its conditions may end a trade. -/
def blockPart (block : Node) : SubGraph × List Warning :=
  let members := g.blockMembers settings block
  let entries := g.conditionsOf members
  (g.part members entries, if entries.isEmpty then [.blockWithoutConditions block.id] else [])

/-- Everything that leads to sales, with the conditions that no other one leads to. -/
def sellPart (sells : List Node) : SubGraph :=
  let members := g.ancestors (sells.map Node.id)
  let edgeIds := g.edgeIdsInto members
  let conditions := g.conditionsOf members
  let roots := g.roots conditions edgeIds
  g.part members (if roots.isEmpty then conditions else roots) edgeIds

/-- The sales. -/
def sells : List Node :=
  g.nodes.filter fun n => (n.kind = .sell ∨ n.kind = .execute) ∧ n.action? = some .sell

/-- The in-trade graph. -/
def inTradeGraph : SubGraph × List Warning :=
  match g.nodes.filter Node.isInTradeBlock with
  | [block] => g.blockPart settings block
  | block :: _ :: _ =>
    let (part, warnings) := g.blockPart settings block
    (part, .severalBlocks block.id :: warnings)
  | [] =>
    match g.sells with
    | [] => ({}, [.noExit])
    | sells => (g.sellPart sells, [.exitFromSells])

end Graph

end StrategyGraph
