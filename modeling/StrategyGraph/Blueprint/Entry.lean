import StrategyGraph.Graph.Basic

/-!
# The entry graph

The entry graph holds everything that leads to the first purchase, and one of its conditions, at
which a walk begins.

* `roots` are the conditions that no other condition leads to directly;
* `chooseEntry` picks the condition at which a walk begins;
* `entryGraph` is the sub-graph.
-/

namespace StrategyGraph

namespace Graph

variable (g : Graph)

/-- The conditions among the nodes with the given ids that none of the other ones leads to
directly, along an edge of one of the given ids. -/
def roots (conditionIds edgeIds : List String) : List String :=
  conditionIds.filter fun id =>
    (g.edges.filter fun e => e.target = id && edgeIds.contains e.id).all fun e =>
      e.source = id || !conditionIds.contains e.source

/-- The node with an id is marked as the first condition. -/
def isMaster (id : String) : Bool := (g.node? id).any Node.isMaster

/-- The condition at which a walk begins: the first one that is marked, the only one, or the first
root along edges of the given ids. Any other choice than the only possible one is reported. -/
def chooseEntry (first : String) (others edgeIds : List String) : String × List Warning :=
  let ids := first :: others
  match ids.filter g.isMaster with
  | [master] => (master, [])
  | master :: masters => (master, [.severalMasters (master :: masters) master])
  | [] =>
    if others.isEmpty then (first, [])
    else
      match g.roots ids edgeIds with
      | [root] => (root, [])
      | root :: roots => (root, [.severalRoots (root :: roots) root])
      | [] => (first, [.noRoot first])

/-- The purchases: nodes that buy, or if there are none, nodes whose data says so. -/
def buys : List Node :=
  let buys := g.ofKind .buy
  if buys.isEmpty then (g.ofKind .execute).filter fun n => n.action? = some .buy else buys

/-- The ids of the conditions among nodes, in their order. -/
def conditionsAmong (ids : List String) : List String :=
  ids.filter fun id => (g.node? id).any fun n => n.kind = .condition

/-- Everything that leads to a purchase. -/
def entryPart (buy : Node) : SubGraph × List Warning :=
  let members := g.ancestors [buy.id]
  let edgeIds := g.edgeIdsInto members
  match g.conditionsAmong members with
  | [] => (g.part members [] edgeIds, [.buyUnreached buy.id])
  | first :: others =>
    let (entry, warnings) := g.chooseEntry first others edgeIds
    (g.part members [entry] edgeIds, warnings)

/-- The entry graph: everything that leads to the first purchase. -/
def entryGraph : SubGraph × List Warning :=
  match g.buys with
  | [] => ({}, [.noBuy])
  | [buy] => g.entryPart buy
  | buy :: more =>
    let (part, warnings) := g.entryPart buy
    (part, .severalBuys (more.length + 1) buy.id :: warnings)

end Graph

end StrategyGraph
