import StrategyGraph.Graph.Edge
import StrategyGraph.Graph.Node
import StrategyGraph.Graph.Search

/-!
# Graphs and their parts

A graph holds nodes with distinct ids and edges between them. A `SubGraph` is a part of it with the
conditions at which a walk may begin.

* `Graph.ancestors` lists the nodes from which given nodes can be reached, the nearest first, and
  `Graph.edgeIdsInto` the ids of the edges that were followed to find them;
* `Graph.nearestOfKind?` is a nearest node of a kind that can be reached from a node;
* `Graph.connected` lists the other nodes of a node's undirected component;
* `Graph.part` is the sub-graph of given nodes with all edges between them, or with those of given
  ids only.
-/

namespace StrategyGraph

/-- The nodes and edges of a strategy graph. -/
structure Graph where
  /-- The nodes. -/
  nodes : List Node
  /-- The edges. -/
  edges : List Edge

/-- A part of a graph, with the conditions at which a walk begins. -/
structure SubGraph where
  /-- The nodes. -/
  nodes : List Node := []
  /-- The edges. -/
  edges : List Edge := []
  /-- The ids of the nodes at which a walk begins, in the order in which they are tried. -/
  entryIds : List String := []

namespace Graph

variable (g : Graph)

/-- The ids of the nodes. -/
def ids : List String := g.nodes.map Node.id

/-- The node with an id. -/
def node? (id : String) : Option Node := g.nodes.find? fun n => n.id = id

/-- The ids of the nodes of a kind. -/
def ofKind (kind : NodeKind) : List Node := g.nodes.filter fun n => n.kind = kind

/-- The ids that the edges out of a node lead to. -/
def targets (id : String) : List String :=
  (g.edges.filter fun e => e.source = id).map Edge.target

/-- The ids that the edges into a node come from. -/
def sources (id : String) : List String :=
  (g.edges.filter fun e => e.target = id).map Edge.source

/-- The ids of the nodes from which one of the starts can be reached, the nearest first. -/
def ancestors (starts : List String) : List String := Search.search g.sources g.ids starts

/-- The ids of the edges that lead to one of the nodes with the given ids. -/
def edgeIdsInto (members : List String) : List String :=
  (g.edges.filter fun e => e.target ∈ members).map Edge.id

/-- The ids of the nodes that can be reached from a node, the nearest first. -/
def reachable (id : String) : List String := Search.search g.targets g.ids [id]

/-- A nearest node of a kind that can be reached from a node, other than the node itself. -/
def nearestOfKind? (id : String) (kind : NodeKind) : Option Node :=
  ((g.reachable id).filterMap g.node?).find? fun n => n.id ≠ id ∧ n.kind = kind

/-- The ids of the other nodes that are connected with a node, whatever way the edges point. -/
def connected (id : String) : List String :=
  (Search.search (fun v => g.targets v ++ g.sources v) g.ids [id]).filter (· ≠ id)

/-- The sub-graph of the nodes with the given ids and all edges between them; if `edgeIds` are given,
with no edges but those of these ids. -/
def part (members entryIds : List String) (edgeIds : Option (List String) := none) : SubGraph where
  nodes := g.nodes.filter fun n => n.id ∈ members
  edges := g.edges.filter fun e =>
    e.source ∈ members ∧ e.target ∈ members ∧ edgeIds.all fun ids => e.id ∈ ids
  entryIds

end Graph

namespace SubGraph

/-- A walk cannot begin. -/
def isEmpty (s : SubGraph) : Bool := s.entryIds.isEmpty

/-- The edges out of a node. -/
def outgoing (s : SubGraph) (id : String) : List Edge := s.edges.filter fun e => e.source = id

/-- A node on a directed cycle. -/
def cycle? (s : SubGraph) : Option String :=
  Search.cycle? (fun id => (s.outgoing id).map Edge.target) (s.nodes.map Node.id)

/-- The only node at which a walk may begin. -/
def entryId? (s : SubGraph) : Option String :=
  match s.entryIds with
  | [id] => some id
  | _ => none

/-- The sub-graph as a JSON object. -/
def toJson (s : SubGraph) : Json :=
  .object
    [("nodes", .array (s.nodes.map fun n =>
        .object [("id", .string n.id), ("type", .string n.kind.name)])),
     ("edges", .array (s.edges.map Edge.toJson)),
     ("entryNodeId", Json.ofOption .string s.entryId?),
     ("entryNodeIds", Json.strings s.entryIds)]

end SubGraph

end StrategyGraph
