import StrategyGraph.Blueprint.Entry
import StrategyGraph.Blueprint.InTrade

/-!
# Outlines of graphs

Of the data of its nodes, the parts of a graph depend on few fields only. The outline of a graph
keeps these, and forming the parts of a graph commutes with taking outlines.

* `Node.outline` : a node with nothing else in its data;
* `Graph.outline` and `SubGraph.outline` : graphs and sub-graphs of such nodes, which keep the
  `SubGraph.shape` and the cycles;
* `Graph.entryGraph_outline` and `Graph.inTradeGraph_outline` : **the parts of an outline are the
  outlines of the parts**, with the same warnings;
* `Graph.nearestOfKind?_outline` : the same holds for a nearest node of a kind.
-/

namespace StrategyGraph

theorem Fields.get?_cons (key other : String) (value : Json) (fields : Fields) :
    Fields.get? ((other, value) :: fields) key =
      if key = other then some value else fields.get? key := by
  rw [Fields.get?, List.lookup_cons]
  by_cases h : key = other
  · simp [h]
  · rw [beq_eq_false_iff_ne.2 h, if_neg h]
    rfl

/-! ### Nodes -/

namespace Node

/-- The fields of the data that are kept. -/
def outlineKeys : List String :=
  ["label", "isMaster", "action", "inTrade", "parameterName", "outputParamName"]

/-- The node with these fields of its data only. -/
def outline (n : Node) : Node :=
  { n with data := outlineKeys.map fun key => (key, n.data.get key) }

variable {n : Node} {key : String}

theorem get_outline (h : key ∈ outlineKeys) : n.outline.data.get key = n.data.get key := by
  rw [outline, Fields.get]
  dsimp only
  generalize outlineKeys = keys at h
  induction keys with
  | nil => cases h
  | cons other keys ih =>
    by_cases hkey : key = other
    · simp [Fields.get?_cons, hkey]
    · rw [List.map_cons, Fields.get?_cons, if_neg hkey]
      exact ih ((List.mem_cons.1 h).resolve_left hkey)

theorem outline_congr {n' : Node} (hsame : n' = { n with data := n'.data })
    (hdata : ∀ key ∈ outlineKeys, n'.data.get key = n.data.get key) : n'.outline = n.outline := by
  rw [outline, outline, List.map_congr_left fun key hkey => by rw [hdata key hkey], hsame]

@[simp] theorem id_outline : n.outline.id = n.id := rfl

@[simp] theorem kind_outline : n.outline.kind = n.kind := rfl

@[simp] theorem position_outline : n.outline.position = n.position := rfl

@[simp] theorem size_outline : n.outline.size = n.size := rfl

@[simp] theorem label_outline : n.outline.label = n.label := by
  rw [label, get_outline (by simp [outlineKeys]), label]

@[simp] theorem isMaster_outline : n.outline.isMaster = n.isMaster := by
  rw [isMaster, get_outline (by simp [outlineKeys]), isMaster]

@[simp] theorem isMarkedInTrade_outline : n.outline.isMarkedInTrade = n.isMarkedInTrade := by
  rw [isMarkedInTrade, get_outline (by simp [outlineKeys]), isMarkedInTrade]

@[simp] theorem action?_outline : n.outline.action? = n.action? := by
  rw [action?, get_outline (by simp [outlineKeys]), kind_outline, action?]

@[simp] theorem isInTradeBlock_outline : n.outline.isInTradeBlock = n.isInTradeBlock := by
  rw [isInTradeBlock, kind_outline, label_outline, isMarkedInTrade_outline, isInTradeBlock]

@[simp] theorem isInside_outline {corner size : Float × Float} :
    n.outline.isInside corner size = n.isInside corner size := by
  simp [isInside]

end Node

/-! ### Sub-graphs -/

namespace SubGraph

/-- The sub-graph of the outlines of the nodes. -/
def outline (s : SubGraph) : SubGraph := { s with nodes := s.nodes.map Node.outline }

/-- The shape: the ids, kinds and actions of the nodes, the edges, and where a walk begins. -/
def shape (s : SubGraph) :
    List (String × NodeKind × Option Direction) × List Edge × List String :=
  (s.nodes.map fun n => (n.id, n.kind, n.action?), s.edges, s.entryIds)

theorem shape_outline (s : SubGraph) : s.outline.shape = s.shape := by
  simp [shape, outline, Function.comp_def]

theorem shape_eq_of_outline {s s' : SubGraph} (h : s'.outline = s.outline) :
    s'.shape = s.shape := by
  rw [← shape_outline, h, shape_outline]

theorem cycle?_outline (s : SubGraph) : s.outline.cycle? = s.cycle? := by
  simp [cycle?, outline, outgoing, Function.comp_def]

end SubGraph

/-! ### Graphs -/

namespace Graph

/-- The graph of the outlines of the nodes. -/
def outline (g : Graph) : Graph := ⟨g.nodes.map Node.outline, g.edges⟩

variable (g : Graph) (id : String) (members entryIds ids edgeIds : List String) (kind : NodeKind)

@[simp] theorem nodes_outline : g.outline.nodes = g.nodes.map Node.outline := rfl

@[simp] theorem edges_outline : g.outline.edges = g.edges := rfl

@[simp] theorem ids_outline : g.outline.ids = g.ids := by simp [Graph.ids, Function.comp_def]

@[simp] theorem targets_outline : g.outline.targets = g.targets := rfl

@[simp] theorem sources_outline : g.outline.sources = g.sources := rfl

@[simp] theorem edgeIdsInto_outline : g.outline.edgeIdsInto = g.edgeIdsInto := rfl

@[simp] theorem roots_outline : g.outline.roots = g.roots := rfl

@[simp] theorem ancestors_outline : g.outline.ancestors = g.ancestors := by
  funext starts
  simp [ancestors]

@[simp] theorem connected_outline : g.outline.connected = g.connected := by
  funext id
  simp [connected]

@[simp] theorem node?_outline : g.outline.node? id = (g.node? id).map Node.outline :=
  List.find?_map

@[simp] theorem ofKind_outline : g.outline.ofKind kind = (g.ofKind kind).map Node.outline :=
  List.filter_map

@[simp] theorem part_outline (edgeIds : Option (List String)) :
    g.outline.part members entryIds edgeIds = (g.part members entryIds edgeIds).outline :=
  congrArg (fun nodes => SubGraph.mk nodes _ entryIds) List.filter_map

theorem nearestOfKind?_outline :
    g.outline.nearestOfKind? id kind = (g.nearestOfKind? id kind).map Node.outline := by
  have hreachable : g.outline.reachable id = g.reachable id := by simp [reachable]
  have hnode : g.outline.node? = fun id => (g.node? id).map Node.outline := by
    funext id
    exact g.node?_outline id
  rw [nearestOfKind?, hreachable, hnode, ← List.map_filterMap, List.find?_map]
  rfl

/-! ### The entry graph -/

@[simp] theorem isMaster_outline : g.outline.isMaster = g.isMaster := by
  funext id
  rw [isMaster, node?_outline, isMaster]
  cases g.node? id with
  | none => rfl
  | some n => exact Node.isMaster_outline

@[simp] theorem chooseEntry_outline (first : String) (others : List String) :
    g.outline.chooseEntry first others edgeIds = g.chooseEntry first others edgeIds := by
  rw [chooseEntry, isMaster_outline, roots_outline, chooseEntry]

@[simp] theorem conditionsAmong_outline :
    g.outline.conditionsAmong ids = g.conditionsAmong ids := by
  refine List.filter_congr fun id _ => ?_
  rw [node?_outline]
  cases g.node? id with
  | none => rfl
  | some n => rfl

@[simp] theorem buys_outline : g.outline.buys = g.buys.map Node.outline := by
  simp only [buys, ofKind_outline, List.isEmpty_map]
  split
  · simp [List.filter_map, Function.comp_def]
  · rfl

theorem entryPart_outline (buy : Node) :
    g.outline.entryPart buy.outline = ((g.entryPart buy).1.outline, (g.entryPart buy).2) := by
  simp only [entryPart, Node.id_outline, ancestors_outline, edgeIdsInto_outline,
    conditionsAmong_outline, chooseEntry_outline, part_outline]
  split <;> rfl

/-- **The entry graph of an outline is the outline of the entry graph.** -/
theorem entryGraph_outline : g.outline.entryGraph = (g.entryGraph.1.outline, g.entryGraph.2) := by
  rw [entryGraph, buys_outline, entryGraph]
  cases g.buys with
  | nil => rfl
  | cons buy more =>
    cases more with
    | nil => exact entryPart_outline g buy
    | cons other more => simp [entryPart_outline]

/-! ### The in-trade graph -/

variable (settings : Settings)

@[simp] theorem conditionsOf_outline : g.outline.conditionsOf members = g.conditionsOf members := by
  rw [conditionsOf, ofKind_outline, List.filter_map, List.map_map]
  rfl

theorem blockMembers_outline (block : Node) :
    g.outline.blockMembers settings block.outline = g.blockMembers settings block := by
  simp only [blockMembers, Node.position_outline, Node.size_outline, Node.id_outline,
    connected_outline]
  split
  · rfl
  · rw [nodes_outline, List.filter_map, List.map_map]
    simp only [Function.comp_def, Node.isInside_outline]
    rfl

theorem blockPart_outline (block : Node) : g.outline.blockPart settings block.outline =
    ((g.blockPart settings block).1.outline, (g.blockPart settings block).2) := by
  simp [blockPart, blockMembers_outline]

theorem sellPart_outline (sells : List Node) :
    g.outline.sellPart (sells.map Node.outline) = (g.sellPart sells).outline := by
  simp [sellPart, Function.comp_def]

@[simp] theorem sells_outline : g.outline.sells = g.sells.map Node.outline := by
  rw [sells, nodes_outline, List.filter_map]
  simp only [Function.comp_def, Node.action?_outline]
  rfl

/-- **The in-trade graph of an outline is the outline of the in-trade graph.** -/
theorem inTradeGraph_outline : g.outline.inTradeGraph settings =
    ((g.inTradeGraph settings).1.outline, (g.inTradeGraph settings).2) := by
  have hblocks : g.outline.nodes.filter Node.isInTradeBlock =
      (g.nodes.filter Node.isInTradeBlock).map Node.outline := by
    simp [List.filter_map, Function.comp_def]
  rw [inTradeGraph, hblocks, sells_outline, inTradeGraph]
  cases g.nodes.filter Node.isInTradeBlock with
  | nil =>
    cases g.sells with
    | nil => rfl
    | cons sale more =>
      exact congrArg (fun s => (s, [Warning.exitFromSells])) (sellPart_outline g (sale :: more))
  | cons block more =>
    cases more with
    | nil => exact blockPart_outline g settings block
    | cons other more => simp [blockPart_outline]

end Graph

end StrategyGraph
