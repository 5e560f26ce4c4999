import StrategyGraph.Blueprint.InTrade
import StrategyGraph.Proofs.Blueprint.Warnings
import StrategyGraph.Proofs.Graph.Roots

/-!
# What the in-trade graph holds

The in-trade graph of a blueprint belongs to the block of exit conditions, or leads to the sales.

* `Graph.inTradeBlock?` : the first block of exit conditions;
* `Graph.Belongs` : a node is connected with a block without a place, or lies inside one;
* `Graph.InBlock` and `Graph.ToSales` : all that belongs to a block, and all that leads to a sale;
* `Graph.mem_connected_iff` : what a search along and against the edges finds;
* `compile_inTrade` : **the in-trade graph of a blueprint is such a sub-graph.**
-/

namespace StrategyGraph

/-- The left upper corner of the node lies in the rectangle at `corner`. -/
def Node.LiesIn (corner size : Float × Float) (n : Node) : Prop :=
  ∃ x y, n.position = some (x, y) ∧ corner.1 ≤ x ∧ x ≤ corner.1 + size.1 ∧
    corner.2 ≤ y ∧ y ≤ corner.2 + size.2

theorem Node.isInside_iff {corner size : Float × Float} {n : Node} :
    n.isInside corner size = true ↔ n.LiesIn corner size := by
  rw [isInside, LiesIn]
  cases n.position with
  | none => simp
  | some place =>
    obtain ⟨x, y⟩ := place
    simp [and_assoc]

/-- The node sells, by its kind or as its data says. -/
def Node.Sells (n : Node) : Prop :=
  n.kind = .sell ∨ n.kind = .execute ∧ n.action? = some .sell

namespace Graph

/-- The first block of exit conditions. -/
def inTradeBlock? (g : Graph) : Option Node := g.nodes.find? Node.isInTradeBlock

/-- The node lies inside the block, or if the block has no place, it is connected with the block. -/
def Belongs (settings : Settings) (g : Graph) (block n : Node) : Prop :=
  match block.position with
  | some corner => n.LiesIn corner (block.size.getD (settings.blockWidth, settings.blockHeight))
  | none => Relation.EqvGen g.Leads block.id n.id

/-- The sub-graph is all of a graph that belongs to a block. -/
structure InBlock (settings : Settings) (g : Graph) (block : Node) (s : SubGraph) : Prop where
  /-- The nodes stand in the order of the graph. -/
  sublist : s.nodes.Sublist g.nodes
  /-- No node is repeated. -/
  nodup : s.ids.Nodup
  /-- The nodes are the other ones that belong to the block. -/
  mem_nodes : ∀ n, n ∈ s.nodes ↔ n ∈ g.nodes ∧ n.id ≠ block.id ∧ g.Belongs settings block n
  /-- The edges are those between two of the nodes. -/
  edges : s.edges = g.edges.filter fun e => e.source ∈ s.ids ∧ e.target ∈ s.ids
  /-- A walk begins at each condition. -/
  entryIds : s.entryIds = s.conditionIds

/-- The sub-graph is all of a graph that leads to sales. -/
structure ToSales (g : Graph) (s : SubGraph) : Prop where
  /-- The nodes stand in the order of the graph. -/
  sublist : s.nodes.Sublist g.nodes
  /-- No node is repeated. -/
  nodup : s.ids.Nodup
  /-- The nodes are those with a path to a sale. -/
  mem_nodes : ∀ n, n ∈ s.nodes ↔
    n ∈ g.nodes ∧ ∃ sale ∈ g.nodes, sale.Sells ∧ Relation.ReflTransGen g.Leads n.id sale.id
  /-- The edges are those into one of the nodes. -/
  edges : s.edges = g.edges.filter fun e => e.target ∈ s.ids
  /-- A walk begins at each condition to which no other one leads directly, or if there is no such
  condition, at each condition. -/
  entryIds : s.entryIds = if s.roots.isEmpty then s.conditionIds else s.roots

variable {settings : Settings} {g : Graph} {block n : Node} {a b : String}
  {members entryIds : List String} {edgeIds : Option (List String)}

/-! ### Connected nodes -/

/-- A search along and against the edges finds the undirected component. -/
theorem mem_connected_iff (h : g.Proper) (ha : a ∈ g.ids) :
    b ∈ g.connected a ↔ b ≠ a ∧ Relation.EqvGen g.Leads a b := by
  have hsteps : (fun x y => y ∈ g.targets x ++ g.sources x ∧ y ∈ g.ids) =
      Relation.SymmGen g.Leads := by
    ext x y
    have hends : y ∈ g.targets x ++ g.sources x ↔ g.Leads x y ∨ g.Leads y x := by
      rw [List.mem_append, mem_targets, mem_sources]
    constructor
    · rintro ⟨hy, -⟩
      exact hends.1 hy
    · intro hy
      refine ⟨hends.2 hy, ?_⟩
      rcases hy with ⟨e, he, -, rfl⟩ | ⟨e, he, rfl, -⟩
      · exact h.target e he
      · exact h.source e he
  have hreaches : Search.Reaches (fun v => g.targets v ++ g.sources v) g.ids a b ↔
      Relation.EqvGen g.Leads a b := by
    rw [Search.Reaches, hsteps, Relation.EqvGen.reflTransGen_symmGen]
  simp [connected, Search.mem_search_iff, hreaches, ha, and_comm]

/-! ### All that belongs to a block -/

theorem conditionsOf_eq :
    g.conditionsOf members = (g.part members entryIds edgeIds).conditionIds := by
  simp only [conditionsOf, ofKind, SubGraph.conditionIds, part, List.filter_filter, Bool.and_comm]

theorem mem_blockMembers (h : g.Proper) (hblock : block ∈ g.nodes) (hn : n ∈ g.nodes) :
    n.id ∈ g.blockMembers settings block ↔ n.id ≠ block.id ∧ g.Belongs settings block n := by
  rw [blockMembers, Belongs]
  cases block.position with
  | none => exact mem_connected_iff h (mem_ids.2 ⟨block, hblock, rfl⟩)
  | some corner =>
    dsimp only
    rw [← Node.isInside_iff]
    constructor
    · -- Members are listed by their ids, and a node is known by its id.
      intro hmem
      obtain ⟨m, hm, hid⟩ := List.mem_map.1 hmem
      obtain ⟨hm, hinside⟩ := List.mem_filter.1 hm
      obtain rfl : m = n := h.eq_of_id hm hn hid
      simpa using hinside
    · intro hinside
      exact List.mem_map_of_mem (List.mem_filter.2 ⟨hn, by simpa using hinside⟩)

theorem inBlock_blockPart (h : g.Proper) (hblock : block ∈ g.nodes) :
    g.InBlock settings block (g.blockPart settings block).1 where
  sublist := List.filter_sublist
  nodup := h.nodup.sublist (List.filter_sublist.map _)
  mem_nodes n := by
    rw [blockPart, mem_nodes_part]
    exact and_congr_right fun hn => mem_blockMembers h hblock hn
  edges := by
    refine List.filter_congr fun e he => decide_eq_decide.2 ?_
    rw [SubGraph.ids, blockPart, mem_ids_part (h.source e he), mem_ids_part (h.target e he)]
    simp
  entryIds := conditionsOf_eq

/-! ### All that leads to sales -/

theorem mem_sells : n ∈ g.sells ↔ n ∈ g.nodes ∧ n.Sells := by
  rw [sells, List.mem_filter, Node.Sells, decide_eq_true_eq, or_and_right]
  refine and_congr_right fun _ => or_congr_left (and_iff_left_of_imp fun hkind => ?_)
  rw [Node.action?, hkind]

theorem entryIds_sellPart (h : g.Proper) (sells : List Node) : (g.sellPart sells).entryIds =
    if (g.sellPart sells).roots.isEmpty then (g.sellPart sells).conditionIds
    else (g.sellPart sells).roots := by
  have hconditions : g.conditionsOf (g.ancestors (sells.map Node.id)) =
      (g.sellPart sells).conditionIds := conditionsOf_eq
  have hroots : g.roots (g.sellPart sells).conditionIds
      (g.edgeIdsInto (g.ancestors (sells.map Node.id))) = (g.sellPart sells).roots :=
    roots_partTo h fun id => Iff.rfl
  rw [← hroots, ← hconditions]
  rfl

theorem toSales_sellPart (h : g.Proper) : g.ToSales (g.sellPart g.sells) where
  sublist := List.filter_sublist
  nodup := h.nodup.sublist (List.filter_sublist.map _)
  mem_nodes n := by
    refine (mem_nodes_partTo h).trans (and_congr_right fun hn => ?_)
    constructor
    · rintro ⟨id, hid, -, hpath⟩
      obtain ⟨sale, hsale, rfl⟩ := List.mem_map.1 hid
      obtain ⟨hsale, hsells⟩ := mem_sells.1 hsale
      exact ⟨sale, hsale, hsells, hpath⟩
    · rintro ⟨sale, hsale, hsells, hpath⟩
      exact ⟨sale.id, List.mem_map_of_mem (mem_sells.2 ⟨hsale, hsells⟩),
        mem_ids.2 ⟨sale, hsale, rfl⟩, hpath⟩
  edges := by
    refine (edges_partTo h).trans (List.filter_congr fun e he => decide_eq_decide.2 ?_)
    exact (mem_ids_part (h.target e he)).symm
  entryIds := entryIds_sellPart h g.sells

theorem toSales_empty (h : g.sells = []) : g.ToSales {} where
  sublist := List.nil_sublist _
  nodup := List.nodup_nil
  mem_nodes n := by
    have hnone : ∀ sale ∈ g.nodes, ¬sale.Sells := fun sale hsale hsells => by
      have hmem := mem_sells.2 ⟨hsale, hsells⟩
      rw [h] at hmem
      cases hmem
    simpa using fun _ sale hsale hsells => absurd hsells (hnone sale hsale)
  edges := by simp [SubGraph.ids]
  entryIds := rfl

/-! ### The in-trade graph -/

theorem inTradeGraph_of_block (hblock : g.inTradeBlock? = some block) :
    (g.inTradeGraph settings).1 = (g.blockPart settings block).1 := by
  have hhead : (g.nodes.filter Node.isInTradeBlock).head? = some block :=
    List.head?_filter.trans hblock
  rw [inTradeGraph]
  split
  · next first hone =>
    obtain rfl : first = block := by simpa [hone] using hhead
    rfl
  · next first second more hmore =>
    obtain rfl : first = block := by simpa [hmore] using hhead
    rfl
  · next hnil => simp [hnil] at hhead

theorem inTradeGraph_of_no_block (settings : Settings) (hblock : g.inTradeBlock? = none) :
    g.sells = [] ∧ (g.inTradeGraph settings).1 = {} ∨
      (g.inTradeGraph settings).1 = g.sellPart g.sells := by
  have hnone : g.nodes.filter Node.isInTradeBlock = [] := by
    rw [← List.head?_eq_none_iff, List.head?_filter]
    exact hblock
  rw [inTradeGraph, hnone]
  dsimp only
  split
  · next hsells => exact .inl ⟨hsells, rfl⟩
  · exact .inr rfl

theorem toSales_inTradeGraph (h : g.Proper) (hblock : g.inTradeBlock? = none) :
    g.ToSales (g.inTradeGraph settings).1 := by
  rcases inTradeGraph_of_no_block settings hblock with ⟨hsells, hempty⟩ | hpart
  · rw [hempty]
    exact toSales_empty hsells
  · rw [hpart]
    exact toSales_sellPart h

end Graph

/-- **The in-trade graph of a blueprint is exactly what belongs to the first block of exit
conditions** of the graph that it is given, or without such a block, exactly what leads to a sale. -/
theorem compile_inTrade {settings : Settings} {nodes : Supply Node} {edges : Supply Edge}
    {parameters : Json} {b : Blueprint} (h : compile settings nodes edges parameters = .ok b) :
    ∃ g, Graph.Given nodes edges g ∧
      (∀ block, g.inTradeBlock? = some block → g.InBlock settings block b.inTrade) ∧
      (g.inTradeBlock? = none → g.ToSales b.inTrade) := by
  obtain ⟨g, hg, hmade⟩ := exists_madeOf h
  refine ⟨g, hg, fun block hblock => ?_, fun hblock => ?_⟩
  · rw [hmade.inTrade, Graph.inTradeGraph_of_block hblock]
    exact Graph.inBlock_blockPart hg.proper (List.mem_of_find?_eq_some hblock)
  · rw [hmade.inTrade]
    exact Graph.toSales_inTradeGraph hg.proper hblock

/-- Two blocks of exit conditions without a place. A condition and a note lead to the first one, and
another condition leads to the sale behind it. -/
def blockNodes : List Node :=
  [{ id := "note", kind := .record }, { id := "stop", kind := .condition },
   { id := "hold", kind := .block, data := [("inTrade", .bool true)] },
   { id := "leave", kind := .sell }, { id := "late", kind := .condition },
   { id := "spare", kind := .block, data := [("inTrade", .bool true)] }]

/-- The second block is not connected with the first one. -/
def blockEdges : List Edge :=
  [{ id := "a", source := "note", target := "stop" },
   { id := "b", source := "stop", target := "hold" },
   { id := "c", source := "hold", target := "leave" },
   { id := "d", source := "late", target := "leave" }]

theorem compile_inTrade_block : ∃ b,
    compile {} (.ready blockNodes) (.ready blockEdges) .null = .ok b ∧
    b.inTrade.ids = ["note", "stop", "leave", "late"] ∧ b.inTrade.entryIds = ["stop", "late"] ∧
    Graph.InBlock {} ⟨blockNodes, blockEdges⟩
      { id := "hold", kind := .block, data := [("inTrade", .bool true)] } b.inTrade := by
  obtain ⟨b, h, hp⟩ := exists_ok_of_any
    (x := compile {} (.ready blockNodes) (.ready blockEdges) .null)
    (p := fun b => b.inTrade.ids = ["note", "stop", "leave", "late"] ∧
      b.inTrade.entryIds = ["stop", "late"]) (by decide)
  obtain ⟨hids, hentries⟩ := of_decide_eq_true hp
  obtain ⟨g, hg, hblock, -⟩ := compile_inTrade h
  have hread : Graph.read (.ready blockNodes) (.ready blockEdges) = .ok ⟨blockNodes, blockEdges⟩ :=
    rfl
  obtain rfl : g = ⟨blockNodes, blockEdges⟩ := hg.eq_of_read hread
  exact ⟨b, h, hids, hentries, hblock _ rfl⟩

end StrategyGraph
