import Mathlib.Tactic.Set
import StrategyGraph.Proofs.Blueprint.Reading

/-!
# What the entry graph holds

The entry graph of a compiled blueprint is everything that leads to the first purchase.

* `Graph.firstBuy?` : the first purchase;
* `Graph.EntryTo` : the nodes with a path to a purchase, all edges into them, and one of their
  conditions to begin at, if they have one;
* `Graph.entryTo_entryPart` : what leads to a purchase is gathered as such a sub-graph;
* `compile_entryTo` : the entry graph of a blueprint is such a sub-graph.
-/

namespace StrategyGraph

namespace Graph

/-- The first purchase: the first node that buys, or else the first one whose data says so. -/
def firstBuy? (g : Graph) : Option Node :=
  (g.nodes.find? fun n => n.kind = .buy).or
    (g.nodes.find? fun n => n.kind = .execute ∧ n.action? = some .buy)

/-- The sub-graph is all of a graph that leads to a purchase. -/
structure EntryTo (g : Graph) (buy : Node) (s : SubGraph) : Prop where
  /-- The nodes stand in the order of the graph. -/
  sublist : s.nodes.Sublist g.nodes
  /-- No node is repeated. -/
  nodup : (s.nodes.map Node.id).Nodup
  /-- The nodes are those with a path to the purchase. -/
  mem_nodes : ∀ n, n ∈ s.nodes ↔ n ∈ g.nodes ∧ Relation.ReflTransGen g.Leads n.id buy.id
  /-- The edges are those into one of the nodes. -/
  edges : s.edges = g.edges.filter fun e => e.target ∈ s.nodes.map Node.id
  /-- If there are conditions, a walk begins at one of them. -/
  begins : (∃ n ∈ s.nodes, n.kind = .condition) →
    ∃ n ∈ s.nodes, n.kind = .condition ∧ s.entryIds = [n.id]
  /-- If there are none, a walk cannot begin. -/
  isEmpty : (∀ n ∈ s.nodes, n.kind ≠ .condition) → s.entryIds = []

variable {g : Graph} {buy : Node} {id : String} {ids edgeIds : List String}

/-! ### The purchase and the condition to begin at -/

theorem head?_buys : g.buys.head? = g.firstBuy? := by
  have hbuy : (g.ofKind .buy).head? = g.nodes.find? fun n => n.kind = .buy := List.head?_filter
  rw [buys, firstBuy?, ← hbuy]
  -- Nodes whose data says that they buy count only where no node buys by its kind.
  cases hkind : g.ofKind .buy with
  | nil =>
    dsimp only [List.isEmpty_nil, List.head?_nil]
    rw [if_pos rfl, Option.none_or, List.head?_filter, ofKind, List.find?_filter]
    simp
  | cons n ns => simp

/-- Further purchases change nothing but the warnings. -/
theorem entryGraph_fst (h : g.firstBuy? = some buy) : g.entryGraph.1 = (g.entryPart buy).1 := by
  rw [← head?_buys] at h
  rw [entryGraph]
  split
  · next hnil => simp [hnil] at h
  · next first hone =>
    obtain rfl : first = buy := by simpa [hone] using h
    rfl
  · next first more _ hmore =>
    obtain rfl : first = buy := by simpa [hmore] using h
    rfl

/-- The entry graph is what leads to a purchase, with the warnings of that, or it is empty. -/
theorem entryGraph_cases (g : Graph) : g.entryGraph.1 = {} ∨ ∃ buy,
    g.entryGraph.1 = (g.entryPart buy).1 ∧ ∀ w ∈ (g.entryPart buy).2, w ∈ g.entryGraph.2 := by
  rw [entryGraph]
  split
  · exact .inl rfl
  · next buy _ => exact .inr ⟨buy, rfl, fun w hw => hw⟩
  · next buy more _ _ => exact .inr ⟨buy, rfl, fun w hw => List.mem_cons_of_mem _ hw⟩

/-- Marked, alone or a root: the condition to begin at is one of the given ones. -/
theorem chooseEntry_mem (first : String) (others : List String) :
    (g.chooseEntry first others edgeIds).1 ∈ first :: others := by
  have hfilter : ∀ (p : String → Bool) (c : String) (cs : List String),
      (first :: others).filter p = c :: cs → c ∈ first :: others := fun p c cs h =>
    (List.mem_filter.1 (h ▸ List.mem_cons_self)).1
  rw [chooseEntry]
  split
  · next master hmaster => exact hfilter _ _ _ hmaster
  · next master masters _ hmasters => exact hfilter _ _ _ hmasters
  · split
    · exact List.mem_cons_self
    · split
      · next root hroot => exact hfilter _ _ _ hroot
      · next root roots _ hroots => exact hfilter _ _ _ hroots
      · exact List.mem_cons_self

theorem mem_conditionsAmong (h : g.Proper) : id ∈ g.conditionsAmong ids ↔
    id ∈ ids ∧ ∃ n ∈ g.nodes, n.id = id ∧ n.kind = .condition := by
  rw [conditionsAmong, List.mem_filter, Option.any_eq_true]
  refine and_congr_right fun _ => ?_
  constructor
  · rintro ⟨n, hn, hkind⟩
    exact ⟨n, List.mem_of_find?_eq_some hn, by simpa using List.find?_some hn, by simpa using hkind⟩
  · rintro ⟨n, hn, rfl, hkind⟩
    exact ⟨n, h.node?_id hn, by simpa using hkind⟩

/-! ### Everything that leads to a purchase -/

/-- What is gathered for a purchase: its ancestors, the edges followed to them, and at most one
entry. -/
theorem entryPart_fst (g : Graph) (buy : Node) : ∃ entryIds, (g.entryPart buy).1 =
      g.part (g.ancestors [buy.id]) entryIds (g.edgeIdsInto (g.ancestors [buy.id])) ∧
    (entryIds = [] ∧ g.conditionsAmong (g.ancestors [buy.id]) = [] ∨
      ∃ id ∈ g.conditionsAmong (g.ancestors [buy.id]), entryIds = [id]) := by
  rw [entryPart]
  dsimp only
  split
  · next hnone => exact ⟨[], rfl, .inl ⟨rfl, hnone⟩⟩
  · next first others hsome =>
    exact ⟨_, rfl, .inr ⟨_, hsome ▸ chooseEntry_mem first others, rfl⟩⟩

theorem entryTo_entryPart (h : g.Proper) (hbuy : buy ∈ g.nodes) :
    g.EntryTo buy (g.entryPart buy).1 := by
  obtain ⟨entryIds, hpart, hentry⟩ := entryPart_fst g buy
  rw [hpart]
  set members := g.ancestors [buy.id] with hmembers
  have hmember : ∀ a, a ∈ members ↔ Relation.ReflTransGen g.Leads a buy.id := by
    have hid : buy.id ∈ g.ids := mem_ids.2 ⟨buy, hbuy, rfl⟩
    simp [hmembers, mem_ancestors_iff h, hid]
  have hcondition : ∀ n ∈ (g.part members entryIds (g.edgeIdsInto members)).nodes,
      n.kind = .condition → n.id ∈ g.conditionsAmong members := fun n hn hkind =>
    (mem_conditionsAmong h).2 ⟨(mem_nodes_part.1 hn).2, n, (mem_nodes_part.1 hn).1, rfl, hkind⟩
  refine
    { sublist := List.filter_sublist
      nodup := h.nodup.sublist (List.filter_sublist.map _)
      mem_nodes := fun n => by rw [mem_nodes_part, hmember]
      edges := ?_
      begins := ?_
      isEmpty := ?_ }
  · rw [hmembers, edges_part_ancestors h]
    exact List.filter_congr fun e he => decide_eq_decide.2 (mem_ids_part (h.target e he)).symm
  · rintro ⟨n, hn, hkind⟩
    rcases hentry with ⟨-, hnone⟩ | ⟨id, hid, rfl⟩
    · exact absurd (hcondition n hn hkind) (hnone ▸ List.not_mem_nil)
    · obtain ⟨hid, m, hm, rfl, hm'⟩ := (mem_conditionsAmong h).1 hid
      exact ⟨m, mem_nodes_part.2 ⟨hm, hid⟩, hm', rfl⟩
  · intro hnone
    rcases hentry with ⟨rfl, -⟩ | ⟨id, hid, rfl⟩
    · rfl
    · obtain ⟨hid, m, hm, rfl, hm'⟩ := (mem_conditionsAmong h).1 hid
      exact absurd hm' (hnone m (mem_nodes_part.2 ⟨hm, hid⟩))

end Graph

/-- **The entry graph of a blueprint is exactly what leads to the first purchase** of the graph that
was read. -/
theorem compile_entryTo {settings : Settings} {nodes : Supply Node} {edges : Supply Edge}
    {parameters : Json} {b : Blueprint} {g : Graph} {buy : Node}
    (h : compile settings nodes edges parameters = .ok b) (hread : Graph.read nodes edges = .ok g)
    (hbuy : g.firstBuy? = some buy) : g.EntryTo buy b.entry := by
  have hmem : buy ∈ g.nodes := by
    rcases Option.or_eq_some_iff.1 hbuy with hfirst | ⟨-, hfirst⟩
    · exact List.mem_of_find?_eq_some hfirst
    · exact List.mem_of_find?_eq_some hfirst
  obtain ⟨warnings, hgraph⟩ := exists_ofGraph_of_compile h hread (List.ne_nil_of_mem hmem)
  rw [(Blueprint.parts_ofGraph hgraph).1, Graph.entryGraph_fst hbuy]
  exact Graph.entryTo_entryPart (Graph.read_proper hread) hmem

/-- Two conditions that lead to each other, and one of them to a purchase and to a sale. -/
def ringNodes : List Node :=
  [{ id := "guard", kind := .condition }, { id := "check", kind := .condition },
   { id := "enter", kind := .buy }, { id := "leave", kind := .sell }]

/-- The edges of the ring share an id with the edge to the sale. -/
def ringEdges : List Edge :=
  [{ id := "e", source := "guard", target := "check" },
   { id := "e", source := "check", target := "guard" },
   { id := "e", source := "check", target := "leave" },
   { id := "f", source := "check", target := "enter" }]

theorem compile_entryTo_ring : ∃ b, compile {} (.ready ringNodes) (.ready ringEdges) .null = .ok b ∧
    b.entry.edges.length = 3 ∧ b.entry.entryIds = ["check"] ∧
    Graph.EntryTo ⟨ringNodes, ringEdges⟩ { id := "enter", kind := .buy } b.entry := by
  obtain ⟨b, h, hp⟩ := exists_ok_of_any
    (x := compile {} (.ready ringNodes) (.ready ringEdges) .null)
    (p := fun b => b.entry.edges.length = 3 ∧ b.entry.entryIds = ["check"]) (by decide)
  obtain ⟨hlength, hentry⟩ := of_decide_eq_true hp
  have hread : Graph.read (.ready ringNodes) (.ready ringEdges) = .ok ⟨ringNodes, ringEdges⟩ := rfl
  exact ⟨b, h, hlength, hentry, compile_entryTo h hread rfl⟩

end StrategyGraph
