import StrategyGraph.Graph.Basic
import StrategyGraph.Proofs.Graph.Search
import StrategyGraph.Proofs.Keyed

/-!
# What leads to given nodes

In a graph whose nodes have distinct ids and whose edges lie between its nodes, the ancestors of
given nodes are the nodes with a path to one of them.

* `Graph.Proper` : such graphs;
* `Graph.Leads` : an edge leads from an id to an id;
* `Graph.mem_ancestors_iff` : the ancestors of given nodes;
* `Graph.edges_part_ancestors` : the part of a graph that its ancestors make up keeps every edge
  into one of them and no other edge, although edges are picked by ids that they may share.
-/

namespace StrategyGraph.Graph

/-- The nodes have distinct ids, and every edge lies between two of them. -/
structure Proper (g : Graph) : Prop where
  /-- No two nodes share an id. -/
  nodup : g.ids.Nodup
  /-- The source of an edge is a node. -/
  source : ∀ e ∈ g.edges, e.source ∈ g.ids
  /-- The target of an edge is a node. -/
  target : ∀ e ∈ g.edges, e.target ∈ g.ids

/-- An edge leads from the one id to the other. -/
def Leads (g : Graph) (a b : String) : Prop := ∃ e ∈ g.edges, e.source = a ∧ e.target = b

variable {g : Graph} {a b id : String} {starts : List String} {n : Node}

theorem mem_ids : id ∈ g.ids ↔ ∃ n ∈ g.nodes, n.id = id := List.mem_map

theorem mem_sources : a ∈ g.sources b ↔ g.Leads a b :=
  mem_map_filter_key.trans (exists_congr fun _ => and_congr_right' and_comm)

theorem mem_targets : b ∈ g.targets a ↔ g.Leads a b := mem_map_filter_key

namespace Proper

variable (h : g.Proper)
include h

theorem node?_id (hn : n ∈ g.nodes) : g.node? n.id = some n :=
  (find?_key_iff h.nodup).2 ⟨hn, rfl⟩

theorem eq_of_id {m : Node} (hm : m ∈ g.nodes) (hn : n ∈ g.nodes) (hid : m.id = n.id) : m = n := by
  have hfound := h.node?_id hm
  rw [hid, h.node?_id hn] at hfound
  exact (Option.some.inj hfound).symm

/-- A step against the edges is a step along them, turned round. -/
theorem follows_sources :
    (fun x y => y ∈ g.sources x ∧ y ∈ g.ids) = Function.swap g.Leads := by
  ext x y
  constructor
  · rintro ⟨hy, -⟩
    exact mem_sources.1 hy
  · rintro ⟨e, he, rfl, rfl⟩
    exact ⟨mem_sources.2 ⟨e, he, rfl, rfl⟩, h.source e he⟩

/-- A search against the edges follows the paths to a node backwards. -/
theorem reaches_sources_iff : Search.Reaches g.sources g.ids b a ↔
    Relation.ReflTransGen g.Leads a b := by
  rw [Search.Reaches, h.follows_sources, Relation.reflTransGen_swap]

end Proper

/-- **The ancestors of given nodes are the nodes with a path to one of them.** -/
theorem mem_ancestors_iff (h : g.Proper) : a ∈ g.ancestors starts ↔
    ∃ s ∈ starts, s ∈ g.ids ∧ Relation.ReflTransGen g.Leads a s := by
  simp only [ancestors, Search.mem_search_iff, h.reaches_sources_iff]

theorem Proper.source_mem_ancestors (h : g.Proper) {e : Edge} (he : e ∈ g.edges)
    (htarget : e.target ∈ g.ancestors starts) : e.source ∈ g.ancestors starts := by
  obtain ⟨s, hs, hid, hpath⟩ := (mem_ancestors_iff h).1 htarget
  exact (mem_ancestors_iff h).2 ⟨s, hs, hid, .head ⟨e, he, rfl, rfl⟩ hpath⟩

theorem mem_nodes_part {members entryIds : List String} {edgeIds : Option (List String)} :
    n ∈ (g.part members entryIds edgeIds).nodes ↔ n ∈ g.nodes ∧ n.id ∈ members := by
  simp [part]

theorem mem_ids_part {members entryIds : List String} {edgeIds : Option (List String)}
    (hid : id ∈ g.ids) :
    id ∈ (g.part members entryIds edgeIds).nodes.map Node.id ↔ id ∈ members := by
  constructor
  · intro hpart
    obtain ⟨n, hn, rfl⟩ := List.mem_map.1 hpart
    exact (mem_nodes_part.1 hn).2
  · intro hmember
    obtain ⟨n, hn, rfl⟩ := mem_ids.1 hid
    exact List.mem_map_of_mem (mem_nodes_part.2 ⟨hn, hmember⟩)

/-- An edge into an ancestor is kept, for its id is among those followed. Of the other edges none
is, whatever their ids: both ends of a kept edge are ancestors. -/
theorem edges_part_ancestors (h : g.Proper) (entryIds : List String) :
    (g.part (g.ancestors starts) entryIds (g.edgeIdsInto (g.ancestors starts))).edges =
      g.edges.filter fun e => e.target ∈ g.ancestors starts := by
  refine List.filter_congr fun e he => ?_
  rw [decide_eq_decide]
  constructor
  · rintro ⟨-, htarget, -⟩
    exact htarget
  · intro htarget
    refine ⟨h.source_mem_ancestors he htarget, htarget, ?_⟩
    have hid : e.id ∈ g.edgeIdsInto (g.ancestors starts) :=
      List.mem_map_of_mem (List.mem_filter.2 ⟨he, by simpa using htarget⟩)
    simpa using hid

end StrategyGraph.Graph
