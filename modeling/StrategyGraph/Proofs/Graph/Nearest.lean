import StrategyGraph.Proofs.Graph.Ancestors
import StrategyGraph.Proofs.Graph.Distance

/-!
# Nearest nodes

In a proper graph the searches along the edges and against them list the nearest nodes first.

* `Graph.IsDistanceTo` : how many edges lead from a node to a nearest one of given ids;
* `Graph.mem_ancestors_iff_leads` and `Graph.pairwise_ancestors` : **the ancestors of given ids are the
  nodes with a path to one of them, in the order of these distances**;
* `Graph.IsNearest` : a node of a kind that no other one of the kind is nearer than;
* `Graph.nearestOfKind?_eq_none_iff` and `Graph.isNearest_of_nearestOfKind?` : **the node that is found
  is such a node, and none is found only if there is none.**
-/

namespace StrategyGraph.Graph

open Search (Steps)

variable {g : Graph} {a b id : String} {starts : List String} {kind : NodeKind} {d n : Nat}

namespace Proper

variable (h : g.Proper)
include h

theorem follows_targets : Search.Follows g.targets g.ids = g.Leads := by
  ext a b
  constructor
  · rintro ⟨hb, -⟩
    exact mem_targets.1 hb
  · rintro ⟨e, he, rfl, rfl⟩
    exact ⟨mem_targets.2 ⟨e, he, rfl, rfl⟩, h.target e he⟩

theorem reaches_targets_iff : Search.Reaches g.targets g.ids a b ↔
    Relation.ReflTransGen g.Leads a b := by
  rw [← h.follows_targets]
  rfl

/-- A path between two ids has nodes at both ends if it has one at either end. -/
theorem mem_ids_iff_of_leads (hpath : Relation.ReflTransGen g.Leads a b) :
    a ∈ g.ids ↔ b ∈ g.ids := by
  induction hpath with
  | refl => exact Iff.rfl
  | tail _ hstep ih =>
    obtain ⟨e, he, rfl, rfl⟩ := hstep
    exact ih.trans (iff_of_true (h.source e he) (h.target e he))

theorem mem_ids_iff_of_steps (hsteps : Steps g.Leads n a b) : a ∈ g.ids ↔ b ∈ g.ids :=
  h.mem_ids_iff_of_leads (Search.exists_steps_iff.1 ⟨n, hsteps⟩)

end Proper

/-! ### Ancestors -/

/-- The shortest paths from a node to a nearest one of the given ids have that many edges. -/
def IsDistanceTo (g : Graph) (ends : List String) (a : String) (d : Nat) : Prop :=
  IsLeast {n | ∃ s ∈ ends, Steps g.Leads n a s} d

/-- A path leads from each of the nodes to one of the ids, and the first node is not farther away. -/
def NoFartherFrom (g : Graph) (ends : List String) (a b : String) : Prop :=
  ∃ d e, g.IsDistanceTo ends a d ∧ g.IsDistanceTo ends b e ∧ d ≤ e

theorem isDistanceTo_iff (h : g.Proper) (ha : a ∈ g.ids) :
    Search.IsDistance g.sources g.ids starts a d ↔ g.IsDistanceTo starts a d := by
  have hfollows : Search.Follows g.sources g.ids = Function.swap g.Leads := h.follows_sources
  have hlengths : Search.lengths g.sources g.ids starts a =
      {n | ∃ s ∈ starts, Steps g.Leads n a s} := by
    ext n
    simp only [Search.lengths, hfollows, Search.steps_swap_iff, Set.mem_ofPred_eq]
    refine exists_congr fun s => and_congr_right fun _ => and_iff_right_of_imp fun hsteps => ?_
    exact (h.mem_ids_iff_of_steps hsteps).1 ha
  rw [Search.IsDistance, hlengths, IsDistanceTo]

theorem mem_ids_of_mem_ancestors (ha : a ∈ g.ancestors starts) : a ∈ g.ids :=
  (Search.reaches_of_mem_rounds ha).1

/-- **The ancestors of given ids are the nodes with a path to one of them.** -/
theorem mem_ancestors_iff_leads (h : g.Proper) : a ∈ g.ancestors starts ↔
    a ∈ g.ids ∧ ∃ s ∈ starts, Relation.ReflTransGen g.Leads a s := by
  constructor
  · intro ha
    obtain ⟨s, hs, -, hpath⟩ := (mem_ancestors_iff h).1 ha
    exact ⟨mem_ids_of_mem_ancestors ha, s, hs, hpath⟩
  · rintro ⟨ha, s, hs, hpath⟩
    exact (mem_ancestors_iff h).2 ⟨s, hs, (h.mem_ids_iff_of_leads hpath).1 ha, hpath⟩

/-- **Ancestors are listed in the order of their distances.** -/
theorem pairwise_ancestors (h : g.Proper) (starts : List String) :
    (g.ancestors starts).Pairwise (g.NoFartherFrom starts) := by
  refine Search.pairwise_search.imp_of_mem fun {a b} ha hb hab => ?_
  obtain ⟨d, e, hd, he, hle⟩ := hab
  exact ⟨d, e, (isDistanceTo_iff h (mem_ids_of_mem_ancestors ha)).1 hd,
    (isDistanceTo_iff h (mem_ids_of_mem_ancestors hb)).1 he, hle⟩

/-! ### Nearest nodes of a kind -/

/-- The node is of the kind and not the one with the id. -/
structure IsOther (g : Graph) (id : String) (kind : NodeKind) (m : Node) : Prop where
  /-- The node belongs to the graph. -/
  mem : m ∈ g.nodes
  /-- Its kind. -/
  kind_eq : m.kind = kind
  /-- It is another node. -/
  id_ne : m.id ≠ id

/-- A path leads to another node of the kind. -/
def ReachesOther (g : Graph) (id : String) (kind : NodeKind) : Prop :=
  ∃ m, g.IsOther id kind m ∧ Relation.ReflTransGen g.Leads id m.id

/-- The node is another one of the kind, and a path leads to it that has no more edges than any path to
any other one of the kind. -/
structure IsNearest (g : Graph) (id : String) (kind : NodeKind) (m : Node) : Prop
    extends g.IsOther id kind m where
  /-- No path to another node of the kind is shorter. -/
  least : ∃ d, Steps g.Leads d id m.id ∧
    ∀ m', g.IsOther id kind m' → ∀ e, Steps g.Leads e id m'.id → d ≤ e

variable {m : Node}

theorem mem_reachable_iff (h : g.Proper) (hne : b ≠ id) :
    b ∈ g.reachable id ↔ Relation.ReflTransGen g.Leads id b := by
  rw [reachable, Search.mem_search_iff]
  simp only [List.mem_singleton, exists_eq_left, h.reaches_targets_iff]
  refine and_iff_right_of_imp fun hpath => ?_
  obtain ⟨c, ⟨e, he, rfl, -⟩, -⟩ := hpath.cases_head.resolve_left fun heq => hne heq.symm
  exact h.source e he

theorem mem_filterMap_reachable (h : g.Proper) :
    m ∈ (g.reachable id).filterMap g.node? ↔ m ∈ g.nodes ∧ m.id ∈ g.reachable id := by
  rw [List.mem_filterMap]
  constructor
  · rintro ⟨b, hb, hm⟩
    obtain ⟨hnode, rfl⟩ := (find?_key_iff h.nodup).1 hm
    exact ⟨hnode, hb⟩
  · rintro ⟨hnode, hreachable⟩
    exact ⟨m.id, hreachable, h.node?_id hnode⟩

/-- **No node of the kind is found only if none can be reached.** -/
theorem nearestOfKind?_eq_none_iff (h : g.Proper) :
    g.nearestOfKind? id kind = none ↔ ¬g.ReachesOther id kind := by
  rw [nearestOfKind?, List.find?_eq_none]
  constructor
  · rintro hnone ⟨m, hm, hpath⟩
    refine hnone m ((mem_filterMap_reachable h).2 ⟨hm.mem, (mem_reachable_iff h hm.id_ne).2 hpath⟩) ?_
    simpa using ⟨hm.id_ne, hm.kind_eq⟩
  · intro hnone m hm hother
    obtain ⟨hnode, hreachable⟩ := (mem_filterMap_reachable h).1 hm
    obtain ⟨hne, hkind⟩ : m.id ≠ id ∧ m.kind = kind := by simpa using hother
    exact hnone ⟨m, ⟨hnode, hkind, hne⟩, (mem_reachable_iff h hne).1 hreachable⟩

/-- The nodes that are reached stand in the order of their distances. -/
theorem pairwise_filterMap_reachable (h : g.Proper) (id : String) :
    ((g.reachable id).filterMap g.node?).Pairwise fun m m' =>
      Search.NoFarther g.targets g.ids [id] m.id m'.id := by
  refine List.pairwise_filterMap.2 (Search.pairwise_search.imp fun {a b} hab m hm m' hm' => ?_)
  obtain ⟨-, rfl⟩ := (find?_key_iff h.nodup).1 hm
  obtain ⟨-, rfl⟩ := (find?_key_iff h.nodup).1 hm'
  exact hab

/-- **The node that is found is a nearest one.** -/
theorem isNearest_of_nearestOfKind? (h : g.Proper) (hm : g.nearestOfKind? id kind = some m) :
    g.IsNearest id kind m := by
  obtain ⟨hp, before, after, hlist, hbefore⟩ := List.find?_eq_some_iff_append.1 hm
  obtain ⟨hne, hkind⟩ : m.id ≠ id ∧ m.kind = kind := by simpa using hp
  have hmem : ∀ m', m' ∈ before ++ m :: after ↔ m' ∈ g.nodes ∧ m'.id ∈ g.reachable id := by
    intro m'
    rw [← hlist, mem_filterMap_reachable h]
  have hsorted := pairwise_filterMap_reachable h id
  rw [hlist, List.pairwise_append, List.pairwise_cons] at hsorted
  obtain ⟨hnode, hreachable⟩ := (hmem m).1 (by simp)
  obtain ⟨d, hd⟩ := Search.exists_isDistance hreachable
  have hlengths : ∀ {b n}, n ∈ Search.lengths g.targets g.ids [id] b ↔
      id ∈ g.ids ∧ Steps g.Leads n id b := by
    intro b n
    simp [Search.lengths, h.follows_targets]
  obtain ⟨hid, hsteps⟩ := hlengths.1 hd.1
  refine ⟨⟨hnode, hkind, hne⟩, d, hsteps, fun m' hm' e hsteps' => ?_⟩
  -- A node of the kind is not listed before the one that is found, and those after it are not nearer.
  have hpath := Search.exists_steps_iff.1 ⟨e, hsteps'⟩
  have hlisted := (hmem m').2 ⟨hm'.mem, (mem_reachable_iff h hm'.id_ne).2 hpath⟩
  rcases List.mem_append.1 hlisted with hin | hin
  · have hnot := hbefore m' hin
    simp [hm'.id_ne, hm'.kind_eq] at hnot
  · rcases List.mem_cons.1 hin with rfl | hin
    · exact hd.2 (hlengths.2 ⟨hid, hsteps'⟩)
    · obtain ⟨d', e', hd', he', hle⟩ := hsorted.2.1.1 m' hin
      obtain rfl : d = d' := hd.unique hd'
      exact hle.trans (he'.2 (hlengths.2 ⟨hid, hsteps'⟩))

end StrategyGraph.Graph
