import Mathlib.Order.WellFoundedSet
import StrategyGraph.Blueprint.Entry
import StrategyGraph.Proofs.Graph.Ancestors
import StrategyGraph.Proofs.Graph.Cycle

/-!
# Roots among conditions

In a sub-graph without cycles, edges that join conditions lead to each condition from a root: a
condition to which no other one leads directly.

* `SubGraph.conditionIds` and `SubGraph.roots` : the conditions of a sub-graph and its roots;
* `SubGraph.Joins` : an edge joins two conditions;
* `SubGraph.exists_root` : the descent from a condition to a root;
* `Graph.partTo` : the part of a graph that leads to given nodes;
* `Graph.roots_partTo` : the graph picks the edges to look at by their ids, which edges may share, and
  finds the roots of the part nevertheless.
-/

namespace StrategyGraph

namespace SubGraph

/-- The ids of the conditions, in the order of the nodes. -/
def conditionIds (s : SubGraph) : List String :=
  (s.nodes.filter fun n => n.kind = .condition).map Node.id

/-- No other condition leads directly to the node with an id. -/
def IsRoot (s : SubGraph) (id : String) : Prop :=
  ∀ e ∈ s.edges, e.target = id → e.source ∈ s.conditionIds → e.source = id

instance (s : SubGraph) : DecidablePred s.IsRoot := fun id =>
  inferInstanceAs (Decidable (∀ e ∈ s.edges, e.target = id → e.source ∈ s.conditionIds →
    e.source = id))

/-- The ids of the conditions to which no other one leads directly, in the order of the nodes. -/
def roots (s : SubGraph) : List String := s.conditionIds.filter s.IsRoot

/-- An edge leads from a condition to a condition. -/
def Joins (s : SubGraph) (a b : String) : Prop :=
  s.Leads a b ∧ a ∈ s.conditionIds ∧ b ∈ s.conditionIds

variable {s : SubGraph} {id : String}

theorem mem_conditionIds :
    id ∈ s.conditionIds ↔ ∃ n ∈ s.nodes, n.id = id ∧ n.kind = .condition :=
  mem_map_filter_key.trans (exists_congr fun _ => and_congr_right' and_comm)

theorem mem_roots : id ∈ s.roots ↔ id ∈ s.conditionIds ∧ s.IsRoot id := by
  simp [roots]

/-- Along edges that join conditions, a path is a path of the sub-graph. -/
theorem leads_of_joins {a b : String} (h : Relation.ReflTransGen s.Joins a b) :
    Relation.ReflTransGen s.Leads a b :=
  Relation.ReflTransGen.mono (fun _ _ hjoins => hjoins.1) _ _ h

/-- **Without cycles, a root leads to each condition** along edges that join conditions. Going from a
condition to one that leads to it comes to an end, as there are finitely many. -/
theorem exists_root (hacyclic : s.Acyclic) (h : id ∈ s.conditionIds) :
    ∃ root ∈ s.roots, Relation.ReflTransGen s.Joins root id := by
  have horder : IsStrictOrder String (Relation.TransGen s.Leads) :=
    { irrefl := hacyclic, trans := fun _ _ _ => Relation.TransGen.trans }
  have hfinite : {id | id ∈ s.conditionIds}.WellFoundedOn (Relation.TransGen s.Leads) :=
    (List.finite_toSet s.conditionIds).wellFoundedOn
  refine hfinite.induction (P := fun id => ∃ root ∈ s.roots, Relation.ReflTransGen s.Joins root id)
    h fun id hid ih => ?_
  by_cases hroot : s.IsRoot id
  · exact ⟨id, mem_roots.2 ⟨hid, hroot⟩, .refl⟩
  · -- Another condition leads to one that is no root; it comes before it in the order.
    simp only [IsRoot, not_forall] at hroot
    obtain ⟨e, he, rfl, hsource, -⟩ := hroot
    have hleads : s.Leads e.source e.target := ⟨e, he, rfl, rfl⟩
    obtain ⟨root, hroot, hpath⟩ := ih e.source hsource (.single hleads)
    exact ⟨root, hroot, hpath.tail ⟨hleads, hsource, hid⟩⟩

end SubGraph

/-! ### All that leads to given nodes -/

namespace Graph

/-- The part of a graph that leads to given nodes. -/
def partTo (g : Graph) (starts entryIds : List String) : SubGraph :=
  g.part (g.ancestors starts) entryIds (g.edgeIdsInto (g.ancestors starts))

variable {g : Graph} {starts entryIds conditions : List String} {n : Node} {id : String}

theorem mem_nodes_partTo (h : g.Proper) : n ∈ (g.partTo starts entryIds).nodes ↔
    n ∈ g.nodes ∧ ∃ s ∈ starts, s ∈ g.ids ∧ Relation.ReflTransGen g.Leads n.id s := by
  rw [partTo, mem_nodes_part, mem_ancestors_iff h]

theorem edges_partTo (h : g.Proper) : (g.partTo starts entryIds).edges =
    g.edges.filter fun e => e.target ∈ g.ancestors starts :=
  edges_part_ancestors h entryIds

/-- The roots among the conditions that lead to given nodes are those of the part. -/
theorem roots_partTo (h : g.Proper)
    (hconditions : ∀ id, id ∈ conditions ↔ id ∈ (g.partTo starts entryIds).conditionIds) :
    g.roots conditions (g.edgeIdsInto (g.ancestors starts)) =
      conditions.filter (g.partTo starts entryIds).IsRoot := by
  refine List.filter_congr fun id hid => ?_
  have hmember : id ∈ g.ancestors starts := by
    obtain ⟨n, hn, rfl, -⟩ := SubGraph.mem_conditionIds.1 ((hconditions id).1 hid)
    exact (mem_nodes_part.1 hn).2
  rw [Bool.eq_iff_iff]
  simp only [SubGraph.IsRoot, edges_partTo h, List.all_eq_true, List.mem_filter, Bool.and_eq_true,
    decide_eq_true_eq, Bool.or_eq_true, Bool.not_eq_true', List.contains_iff_mem, and_imp]
  constructor
  · intro hroot e he _ htarget hsource
    -- An edge into the condition is an edge into a member, so its id is among those followed.
    have hfollowed : e.id ∈ g.edgeIdsInto (g.ancestors starts) :=
      List.mem_map_of_mem (List.mem_filter.2 ⟨he, by simpa [htarget] using hmember⟩)
    rcases hroot e he htarget hfollowed with heq | hother
    · exact heq
    · exact absurd ((hconditions _).2 hsource) (by simpa using hother)
  · intro hroot e he htarget _
    by_cases hsource : e.source ∈ conditions
    · exact .inl (hroot e he (htarget ▸ hmember) htarget ((hconditions _).1 hsource))
    · exact .inr (by simpa using hsource)

end Graph

end StrategyGraph
