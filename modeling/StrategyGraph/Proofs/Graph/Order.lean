import Mathlib.Data.List.Perm.Basic
import StrategyGraph.Proofs.Blueprint.InTrade
import StrategyGraph.Proofs.Blueprint.Start

/-!
# Graphs whose edges stand in another order

Paths do not depend on the order of the edges, and neither does what is found by following them. What
a search lists first does.

* `Matching` : the items of two lists belong together, in whatever order they stand;
* `Graph.Reordered` : two graphs have the same nodes, and edges that belong together;
* `Graph.Reordered.entryGraph` and `Graph.Reordered.inTradeGraph` : so do their sub-graphs;
* `OnlyChoice` : the conditions among which the first one of a walk is chosen leave no choice;
* `Graph.chooseEntry_onlyChoice` and `OnlyChoice.chooseEntry` : this is so when no warning is given,
  and then the order in which the conditions are listed does not matter.
-/

namespace StrategyGraph

/-! ### Items that belong together -/

section Matching

variable {α β γ δ : Type} {R : α → β → Prop} {xs : List α} {ys : List β}

/-- Each item of the one list belongs to one of the other list, and no two to the same. -/
def Matching (R : α → β → Prop) (xs : List α) (ys : List β) : Prop :=
  ∃ zs, List.Forall₂ R xs zs ∧ zs.Perm ys

namespace Matching

theorem filter {p : α → Bool} {q : β → Bool} (h : Matching R xs ys)
    (hpq : ∀ x y, R x y → (p x = true ↔ q y = true)) : Matching R (xs.filter p) (ys.filter q) := by
  obtain ⟨zs, hall, hperm⟩ := h
  exact ⟨zs.filter q, List.rel_filter (fun x y hxy => hpq x y hxy) hall, hperm.filter q⟩

theorem filterMap {S : γ → δ → Prop} {f : α → Option γ} {g : β → Option δ} (h : Matching R xs ys)
    (hfg : ∀ x y, R x y → Option.Rel S (f x) (g y)) :
    Matching S (xs.filterMap f) (ys.filterMap g) := by
  obtain ⟨zs, hall, hperm⟩ := h
  exact ⟨zs.filterMap g, List.rel_filterMap (fun x y hxy => hfg x y hxy) hall, hperm.filterMap g⟩

/-- What the items of the one list have, those of the other list have, if it is the same for items
that belong together. -/
theorem exists_iff {p : α → Prop} {q : β → Prop} (h : Matching R xs ys)
    (hpq : ∀ x y, R x y → (p x ↔ q y)) : (∃ x ∈ xs, p x) ↔ ∃ y ∈ ys, q y := by
  obtain ⟨zs, hall, hperm⟩ := h
  simp only [← hperm.mem_iff]
  clear hperm
  induction hall with
  | nil => simp
  | cons hxy _ ih => simp only [List.exists_mem_cons_iff, hpq _ _ hxy, ih]

end Matching

end Matching

/-! ### Sub-graphs -/

/-- The sub-graphs have the same nodes, and edges that belong together. -/
structure SubGraph.Reordered (R : Edge → Edge → Prop) (s s' : SubGraph) : Prop where
  /-- The nodes. -/
  nodes : s'.nodes = s.nodes
  /-- The edges. -/
  edges : Matching R s.edges s'.edges

/-- The graphs have the same nodes, and edges that belong together. -/
structure Graph.Reordered (R : Edge → Edge → Prop) (g g' : Graph) : Prop where
  /-- The nodes. -/
  nodes : g'.nodes = g.nodes
  /-- The edges. -/
  edges : Matching R g.edges g'.edges

variable {R : Edge → Edge → Prop}

/-- Edges that belong together have the same ends. -/
def KeepsEnds (R : Edge → Edge → Prop) : Prop :=
  ∀ e e', R e e' → e'.source = e.source ∧ e'.target = e.target

theorem Matching.leads_iff {es es' : List Edge} (h : Matching R es es') (hR : KeepsEnds R)
    (a b : String) : (∃ e ∈ es, e.source = a ∧ e.target = b) ↔
      ∃ e ∈ es', e.source = a ∧ e.target = b :=
  h.exists_iff fun e e' hee' => by rw [(hR e e' hee').1, (hR e e' hee').2]

namespace SubGraph.Reordered

variable {s s' : SubGraph} (h : s.Reordered R s')
include h

theorem ids : s'.ids = s.ids := by
  rw [SubGraph.ids, SubGraph.ids, h.nodes]

theorem conditionIds : s'.conditionIds = s.conditionIds := by
  rw [SubGraph.conditionIds, SubGraph.conditionIds, h.nodes]

theorem leads (hR : KeepsEnds R) : s'.Leads = s.Leads := by
  ext a b
  exact (h.edges.leads_iff hR a b).symm

theorem isSome_cycle? (hR : KeepsEnds R) (hs : s.Closed) (hs' : s'.Closed) :
    s'.cycle?.isSome ↔ s.cycle?.isSome := by
  simp only [isSome_cycle?_iff hs, isSome_cycle?_iff hs', OnCycle, h.leads hR, h.ids]

theorem isRoot_iff (hR : KeepsEnds R) (id : String) : s'.IsRoot id ↔ s.IsRoot id := by
  have hleads : ∀ t : SubGraph,
      t.IsRoot id ↔ ∀ a, t.Leads a id → a ∈ t.conditionIds → a = id := by
    intro t
    constructor
    · rintro hroot _ ⟨e, he, rfl, htarget⟩
      exact hroot e he htarget
    · intro hroot e he htarget
      exact hroot e.source ⟨e, he, rfl, htarget⟩
  rw [hleads, hleads, h.leads hR, h.conditionIds]

theorem roots (hR : KeepsEnds R) : s'.roots = s.roots := by
  simp only [SubGraph.roots, h.conditionIds, h.isRoot_iff hR]

end SubGraph.Reordered

/-! ### The only choice -/

/-- Of the conditions with the given ids one is marked, or none is marked and there is one only, or
one root only. -/
def OnlyChoice (marked root : String → Bool) (ids : List String) (id : String) : Prop :=
  ids.filter marked = [id] ∨ ids.filter marked = [] ∧ (ids = [id] ∨ ids.filter root = [id])

theorem OnlyChoice.perm {marked root : String → Bool} {ids ids' : List String} {id : String}
    (h : OnlyChoice marked root ids id) (hperm : ids.Perm ids') :
    OnlyChoice marked root ids' id := by
  have hone : ∀ p : String → Bool, ids.filter p = [id] → ids'.filter p = [id] := fun p hp =>
    List.perm_singleton.1 ((hperm.filter p).symm.trans (.of_eq hp))
  rcases h with hmarked | ⟨hnone, honly⟩
  · exact .inl (hone marked hmarked)
  · have hnone' : ids'.filter marked = [] :=
      ((hperm.filter marked).symm.trans (.of_eq hnone)).eq_nil
    refine .inr ⟨hnone', ?_⟩
    rcases honly with rfl | hroot
    · exact .inl (List.perm_singleton.1 hperm.symm)
    · exact .inr (hone root hroot)

/-- The warning says that several conditions are marked as the first one. -/
def Warning.isSeveralMasters : Warning → Bool
  | severalMasters .. => true
  | _ => false

namespace Graph

variable {g g' : Graph} {first : String} {others edgeIds : List String} {root : String → Bool}

/-- Without a warning of it, there is no choice. -/
theorem chooseEntry_onlyChoice {id : String} {warnings : List Warning}
    (h : g.chooseEntry first others edgeIds = (id, warnings))
    (hroots : g.roots (first :: others) edgeIds = (first :: others).filter root)
    (hwarnings : ∀ w ∈ warnings, w.isAmbiguous = false ∧ w.isSeveralMasters = false) :
    OnlyChoice g.isMaster root (first :: others) id := by
  rw [chooseEntry, hroots] at h
  split at h
  · next master hmaster =>
    cases h
    exact .inl hmaster
  · cases h
    cases (hwarnings _ List.mem_cons_self).2
  · next hnone =>
    split at h
    · next hempty =>
      obtain rfl := List.isEmpty_iff.1 hempty
      cases h
      exact .inr ⟨hnone, .inl rfl⟩
    · split at h
      · next hroot =>
        cases h
        exact .inr ⟨hnone, .inr hroot⟩
      · cases h
        cases (hwarnings _ List.mem_cons_self).1
      · cases h
        cases (hwarnings _ List.mem_cons_self).1

end Graph

/-- Where there is no choice, the condition is chosen. -/
theorem OnlyChoice.chooseEntry {g : Graph} {first id : String} {others edgeIds : List String}
    {root : String → Bool} (h : OnlyChoice g.isMaster root (first :: others) id)
    (hroots : g.roots (first :: others) edgeIds = (first :: others).filter root) :
    (g.chooseEntry first others edgeIds).1 = id := by
  rw [Graph.chooseEntry, hroots]
  rcases h with hmarked | ⟨hnone, honly | hroot⟩
  · rw [hmarked]
  · obtain ⟨rfl, rfl⟩ := List.cons.inj honly
    rw [hnone]
    rfl
  · rw [hnone, hroot]
    dsimp only
    split
    · next hempty =>
      obtain rfl := List.isEmpty_iff.1 hempty
      have hid : id ∈ [first].filter root := by simp [hroot]
      exact (List.mem_singleton.1 (List.mem_filter.1 hid).1).symm
    · rfl

/-! ### Parts of reordered graphs -/

namespace Graph.Reordered

variable {g g' : Graph} {a : String} {block buy : Node} {starts : List String}
  (hg : g.Proper) (hg' : g'.Proper) (hR : KeepsEnds R) (h : g.Reordered R g')
include hg hg' hR h

omit hg hg' hR in
theorem ids : g'.ids = g.ids := by
  rw [Graph.ids, Graph.ids, h.nodes]

omit hg hg' in
theorem leads : g'.Leads = g.Leads := by
  ext a b
  exact (h.edges.leads_iff hR a b).symm

theorem mem_ancestors : a ∈ g'.ancestors starts ↔ a ∈ g.ancestors starts := by
  rw [mem_ancestors_iff hg, mem_ancestors_iff hg', h.ids, h.leads hR]

theorem partTo (starts entryIds entryIds' : List String) :
    (g.partTo starts entryIds).Reordered R (g'.partTo starts entryIds') where
  nodes := by
    simp only [Graph.partTo, part, h.nodes, h.mem_ancestors hg hg' hR]
  edges := by
    rw [edges_partTo hg, edges_partTo hg']
    refine h.edges.filter fun e e' hee' => ?_
    simp only [decide_eq_true_eq, h.mem_ancestors hg hg' hR, (hR e e' hee').2]

/-! ### The in-trade graph -/

theorem blockPart (settings : Settings) (hblock : block ∈ g.nodes) :
    (g.blockPart settings block).1.Reordered R (g'.blockPart settings block).1 := by
  have hmembers : ∀ id,
      id ∈ g'.blockMembers settings block ↔ id ∈ g.blockMembers settings block := by
    intro id
    rw [blockMembers, blockMembers]
    split
    · have hid : block.id ∈ g.ids := mem_ids.2 ⟨block, hblock, rfl⟩
      rw [mem_connected_iff hg hid, mem_connected_iff hg' (h.ids ▸ hid), h.leads hR]
    · rw [h.nodes]
  constructor
  · simp only [Graph.blockPart, part, h.nodes, hmembers]
  · refine h.edges.filter fun e e' hee' => ?_
    simp only [decide_eq_true_eq, hmembers, (hR e e' hee').1, (hR e e' hee').2, Option.all_none]

theorem sellPart (sells : List Node) : (g.sellPart sells).Reordered R (g'.sellPart sells) ∧
    (g'.sellPart sells).entryIds = (g.sellPart sells).entryIds := by
  have hpart : (g.sellPart sells).Reordered R (g'.sellPart sells) :=
    h.partTo hg hg' hR _ _ _
  refine ⟨hpart, ?_⟩
  rw [entryIds_sellPart hg, entryIds_sellPart hg', hpart.roots hR, hpart.conditionIds]

/-- Conditions that may end a trade are taken in the order of the nodes, so they are the same. -/
theorem inTradeGraph (settings : Settings) :
    (g.inTradeGraph settings).1.Reordered R (g'.inTradeGraph settings).1 ∧
    (g'.inTradeGraph settings).1.entryIds = (g.inTradeGraph settings).1.entryIds := by
  have hfirst : g'.inTradeBlock? = g.inTradeBlock? := by
    rw [inTradeBlock?, inTradeBlock?, h.nodes]
  cases hblock : g.inTradeBlock? with
  | some block =>
    rw [inTradeGraph_of_block hblock, inTradeGraph_of_block (hfirst.trans hblock)]
    have hpart := h.blockPart hg hg' hR settings (List.mem_of_find?_eq_some hblock)
    exact ⟨hpart, conditionsOf_eq.trans (hpart.conditionIds.trans conditionsOf_eq.symm)⟩
  | none =>
    have hnone : g.nodes.filter Node.isInTradeBlock = [] :=
      List.filter_eq_nil_iff.2 (List.find?_eq_none.1 hblock)
    have hsells : g'.sells = g.sells := by
      rw [Graph.sells, Graph.sells, h.nodes]
    rw [Graph.inTradeGraph, Graph.inTradeGraph, h.nodes, hsells, hnone]
    dsimp only
    split
    · exact ⟨⟨rfl, [], .nil, .nil⟩, rfl⟩
    · exact h.sellPart hg hg' hR _

/-! ### The entry graph -/

/-- The conditions among the ancestors are the same, although not in the same order. -/
theorem conditionsAmong (starts : List String) : (g.conditionsAmong (g.ancestors starts)).Perm
    (g'.conditionsAmong (g'.ancestors starts)) := by
  have hnodup : ∀ f : Graph, (f.conditionsAmong (f.ancestors starts)).Nodup := fun f =>
    Search.nodup_search.filter _
  refine (List.perm_ext_iff_of_nodup (hnodup g) (hnodup g')).2 fun id => ?_
  rw [mem_conditionsAmong hg, mem_conditionsAmong hg', h.mem_ancestors hg hg' hR, h.nodes]

theorem entryPart : (g.entryPart buy).1.Reordered R (g'.entryPart buy).1 := by
  obtain ⟨entryIds, hpart, -⟩ := entryPart_fst g buy
  obtain ⟨entryIds', hpart', -⟩ := entryPart_fst g' buy
  rw [hpart, hpart']
  exact h.partTo hg hg' hR _ _ _

/-- Where a walk begins is the same if no warning says that there is a choice. -/
theorem entryIds_entryPart
    (hwarnings : ∀ w ∈ (g.entryPart buy).2, w.isAmbiguous = false ∧ w.isSeveralMasters = false) :
    (g'.entryPart buy).1.entryIds = (g.entryPart buy).1.entryIds := by
  have hperm := h.conditionsAmong hg hg' hR [buy.id]
  have hmaster : g'.isMaster = g.isMaster := by
    funext id
    rw [isMaster, isMaster, node?, node?, h.nodes]
  cases hconditions : g.conditionsAmong (g.ancestors [buy.id]) with
  | nil =>
    have hconditions' : g'.conditionsAmong (g'.ancestors [buy.id]) = [] :=
      (hconditions ▸ hperm).nil_eq.symm
    rw [Graph.entryPart, Graph.entryPart, hconditions, hconditions']
    rfl
  | cons first others =>
    cases hconditions' : g'.conditionsAmong (g'.ancestors [buy.id]) with
    | nil => exact absurd (hconditions.symm.trans (hconditions' ▸ hperm).eq_nil) (by simp)
    | cons first' others' =>
      obtain ⟨chosen, hchosen, hpart⟩ := entryPart_of_cons hconditions
      obtain ⟨chosen', hchosen', hpart'⟩ := entryPart_of_cons hconditions'
      rw [hconditions, hconditions'] at hperm
      rw [hpart] at hwarnings ⊢
      rw [hpart']
      -- The roots are those of the part, which has the same roots in both graphs.
      have hpart := h.partTo hg hg' hR [buy.id] [] []
      have hmem : ∀ id, id ∈ first :: others ↔ id ∈ (g.partTo [buy.id] []).conditionIds := fun id =>
        hconditions ▸ mem_conditionIds_partTo hg
      have hmem' : ∀ id, id ∈ first' :: others' ↔ id ∈ (g'.partTo [buy.id] []).conditionIds :=
        fun id => hconditions' ▸ mem_conditionIds_partTo hg'
      have hroots := roots_partTo hg hmem
      have hroots' := roots_partTo hg' hmem'
      simp only [hpart.isRoot_iff hR] at hroots'
      have honly := (chooseEntry_onlyChoice hchosen hroots hwarnings).perm hperm
      rw [← hmaster] at honly
      have hsame := honly.chooseEntry hroots'
      rw [hchosen'] at hsame
      rw [Graph.partTo, Graph.partTo, part, part, hsame]

omit hg hg' hR in
theorem buys : g'.buys = g.buys := by
  have hkind : g'.ofKind = g.ofKind := by
    funext kind
    rw [ofKind, ofKind, h.nodes]
  rw [Graph.buys, Graph.buys, hkind]

theorem entryGraph : g.entryGraph.1.Reordered R g'.entryGraph.1 := by
  rw [Graph.entryGraph, Graph.entryGraph, h.buys]
  split
  · exact ⟨rfl, [], .nil, .nil⟩
  · exact h.entryPart hg hg' hR
  · exact h.entryPart hg hg' hR

theorem entryIds_entryGraph
    (hwarnings : ∀ w ∈ g.entryGraph.2, w.isAmbiguous = false ∧ w.isSeveralMasters = false) :
    g'.entryGraph.1.entryIds = g.entryGraph.1.entryIds := by
  rw [Graph.entryGraph] at hwarnings
  rw [Graph.entryGraph, Graph.entryGraph, h.buys]
  cases hbuys : g.buys with
  | nil => rfl
  | cons buy more =>
    rw [hbuys] at hwarnings
    cases more with
    | nil => exact h.entryIds_entryPart hg hg' hR hwarnings
    | cons second more =>
      exact h.entryIds_entryPart hg hg' hR fun w hw => hwarnings w (List.mem_cons_of_mem _ hw)

end Graph.Reordered

end StrategyGraph
