import StrategyGraph.Proofs.Blueprint.Entry
import StrategyGraph.Proofs.Blueprint.Warnings
import StrategyGraph.Proofs.Graph.Cycle

/-!
# Cycles of a blueprint

A blueprint warns of a cycle in one of its sub-graphs just where there is one.

* `Graph.Proper.closed_entryGraph` and `Graph.Proper.closed_inTradeGraph` : edges of the sub-graphs
  lie between their nodes, so the search for a cycle is exact;
* `cycles_reported` : **the search for a cycle, and the warnings of a blueprint.**
-/

namespace StrategyGraph

namespace Graph.Proper

variable {g : Graph} (h : g.Proper) {members entryIds : List String}
include h

theorem closed_part {edgeIds : Option (List String)} :
    (g.part members entryIds edgeIds).Closed := by
  have hends : ∀ e ∈ (g.part members entryIds edgeIds).edges,
      e ∈ g.edges ∧ e.source ∈ members ∧ e.target ∈ members := by
    intro e he
    obtain ⟨he, hkept⟩ := List.mem_filter.1 he
    have hkept := of_decide_eq_true hkept
    exact ⟨he, hkept.1, hkept.2.1⟩
  constructor
  · intro e he
    obtain ⟨he, hsource, -⟩ := hends e he
    exact (mem_ids_part (h.source e he)).2 hsource
  · intro e he
    obtain ⟨he, -, htarget⟩ := hends e he
    exact (mem_ids_part (h.target e he)).2 htarget

theorem closed_entryGraph : g.entryGraph.1.Closed := by
  rcases g.entryGraph_cases with hempty | ⟨buy, hpart, -⟩
  · rw [hempty]
    exact SubGraph.closed_empty
  · obtain ⟨entryIds, hmembers, -⟩ := entryPart_fst g buy
    rw [hpart, hmembers]
    exact h.closed_part

theorem closed_inTradeGraph (settings : Settings) : (g.inTradeGraph settings).1.Closed := by
  rw [inTradeGraph]
  split
  · exact h.closed_part
  · exact h.closed_part
  · split
    · exact SubGraph.closed_empty
    · exact h.closed_part

end Graph.Proper

variable {settings : Settings} {g : Graph} {b : Blueprint}

theorem Blueprint.MadeOf.closed (h : b.MadeOf settings g) (hg : g.Proper) (part : Part) :
    (b.subGraph part).Closed := by
  cases part with
  | entry =>
    rw [Blueprint.subGraph, h.entry]
    exact hg.closed_entryGraph
  | inTrade =>
    rw [Blueprint.subGraph, h.inTrade]
    exact hg.closed_inTradeGraph settings

/-- **Cycles are reported exactly.** The search for a cycle of a sub-graph comes to an end. It answers
with a node if and only if the edges of the sub-graph form a cycle, and that node lies on one. So a
blueprint warns of a cycle in a part if and only if there is one, and it names a node on it. -/
theorem cycles_reported :
    (∀ s : SubGraph, s.Closed →
      ∃ result, (∀ r, Search.Explores (fun id => (s.outgoing id).map Edge.target) [] s.ids s.ids r ↔
          r = result) ∧
        s.cycle? = Search.met? result ∧
        (s.cycle?.isSome ↔ ∃ id ∈ s.ids, s.OnCycle id) ∧
        ∀ id ∈ s.cycle?, id ∈ s.ids ∧ s.OnCycle id) ∧
    ∀ (settings : Settings) (nodes : Supply Node) (edges : Supply Edge) (parameters : Json)
      (b : Blueprint), compile settings nodes edges parameters = .ok b → ∀ part,
        ((∃ id, .cycle part id ∈ b.warnings) ↔
          ∃ id ∈ (b.subGraph part).ids, (b.subGraph part).OnCycle id) ∧
        ∀ id, .cycle part id ∈ b.warnings → (b.subGraph part).OnCycle id := by
  refine ⟨fun s hs => ?_, fun settings nodes edges parameters b h part => ?_⟩
  · obtain ⟨result, hexplores, hcycle⟩ :=
      Search.exists_explores (fun id => (s.outgoing id).map Edge.target) s.ids
    refine ⟨result, fun r => ⟨fun hr => hr.unique hexplores, fun hr => hr ▸ hexplores⟩, hcycle,
      SubGraph.isSome_cycle?_iff hs, fun id hid => ?_⟩
    have hon : s.OnCycle id := SubGraph.onCycle_of_cycle? hid
    exact ⟨hs.mem_ids_of_onCycle hon, hon⟩
  · obtain ⟨g, hg, hmade⟩ := exists_madeOf h
    simp only [hmade.warns_cycle]
    refine ⟨?_, fun id hid => SubGraph.onCycle_of_cycle? hid⟩
    rw [← SubGraph.isSome_cycle?_iff (hmade.closed hg.proper part), Option.isSome_iff_exists]

/-- Two conditions, the second with a note behind it that leads back to it, and a sale behind the
first. -/
def detourNodes : List Node :=
  [{ id := "gate", kind := .condition }, { id := "check", kind := .condition },
   { id := "note", kind := .record }, { id := "enter", kind := .buy },
   { id := "leave", kind := .sell }]

/-- Two edges lead from the first condition to the second. -/
def detourEdges : List Edge :=
  [{ id := "a", source := "gate", target := "check" },
   { id := "b", source := "gate", target := "check" },
   { id := "c", source := "gate", target := "leave" },
   { id := "d", source := "check", target := "note" },
   { id := "e", source := "note", target := "check" },
   { id := "f", source := "check", target := "enter" }]

theorem cycles_reported_detour : ∃ b,
    compile {} (.ready detourNodes) (.ready detourEdges) .null = .ok b ∧
    (∃ id, .cycle .entry id ∈ b.warnings) ∧ ¬∃ id, .cycle .inTrade id ∈ b.warnings := by
  obtain ⟨b, h, hp⟩ := exists_ok_of_any
    (x := compile {} (.ready detourNodes) (.ready detourEdges) .null)
    (p := fun b => b.entry.cycle? = some "check" ∧ b.inTrade.cycle? = none) (by decide)
  obtain ⟨hentry, hinTrade⟩ := of_decide_eq_true hp
  obtain ⟨g, hg, hmade⟩ := exists_madeOf h
  obtain ⟨hsearch, hcompile⟩ := cycles_reported
  refine ⟨b, h, ?_, fun hcycle => ?_⟩
  · obtain ⟨-, -, -, -, hon⟩ := hsearch _ (hmade.closed hg.proper .entry)
    exact (hcompile _ _ _ _ b h .entry).1.2 ⟨"check", hon _ hentry⟩
  · obtain ⟨id, -, hon⟩ := (hcompile _ _ _ _ b h .inTrade).1.1 hcycle
    exact SubGraph.acyclic_of_cycle? (hmade.closed hg.proper .inTrade) hinTrade id hon

end StrategyGraph
