import StrategyGraph.Proofs.Blueprint.Series
import StrategyGraph.Proofs.Blueprint.Start
import StrategyGraph.Proofs.Walk.Total

/-!
# Compiled blueprints are well-formed

What runs a blueprint relies on it: a walk passes over nodes that it does not know, takes conditions
that it does not know for false, and of two series with one name the last one would count. None of
this happens with a compiled blueprint.

* `SubGraph.WellFormed` and `Blueprint.WellFormed` : what the stages of compiling establish;
* `SubGraph.ComesTo` : a walk comes to an id. All nodes that it enters are among these ids
  (`SubGraph.comesTo_of_entered`);
* `Blueprint.WellFormed.knows` and `Blueprint.WellFormed.lookup_series` : what follows for walks and
  for the series over bars;
* `compile_wellFormed` : **compiled blueprints are well-formed.**
-/

namespace StrategyGraph

/-! ### Sub-graphs -/

/-- A sub-graph of a graph in which every walk finds what it looks for. -/
structure SubGraph.WellFormed (g : Graph) (s : SubGraph) : Prop where
  /-- The nodes stand in the order of the graph. -/
  sublist : s.nodes.Sublist g.nodes
  /-- No node is repeated. -/
  nodup : s.ids.Nodup
  /-- The edges lie between the nodes. -/
  closed : s.Closed
  /-- A walk begins at conditions of the sub-graph. -/
  entryIds : ∀ id ∈ s.entryIds, id ∈ s.conditionIds

namespace Graph

variable {g : Graph} {members entryIds : List String} {edgeIds : Option (List String)}

theorem wellFormed_empty : ({} : SubGraph).WellFormed g where
  sublist := List.nil_sublist _
  nodup := List.nodup_nil
  closed := SubGraph.closed_empty
  entryIds _ h := absurd h List.not_mem_nil

namespace Proper

variable (h : g.Proper)
include h

theorem wellFormed_part
    (hentries : ∀ id ∈ entryIds, id ∈ (g.part members entryIds edgeIds).conditionIds) :
    (g.part members entryIds edgeIds).WellFormed g where
  sublist := List.filter_sublist
  nodup := h.nodup.sublist (List.filter_sublist.map _)
  closed := h.closed_part
  entryIds := hentries

theorem wellFormed_entryGraph :
    g.entryGraph.1.WellFormed g ∧ g.entryGraph.1.entryIds.length ≤ 1 := by
  rcases g.entryGraph_cases with hempty | ⟨buy, hpart, -⟩
  · simpa [hempty] using wellFormed_empty
  · obtain ⟨entryIds, hmembers, hentry⟩ := entryPart_fst g buy
    rw [hpart, hmembers]
    rcases hentry with ⟨rfl, -⟩ | ⟨id, hid, rfl⟩
    · exact ⟨h.wellFormed_part (by simp), Nat.zero_le _⟩
    · refine ⟨h.wellFormed_part fun other hother => ?_, Nat.le_refl _⟩
      obtain rfl := List.mem_singleton.1 hother
      exact (mem_conditionIds_partTo h).1 hid

theorem wellFormed_inTradeGraph (settings : Settings) :
    (g.inTradeGraph settings).1.WellFormed g := by
  cases hblock : g.inTradeBlock? with
  | some block =>
    rw [inTradeGraph_of_block hblock]
    exact h.wellFormed_part fun id hid => conditionsOf_eq ▸ hid
  | none =>
    rcases inTradeGraph_of_no_block settings hblock with ⟨-, hempty⟩ | hpart
    · rw [hempty]
      exact wellFormed_empty
    · rw [hpart]
      refine h.wellFormed_part fun id hid => ?_
      have hids := entryIds_sellPart h g.sells
      have hmem : id ∈ (g.sellPart g.sells).entryIds := hid
      rw [hids] at hmem
      split at hmem
      · exact hmem
      · exact (SubGraph.mem_roots.1 hmem).1

end Proper

end Graph

/-! ### Conditions and producers -/

theorem Condition.nodeIds_readNodes {s : Snapshot} {seriesKeys : List String} {nodes : List Node}
    {conditions : List Condition} {warnings : List Warning}
    (h : readNodes s seriesKeys nodes = .ok (conditions, warnings)) :
    conditions.map Condition.nodeId = nodes.map Node.id := by
  induction nodes generalizing conditions warnings with
  | nil =>
    cases h
    rfl
  | cons n ns ih =>
    obtain ⟨⟨c, cWarnings⟩, hc, h⟩ := bind_eq_ok.1 h
    obtain ⟨⟨cs, rest⟩, hcs, h⟩ := bind_eq_ok.1 h
    cases h
    obtain ⟨slots, -, hc⟩ := bind_eq_ok.1 hc
    obtain ⟨operator, -, hc⟩ := bind_eq_ok.1 hc
    cases hc
    rw [List.map_cons, List.map_cons, ih hcs]

/-- The names of series are new and distinct. -/
theorem Producer.nodup_readNodes {settings : Settings} {g : Graph} {s : Snapshot}
    {taken : List String} {nodes : List Node} {producers : List Producer} {warnings : List Warning}
    (h : readNodes settings g s taken nodes = .ok (producers, warnings)) :
    (producers.map Producer.outputKey).Nodup ∧ ∀ p ∈ producers, p.outputKey ∉ taken := by
  induction nodes generalizing taken producers warnings with
  | nil =>
    cases h
    simp
  | cons n ns ih =>
    rw [readNodes] at h
    split at h
    · exact ih h
    · obtain ⟨⟨p, pWarnings⟩, -, h⟩ := bind_eq_ok.1 h
      dsimp only at h
      split at h
      · obtain ⟨⟨ps, rest⟩, hps, h⟩ := bind_eq_ok.1 h
        cases h
        exact ih hps
      · next hnew =>
        obtain ⟨⟨ps, rest⟩, hps, h⟩ := bind_eq_ok.1 h
        cases h
        obtain ⟨hnodup, hothers⟩ := ih hps
        have hother : ∀ q ∈ ps, q.outputKey ≠ p.outputKey ∧ q.outputKey ∉ taken := by
          intro q hq
          simpa using hothers q hq
        constructor
        · rw [List.map_cons, List.nodup_cons]
          refine ⟨fun hmem => ?_, hnodup⟩
          obtain ⟨q, hq, hkey⟩ := List.mem_map.1 hmem
          exact (hother q hq).1 hkey
        · exact List.forall_mem_cons.2 ⟨hnew, fun q hq => (hother q hq).2⟩

/-! ### Blueprints -/

namespace Blueprint

/-- A blueprint of a graph in which everything finds what it looks for. -/
structure WellFormed (g : Graph) (b : Blueprint) : Prop where
  /-- Both sub-graphs are well-formed. -/
  subGraph : ∀ part, (b.subGraph part).WellFormed g
  /-- A walk through the entry graph begins at one condition at most. -/
  entry : b.entry.entryIds.length ≤ 1
  /-- There is a condition for each node of that kind, and no other one. -/
  conditions : b.conditions.map Condition.nodeId = (g.ofKind .condition).map Node.id
  /-- No two series have one name. -/
  nodup : (b.producers.map Producer.outputKey).Nodup

variable {settings : Settings} {g : Graph} {b : Blueprint} {id : String}

theorem wellFormed_ofGraph {parameters : Json} {warnings : List Warning} (hg : g.Proper)
    (h : ofGraph settings g parameters warnings = .ok b) : b.WellFormed g := by
  obtain ⟨snapshot, -, h⟩ := bind_eq_ok.1 h
  obtain ⟨⟨producers, producerWarnings⟩, hproducers, h⟩ := bind_eq_ok.1 h
  obtain ⟨⟨conditions, conditionWarnings⟩, hconditions, h⟩ := bind_eq_ok.1 h
  cases h
  obtain ⟨hentry, hfew⟩ := hg.wellFormed_entryGraph
  refine ⟨fun part => ?_, hfew, Condition.nodeIds_readNodes hconditions,
    (Producer.nodup_readNodes hproducers).1⟩
  cases part with
  | entry => exact hentry
  | inTrade => exact hg.wellFormed_inTradeGraph settings

namespace WellFormed

variable (h : b.WellFormed g)
include h

theorem isSome_condition? :
    (b.condition? id).isSome ↔ ∃ n ∈ g.nodes, n.id = id ∧ n.kind = .condition := by
  have hids : (b.condition? id).isSome ↔ id ∈ b.conditions.map Condition.nodeId := by
    rw [condition?, List.find?_isSome, List.mem_map]
    simp
  rw [hids, h.conditions, Graph.ofKind, mem_map_filter_key]
  exact exists_congr fun n => and_congr_right' and_comm

end WellFormed

end Blueprint

/-! ### Walks -/

namespace SubGraph

variable {s : SubGraph} {g : Graph} {conditions : String → Option Condition} {ctx : BarContext}
  {id : String}

/-- A walk at a bar comes to an id: it begins there or goes on to it. -/
def ComesTo (s : SubGraph) (conditions : String → Option Condition) (ctx : BarContext)
    (id : String) : Prop :=
  ∃ start ∈ s.entryIds, Relation.ReflTransGen (GoesOn (s.find conditions ctx)) start id

theorem exists_edge_of_goesOn {a b : String} (h : GoesOn (s.find conditions ctx) a b) :
    ∃ e ∈ s.edges, e.target = b := by
  obtain ⟨targets, hfind, hb⟩ := h
  have houtgoing : ∀ e ∈ s.outgoing a, e ∈ s.edges := fun e he => (List.mem_filter.1 he).1
  rw [find] at hfind
  split at hfind
  · cases hfind
    cases hb
  · split at hfind
    · split at hfind
      · cases hfind
      · cases hfind
        cases hb
    · obtain ⟨holds, -, hfind⟩ := bind_eq_ok.1 hfind
      cases hfind
      obtain ⟨e, he, rfl⟩ := Option.map_eq_some_iff.1 (Option.mem_toList.1 hb)
      exact ⟨e, houtgoing e (List.mem_of_find?_eq_some he), rfl⟩
    · cases hfind
      obtain ⟨e, he, rfl⟩ := List.mem_map.1 hb
      exact ⟨e, houtgoing e he, rfl⟩

theorem WellFormed.mem_ids (h : s.WellFormed g) (hid : s.ComesTo conditions ctx id) :
    id ∈ s.ids := by
  obtain ⟨start, hstart, hpath⟩ := hid
  rcases hpath.cases_tail with rfl | ⟨last, -, hstep⟩
  · obtain ⟨n, hn, hid, -⟩ := mem_conditionIds.1 (h.entryIds _ hstart)
    exact hid ▸ List.mem_map_of_mem hn
  · obtain ⟨e, he, rfl⟩ := exists_edge_of_goesOn hstep
    exact h.closed.target e he

end SubGraph

/-- What a walk enters, its stack leads to. -/
theorem exists_start_of_entered {find : String → Except Fault Finding} {count : Nat}
    {fresh stack : List String} {id : String} (h : id ∈ (depthFirst find count fresh stack).entered) :
    ∃ start ∈ stack, Relation.ReflTransGen (GoesOn find) start id := by
  induction count generalizing fresh stack with
  | zero =>
    rw [depthFirst.eq_def] at h
    cases h
  | succ n ih =>
    cases hdropped : stack.dropWhile fun id => !fresh.contains id with
    | nil =>
      rw [depthFirst_eq_empty hdropped] at h
      cases h
    | cons top rest =>
      have hstack : ∀ other ∈ top :: rest, other ∈ stack := by
        intro other hother
        rw [← hdropped] at hother
        exact (List.dropWhile_sublist _).subset hother
      have hfirst : top ∈ stack := hstack top List.mem_cons_self
      rw [depthFirst_succ hdropped] at h
      cases hfind : find top with
      | error fault =>
        rw [hfind] at h
        obtain rfl := List.mem_singleton.1 h
        exact ⟨_, hfirst, .refl⟩
      | ok finding =>
        rw [hfind] at h
        cases finding with
        | action a =>
          obtain rfl := List.mem_singleton.1 h
          exact ⟨_, hfirst, .refl⟩
        | onward targets =>
          rcases List.mem_cons.1 h with rfl | hlater
          · exact ⟨_, hfirst, .refl⟩
          · obtain ⟨start, hstart, hpath⟩ := ih hlater
            rcases List.mem_append.1 hstart with htarget | hrest
            · exact ⟨top, hfirst, .head ⟨targets, hfind, htarget⟩ hpath⟩
            · exact ⟨start, hstack start (List.mem_cons_of_mem _ hrest), hpath⟩

namespace SubGraph

variable {s : SubGraph} {conditions : String → Option Condition} {ctx : BarContext} {id : String}

theorem comesTo_of_entered (h : id ∈ (s.nextAction conditions ctx).entered) :
    s.ComesTo conditions ctx id := by
  rw [nextAction] at h
  rw [ComesTo]
  generalize s.entryIds = starts at h
  induction starts with
  | nil => cases h
  | cons start starts ih =>
    have hentered : id ∈ (s.walk conditions ctx start).entered ∨
        id ∈ (s.walkFrom conditions ctx starts).entered := by
      rw [walkFrom, Trail.orElse] at h
      split at h
      · exact List.mem_append.1 h
      · exact .inl h
    rcases hentered with hnow | hlater
    · obtain ⟨first, hfirst, hpath⟩ := exists_start_of_entered hnow
      obtain rfl := List.mem_singleton.1 hfirst
      exact ⟨first, List.mem_cons_self, hpath⟩
    · obtain ⟨first, hfirst, hpath⟩ := ih hlater
      exact ⟨first, List.mem_cons_of_mem _ hfirst, hpath⟩

end SubGraph

/-! ### Running a blueprint -/

namespace Blueprint.WellFormed

variable {g : Graph} {b : Blueprint} (h : b.WellFormed g)
include h

/-- **A walk knows each node to which it comes**, and the condition of each node of that kind. -/
theorem knows {part : Part} {ctx : BarContext} {id : String}
    (hid : (b.subGraph part).ComesTo b.condition? ctx id) :
    ∃ n, (b.subGraph part).node? id = some n ∧
      (n.kind = .condition → ∃ c, b.condition? id = some c) := by
  obtain ⟨n, hn, rfl⟩ := List.mem_map.1 ((h.subGraph part).mem_ids hid)
  refine ⟨n, (find?_key_iff (h.subGraph part).nodup).2 ⟨hn, rfl⟩, fun hkind => ?_⟩
  have hgraph : n ∈ g.nodes := (h.subGraph part).sublist.subset hn
  exact Option.isSome_iff_exists.1 (h.isSome_condition?.2 ⟨n, hgraph, rfl, hkind⟩)

/-- **The series of each producer is found under its name.** -/
theorem lookup_series {bars : List Bar} {series : List (String × Series Float)}
    (hseries : b.series bars = .ok series) {p : Producer} (hp : p ∈ b.producers) :
    ∃ values, p.series bars = .ok values ∧ series.lookup p.outputKey = some values := by
  obtain ⟨pair, hpair, hnamed⟩ := exists_mem_of_mapM hseries hp
  obtain ⟨values, hvalues, rfl⟩ := map_eq_ok.1 hnamed
  refine ⟨values, hvalues, lookup_of_mem ?_ hpair⟩
  rw [names_series hseries]
  exact h.nodup

end Blueprint.WellFormed

variable {settings : Settings} {nodes : Supply Node} {edges : Supply Edge} {parameters : Json}
  {b : Blueprint}

theorem exists_wellFormed (h : compile settings nodes edges parameters = .ok b) :
    ∃ g, Graph.Given nodes edges g ∧ b.WellFormed g := by
  rcases compile_cases h with ⟨entries, nodeWarnings, w, hentries, hnodes, -, rfl⟩ |
    ⟨entries, ns, nodeWarnings, edgeEntries, es, edgeWarnings, hentries, hns, -, hedgeEntries, hes,
      hgraph⟩
  · refine ⟨⟨[], []⟩, .empty hentries hnodes, fun part => ?_, Nat.zero_le _, rfl, List.nodup_nil⟩
    cases part with
    | entry => exact Graph.wellFormed_empty
    | inTrade => exact Graph.wellFormed_empty
  · have hread : Graph.read nodes edges = .ok ⟨ns, es⟩ :=
      Graph.read_eq_ok.2 ⟨entries, nodeWarnings, edgeEntries, edgeWarnings, hentries, hns,
        hedgeEntries, hes⟩
    exact ⟨⟨ns, es⟩, .read hread, Blueprint.wellFormed_ofGraph (Graph.read_proper hread) hgraph⟩

/-- **Compiled blueprints are well-formed**, and so they can be run. The nodes of the graph that a
blueprint is made of stand in the order in which they are given. A walk comes to all nodes that it
enters, and it knows all to which it comes, and the conditions of these. Each producer has its series
under its name, with one value for each bar. If the default window holds a bar, so do all windows:
then the only fault of the series is that the square of a distance is too large. -/
theorem compile_wellFormed (h : compile settings nodes edges parameters = .ok b) :
    ∃ g entries, Graph.Given nodes edges g ∧ nodes.entries = .ok entries ∧
      g.nodes.Sublist (entries.filterMap Node.readable?) ∧ b.WellFormed g ∧
      (1 ≤ settings.lookback → ∀ p ∈ b.producers, p.Windowed) ∧
      (∀ part ctx,
        (∀ id ∈ ((b.subGraph part).nextAction b.condition? ctx).entered,
          (b.subGraph part).ComesTo b.condition? ctx id) ∧
        ∀ id, (b.subGraph part).ComesTo b.condition? ctx id →
          ∃ n, (b.subGraph part).node? id = some n ∧
            (n.kind = .condition → ∃ c, b.condition? id = some c)) ∧
      ∀ bars,
        (∀ series, b.series bars = .ok series →
          series.map Prod.fst = b.producers.map Producer.outputKey ∧
          (∀ p ∈ b.producers, ∃ values, p.series bars = .ok values ∧
            series.lookup p.outputKey = some values) ∧
          ∀ s ∈ series, s.2.length = bars.length) ∧
        (1 ≤ settings.lookback → ∀ fault, b.series bars = .error fault →
          fault = .squareTooLarge) := by
  obtain ⟨g, hg, hb⟩ := exists_wellFormed h
  obtain ⟨entries, hentries, hsublist⟩ := hg.sublist
  have hwindowed : 1 ≤ settings.lookback → ∀ p ∈ b.producers, p.Windowed := fun hlookback =>
    compile_windowed hlookback h
  refine ⟨g, entries, hg, hentries, hsublist, hb, hwindowed, fun part ctx => ⟨?_, ?_⟩,
    fun bars => ⟨fun series hseries => ⟨?_, ?_, ?_⟩, ?_⟩⟩
  · exact fun id hid => SubGraph.comesTo_of_entered hid
  · exact fun id hid => hb.knows hid
  · exact Blueprint.names_series hseries
  · exact fun p hp => hb.lookup_series hseries hp
  · exact fun s hs => Blueprint.length_of_mem_series hseries hs
  · exact fun hlookback fault hfault => Blueprint.series_eq_error (hwindowed hlookback) hfault

/-- A price, an indicator whose window holds no bar, a price of the same name, a condition and a
purchase of the same id, and a purchase. -/
def untidyNodes : List Node :=
  [{ id := "price", kind := .inputPrice },
   { id := "mean", kind := .indicator, data := [("window", .ofInt 0)] },
   { id := "again", kind := .inputPrice }, { id := "gate", kind := .condition },
   { id := "gate", kind := .buy }, { id := "enter", kind := .buy }]

/-- The last edge leads to a node that is not there. -/
def untidyEdges : List Edge :=
  [{ id := "a", source := "price", target := "gate" },
   { id := "b", source := "mean", target := "gate" },
   { id := "c", source := "gate", target := "enter" },
   { id := "d", source := "gate", target := "leave" }]

theorem compile_wellFormed_untidy : ∃ b,
    compile {} (.ready untidyNodes) (.ready untidyEdges) .null = .ok b ∧
    b.entry.ids = ["price", "mean", "gate", "enter"] ∧ b.entry.entryIds = ["gate"] ∧
    b.producers.map Producer.outputKey = ["live_price", "indicator_output"] ∧
    (∃ g, Graph.Given (.ready untidyNodes) (.ready untidyEdges) g ∧ b.WellFormed g) ∧
    ∀ p ∈ b.producers, p.Windowed := by
  obtain ⟨b, h, hp⟩ := exists_ok_of_any
    (x := compile {} (.ready untidyNodes) (.ready untidyEdges) .null)
    (p := fun b => b.entry.ids = ["price", "mean", "gate", "enter"] ∧
      b.entry.entryIds = ["gate"] ∧
      b.producers.map Producer.outputKey = ["live_price", "indicator_output"])
    (by decide +kernel)
  obtain ⟨hids, hentry, hkeys⟩ := of_decide_eq_true hp
  obtain ⟨g, -, hg, -, -, hwellFormed, hwindowed, -⟩ := compile_wellFormed h
  exact ⟨b, h, hids, hentry, hkeys, ⟨g, hg, hwellFormed⟩, hwindowed (by decide)⟩

end StrategyGraph
