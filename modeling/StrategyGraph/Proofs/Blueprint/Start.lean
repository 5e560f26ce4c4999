import StrategyGraph.Proofs.Blueprint.Cycle
import StrategyGraph.Proofs.Blueprint.Entry
import StrategyGraph.Proofs.Blueprint.InTrade

/-!
# Where walks begin

Without marked conditions and without cycles, a walk through the entry graph begins at a root: a
condition to which no other one leads directly. If there are further roots, the blueprint warns of
them.

* `SubGraph.BeginsAtRoot` : a walk begins at the only root, or a warning lists all roots;
* `Graph.choosesRoot_chooseEntry` : the condition that is chosen where none is marked;
* `Blueprint.MadeOf.beginsAtRoot` : walks through the entry graph begin at a root;
* `conditions_reached` : **without a warning, every condition is reached from where walks begin**, and
  every condition of an exit from sales is;
* `entry_unguarded` : **no condition leads to the chosen one directly, and if one leads to it in
  another way, the blueprint warns of it.**
-/

namespace StrategyGraph

/-- The warning says that the condition at which a walk begins is ambiguous. -/
def Warning.isAmbiguous : Warning → Bool
  | severalRoots .. | noRoot .. => true
  | _ => false

/-- The start is the only root, or the first of those that a warning lists. -/
def ChoosesRoot (roots : List String) (start : String) (warnings : List Warning) : Prop :=
  start ∈ roots ∧ ((∀ root ∈ roots, root = start) ∨
    ∃ ids, .severalRoots ids start ∈ warnings ∧ ∀ root ∈ roots, root ∈ ids)

/-- In which order the roots stand does not matter. -/
theorem ChoosesRoot.congr {roots roots' : List String} {start : String} {warnings : List Warning}
    (h : ChoosesRoot roots start warnings) (hroots : ∀ id, id ∈ roots' ↔ id ∈ roots) :
    ChoosesRoot roots' start warnings := by
  simpa only [ChoosesRoot, hroots] using h

/-- A walk begins at one place only, which is a root. -/
def SubGraph.BeginsAtRoot (s : SubGraph) (warnings : List Warning) : Prop :=
  ∃ start, s.entryIds = [start] ∧ ChoosesRoot s.roots start warnings

namespace Graph

variable {g : Graph} {buy : Node} {id first : String}
  {others edgeIds starts entryIds : List String}

/-- Where no condition is marked, a root is chosen if there is one. -/
theorem choosesRoot_chooseEntry (hmaster : ∀ id ∈ first :: others, g.isMaster id = false)
    (hroot : id ∈ g.roots (first :: others) edgeIds) :
    ChoosesRoot (g.roots (first :: others) edgeIds) (g.chooseEntry first others edgeIds).1
      (g.chooseEntry first others edgeIds).2 := by
  have hnone : (first :: others).filter g.isMaster = [] :=
    List.filter_eq_nil_iff.2 fun id hid => by simp [hmaster id hid]
  rw [chooseEntry, hnone]
  dsimp only
  split
  · next hempty =>
    obtain rfl := List.isEmpty_iff.1 hempty
    have honly : ∀ root ∈ g.roots [first] edgeIds, root = first := fun root hmem =>
      List.mem_singleton.1 (List.mem_filter.1 hmem).1
    exact ⟨honly id hroot ▸ hroot, .inl honly⟩
  · split
    · next root hone =>
      rw [hone]
      exact ⟨List.mem_cons_self, .inl fun _ hmem => List.mem_singleton.1 hmem⟩
    · next root roots _ hmany =>
      rw [hmany]
      exact ⟨List.mem_cons_self, .inr ⟨_, List.mem_cons_self, fun _ hmem => hmem⟩⟩
    · next hnoRoot =>
      rw [hnoRoot] at hroot
      cases hroot

theorem mem_conditionIds_partTo (h : g.Proper) : id ∈ g.conditionsAmong (g.ancestors starts) ↔
    id ∈ (g.partTo starts entryIds).conditionIds := by
  rw [mem_conditionsAmong h, SubGraph.mem_conditionIds]
  constructor
  · rintro ⟨hid, n, hn, rfl, hkind⟩
    exact ⟨n, mem_nodes_part.2 ⟨hn, hid⟩, rfl, hkind⟩
  · rintro ⟨n, hn, rfl, hkind⟩
    exact ⟨(mem_nodes_part.1 hn).2, n, (mem_nodes_part.1 hn).1, rfl, hkind⟩

theorem entryPart_of_cons (h : g.conditionsAmong (g.ancestors [buy.id]) = first :: others) :
    ∃ chosen, g.chooseEntry first others (g.edgeIdsInto (g.ancestors [buy.id])) = chosen ∧
      g.entryPart buy = (g.partTo [buy.id] [chosen.1], chosen.2) := by
  refine ⟨_, rfl, ?_⟩
  rw [entryPart]
  dsimp only
  rw [h]
  rfl

theorem beginsAtRoot_entryPart (h : g.Proper) (hacyclic : (g.entryPart buy).1.Acyclic)
    (hmaster : ∀ n ∈ (g.entryPart buy).1.nodes, n.kind = .condition → n.isMaster = false)
    (hcondition : (g.entryPart buy).1.conditionIds ≠ []) :
    (g.entryPart buy).1.BeginsAtRoot (g.entryPart buy).2 := by
  cases hconditions : g.conditionsAmong (g.ancestors [buy.id]) with
  | nil =>
    -- A condition of the part would be among those that lead to the purchase.
    obtain ⟨entryIds, hpart, -⟩ := entryPart_fst g buy
    obtain ⟨id, hid⟩ := List.exists_mem_of_ne_nil _ hcondition
    rw [hpart] at hid
    have hnone := (mem_conditionIds_partTo h).2 hid
    rw [hconditions] at hnone
    cases hnone
  | cons first others =>
    obtain ⟨chosen, hchosen, hpart⟩ := entryPart_of_cons hconditions
    rw [hpart] at hacyclic hmaster ⊢
    dsimp only at hacyclic hmaster ⊢
    set s := g.partTo [buy.id] [chosen.1]
    have hmem : ∀ id, id ∈ first :: others ↔ id ∈ s.conditionIds := fun id =>
      hconditions ▸ mem_conditionIds_partTo h
    have hunmarked : ∀ id ∈ first :: others, g.isMaster id = false := by
      intro id hid
      obtain ⟨n, hn, rfl, hkind⟩ := SubGraph.mem_conditionIds.1 ((hmem id).1 hid)
      rw [isMaster, h.node?_id (mem_nodes_part.1 hn).1]
      exact hmaster n hn hkind
    have hroots : ∀ id, id ∈ s.roots ↔
        id ∈ g.roots (first :: others) (g.edgeIdsInto (g.ancestors [buy.id])) := by
      intro id
      rw [roots_partTo h hmem, List.mem_filter, hmem, decide_eq_true_iff, SubGraph.mem_roots]
    -- Without cycles there is a root.
    obtain ⟨root, hroot, -⟩ := SubGraph.exists_root hacyclic ((hmem first).1 List.mem_cons_self)
    have hchoice := choosesRoot_chooseEntry hunmarked ((hroots root).1 hroot)
    rw [hchosen] at hchoice
    exact ⟨chosen.1, rfl, hchoice.congr hroots⟩

end Graph

/-- A blueprint begins at a root of its entry graph, if that has conditions but no cycle, and none of
them is marked. -/
theorem Blueprint.MadeOf.beginsAtRoot {settings : Settings} {g : Graph} {b : Blueprint}
    (h : b.MadeOf settings g) (hg : g.Proper) (hacyclic : b.entry.Acyclic)
    (hmaster : ∀ n ∈ b.entry.nodes, n.kind = .condition → n.isMaster = false)
    (hcondition : b.entry.conditionIds ≠ []) : b.entry.BeginsAtRoot b.warnings := by
  have hnodes : b.entry.nodes ≠ [] := by
    rintro hnil
    simp [SubGraph.conditionIds, hnil] at hcondition
  rcases g.entryGraph_cases with hempty | ⟨buy, hpart, hwarnings⟩
  · rw [h.entry, hempty] at hnodes
    exact absurd rfl hnodes
  · have hentry : b.entry = (g.entryPart buy).1 := h.entry.trans hpart
    have hwarns : ∀ w ∈ (g.entryPart buy).2, w ∈ b.warnings := fun w hw =>
      h.warns_entry hnodes w (hwarnings w hw)
    rw [hentry] at hacyclic hmaster hcondition ⊢
    obtain ⟨start, hids, hstart, hroots⟩ :=
      Graph.beginsAtRoot_entryPart hg hacyclic hmaster hcondition
    refine ⟨start, hids, hstart, hroots.imp_right ?_⟩
    rintro ⟨ids, hseveral, hlisted⟩
    exact ⟨ids, hwarns _ hseveral, hlisted⟩

/-- A part of which no cycle is reported has none. -/
theorem Blueprint.MadeOf.acyclic {settings : Settings} {g : Graph} {b : Blueprint}
    (h : b.MadeOf settings g) (hg : g.Proper) {part : Part}
    (hcycle : ∀ id, .cycle part id ∉ b.warnings) : (b.subGraph part).Acyclic := by
  refine SubGraph.acyclic_of_cycle? (h.closed hg part) (Option.eq_none_iff_forall_not_mem.2 ?_)
  exact fun id hid => hcycle id ((h.warns_cycle part id).2 hid)

variable {settings : Settings} {nodes : Supply Node} {edges : Supply Edge} {parameters : Json}
  {b : Blueprint}

/-- **No condition is left out without a warning.** Where no condition of the entry graph is marked,
and the blueprint warns neither of an ambiguous entry nor of a cycle, each condition of the entry
graph is reached from the entry along edges that join conditions. Where the exit is taken from sales
and the blueprint warns of no cycle in it, each condition is reached so from one of the entries. -/
theorem conditions_reached (h : compile settings nodes edges parameters = .ok b) :
    ∃ g, Graph.Given nodes edges g ∧
      ((∀ n ∈ b.entry.nodes, n.kind = .condition → n.isMaster = false) →
        (∀ w ∈ b.warnings, w.isAmbiguous = false) → (∀ id, .cycle .entry id ∉ b.warnings) →
        ∀ n ∈ b.entry.nodes, n.kind = .condition →
          ∃ start, b.entry.entryIds = [start] ∧ Relation.ReflTransGen b.entry.Joins start n.id) ∧
      (g.inTradeBlock? = none → (∀ id, .cycle .inTrade id ∉ b.warnings) →
        ∀ n ∈ b.inTrade.nodes, n.kind = .condition →
          ∃ start ∈ b.inTrade.entryIds, Relation.ReflTransGen b.inTrade.Joins start n.id) := by
  obtain ⟨g, hg, hmade⟩ := exists_madeOf h
  refine ⟨g, hg, fun hmaster hambiguous hcycle n hn hkind => ?_,
    fun hblock hcycle n hn hkind => ?_⟩
  · have hid : n.id ∈ b.entry.conditionIds := SubGraph.mem_conditionIds.2 ⟨n, hn, rfl, hkind⟩
    have hacyclic : b.entry.Acyclic := hmade.acyclic hg.proper hcycle
    obtain ⟨start, hids, -, honly | ⟨ids, hseveral, -⟩⟩ :=
      hmade.beginsAtRoot hg.proper hacyclic hmaster (List.ne_nil_of_mem hid)
    · obtain ⟨root, hroot, hpath⟩ := SubGraph.exists_root hacyclic hid
      exact ⟨start, hids, honly root hroot ▸ hpath⟩
    · cases hambiguous _ hseveral
  · have hid : n.id ∈ b.inTrade.conditionIds := SubGraph.mem_conditionIds.2 ⟨n, hn, rfl, hkind⟩
    have hacyclic : b.inTrade.Acyclic := hmade.acyclic hg.proper hcycle
    have hsales : g.ToSales b.inTrade := hmade.inTrade ▸ Graph.toSales_inTradeGraph hg.proper hblock
    obtain ⟨root, hroot, hpath⟩ := SubGraph.exists_root hacyclic hid
    have hroots : b.inTrade.entryIds = b.inTrade.roots := by
      rw [hsales.entryIds, if_neg (by simpa using List.ne_nil_of_mem hroot)]
    exact ⟨root, hroots ▸ hroot, hpath⟩

/-- A condition before another one, which leads to the purchase and to a sale, to which a third
condition leads too. -/
def chainNodes : List Node :=
  [{ id := "check", kind := .condition }, { id := "enter", kind := .buy },
   { id := "gate", kind := .condition }, { id := "leave", kind := .sell },
   { id := "stop", kind := .condition }]

/-- The first condition leads to the purchase also without the second one. -/
def chainEdges : List Edge :=
  [{ id := "a", source := "gate", target := "enter" },
   { id := "b", source := "gate", target := "check" },
   { id := "c", source := "check", target := "enter" },
   { id := "d", source := "check", target := "leave" },
   { id := "e", source := "stop", target := "leave" }]

theorem conditions_reached_chain : ∃ b,
    compile {} (.ready chainNodes) (.ready chainEdges) .null = .ok b ∧
    (∃ start, b.entry.entryIds = [start] ∧ Relation.ReflTransGen b.entry.Joins start "check") ∧
    ∃ start ∈ b.inTrade.entryIds, Relation.ReflTransGen b.inTrade.Joins start "check" := by
  obtain ⟨b, h, hp⟩ := exists_ok_of_any
    (x := compile {} (.ready chainNodes) (.ready chainEdges) .null)
    (p := fun b => (∀ n ∈ b.entry.nodes, n.kind = .condition → n.isMaster = false) ∧
      (∀ w ∈ b.warnings, w.isAmbiguous = false ∧ w.topic ≠ .cycles) ∧
      (∃ n ∈ b.entry.nodes, n.kind = .condition ∧ n.id = "check") ∧
      ∃ n ∈ b.inTrade.nodes, n.kind = .condition ∧ n.id = "check") (by decide)
  obtain ⟨hmaster, hwarnings, ⟨n, hn, hkind, hid⟩, ⟨m, hm, hkind', hid'⟩⟩ := of_decide_eq_true hp
  have hcycle : ∀ part id, Warning.cycle part id ∉ b.warnings := fun part id hw =>
    (hwarnings _ hw).2 rfl
  obtain ⟨g, hg, hentry, hinTrade⟩ := conditions_reached h
  obtain rfl : g = ⟨chainNodes, chainEdges⟩ := hg.eq_of_read rfl
  refine ⟨b, h, ?_, ?_⟩
  · exact hid ▸ hentry hmaster (fun w hw => (hwarnings w hw).1) (hcycle .entry) n hn hkind
  · exact hid' ▸ hinTrade (by decide) (hcycle .inTrade) m hm hkind'

/-- **No condition leads directly to the one at which walks through the entry graph begin**, if there
is no cycle and none is marked. If another condition leads to it through other nodes, the blueprint
warns of several roots, and one of them leads to that condition. -/
theorem entry_unguarded (h : compile settings nodes edges parameters = .ok b)
    (hacyclic : b.entry.Acyclic)
    (hmaster : ∀ n ∈ b.entry.nodes, n.kind = .condition → n.isMaster = false)
    (hcondition : ∃ n ∈ b.entry.nodes, n.kind = .condition) :
    ∃ start ∈ b.entry.conditionIds, b.entry.entryIds = [start] ∧
      ∀ n ∈ b.entry.nodes, n.kind = .condition → n.id ≠ start →
        ¬b.entry.Leads n.id start ∧
        (Relation.ReflTransGen b.entry.Leads n.id start →
          ∃ ids, .severalRoots ids start ∈ b.warnings ∧
            ∃ root ∈ ids, root ≠ start ∧ Relation.ReflTransGen b.entry.Joins root n.id) := by
  obtain ⟨g, hg, hmade⟩ := exists_madeOf h
  obtain ⟨m, hm, hmkind⟩ := hcondition
  have hsome : m.id ∈ b.entry.conditionIds := SubGraph.mem_conditionIds.2 ⟨m, hm, rfl, hmkind⟩
  obtain ⟨start, hids, hstart, hroots⟩ :=
    hmade.beginsAtRoot hg.proper hacyclic hmaster (List.ne_nil_of_mem hsome)
  obtain ⟨hstart, hroot⟩ := SubGraph.mem_roots.1 hstart
  refine ⟨start, hstart, hids, fun n hn hkind hother => ⟨?_, fun hpath => ?_⟩⟩
  · rintro ⟨e, he, hsource, htarget⟩
    have hid : e.source ∈ b.entry.conditionIds :=
      SubGraph.mem_conditionIds.2 ⟨n, hn, hsource.symm, hkind⟩
    exact hother (hsource ▸ hroot e he htarget hid)
  · -- A root that leads to the condition leads on to the start, so it is another root.
    have hid : n.id ∈ b.entry.conditionIds := SubGraph.mem_conditionIds.2 ⟨n, hn, rfl, hkind⟩
    obtain ⟨top, htop, htoppath⟩ := SubGraph.exists_root hacyclic hid
    have hne : top ≠ start := by
      rintro rfl
      rcases Relation.reflTransGen_iff_eq_or_transGen.1 hpath with heq | hback
      · exact hother heq.symm
      · exact hacyclic top (.trans_right (SubGraph.leads_of_joins htoppath) hback)
    rcases hroots with honly | ⟨ids, hseveral, hlisted⟩
    · exact absurd (honly top htop) hne
    · exact ⟨ids, hseveral, top, hlisted top htop, hne, htoppath⟩

/-- A condition that leads to another one only through a node that names a series. -/
def setterNodes : List Node :=
  [{ id := "gate", kind := .condition }, { id := "name", kind := .setParameter },
   { id := "check", kind := .condition }, { id := "enter", kind := .buy }]

/-- The edges lead from each node to the next one. -/
def setterEdges : List Edge :=
  [{ id := "a", source := "gate", target := "name" },
   { id := "b", source := "name", target := "check" },
   { id := "c", source := "check", target := "enter" }]

/-- The walk begins behind the first condition. -/
theorem compile_setter : ∃ b, compile {} (.ready setterNodes) (.ready setterEdges) .null = .ok b ∧
    b.entry.Acyclic ∧ (∀ n ∈ b.entry.nodes, n.kind = .condition → n.isMaster = false) ∧
    b.entry.entryIds = ["check"] ∧
    ∃ n ∈ b.entry.nodes, n.kind = .condition ∧ n.id ≠ "check" ∧
      Relation.TransGen b.entry.Leads n.id "check" := by
  obtain ⟨b, h, hp⟩ := exists_ok_of_any
    (x := compile {} (.ready setterNodes) (.ready setterEdges) .null)
    (p := fun b => b.entry.cycle? = none ∧
      (∀ n ∈ b.entry.nodes, n.kind = .condition → n.isMaster = false) ∧
      b.entry.entryIds = ["check"] ∧ b.entry.edges = setterEdges ∧
      ∃ n ∈ b.entry.nodes, n.kind = .condition ∧ n.id = "gate") (by decide)
  obtain ⟨hcycle, hmaster, hentry, hedges, n, hn, hkind, hid⟩ := of_decide_eq_true hp
  obtain ⟨g, hg, hmade⟩ := exists_madeOf h
  refine ⟨b, h, SubGraph.acyclic_of_cycle? (hmade.closed hg.proper .entry) hcycle, hmaster, hentry,
    n, hn, hkind, by simp [hid], ?_⟩
  have hfirst : b.entry.Leads n.id "name" :=
    ⟨⟨"a", "gate", "name", none, none⟩, by simp [hedges, setterEdges], hid.symm, rfl⟩
  have hsecond : b.entry.Leads "name" "check" :=
    ⟨⟨"b", "name", "check", none, none⟩, by simp [hedges, setterEdges], rfl, rfl⟩
  exact .tail (.single hfirst) hsecond

theorem entry_unguarded_setter : ∃ b,
    compile {} (.ready setterNodes) (.ready setterEdges) .null = .ok b ∧
    ∃ ids, .severalRoots ids "check" ∈ b.warnings ∧ ∃ root ∈ ids, root ≠ "check" := by
  obtain ⟨b, h, hacyclic, hmaster, hentry, n, hn, hkind, hother, hpath⟩ := compile_setter
  obtain ⟨start, -, hids, hguards⟩ := entry_unguarded h hacyclic hmaster ⟨n, hn, hkind⟩
  obtain rfl : "check" = start := by simpa [hentry] using hids
  obtain ⟨ids, hseveral, root, hroot, hne, -⟩ := (hguards n hn hkind hother).2 hpath.to_reflTransGen
  exact ⟨b, h, ids, hseveral, root, hroot, hne⟩

/-- A condition may be left out although it leads to the one at which the walk begins. -/
theorem entry_guarded_through_setter :
    ¬∀ (settings : Settings) (nodes : Supply Node) (edges : Supply Edge) (parameters : Json)
      (b : Blueprint), compile settings nodes edges parameters = .ok b → b.entry.Acyclic →
      (∃ n ∈ b.entry.nodes, n.kind = .condition) →
      (∀ n ∈ b.entry.nodes, n.kind = .condition → n.isMaster = false) →
      ∀ start ∈ b.entry.entryIds, ∀ n ∈ b.entry.nodes, n.kind = .condition → n.id ≠ start →
        ¬Relation.TransGen b.entry.Leads n.id start := by
  intro hunguarded
  obtain ⟨b, h, hacyclic, hmaster, hentry, n, hn, hkind, hother, hpath⟩ := compile_setter
  exact hunguarded _ _ _ _ b h hacyclic ⟨n, hn, hkind⟩ hmaster "check" (by simp [hentry]) n hn hkind
    hother hpath

end StrategyGraph
