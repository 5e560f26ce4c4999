import StrategyGraph.Blueprint.Compile
import StrategyGraph.Proofs.Fault
import StrategyGraph.Proofs.Graph.Ancestors

/-!
# Graphs as they are read

A graph that was read from nodes and edges is proper, and a blueprint with nodes is made of such a
graph.

* `Graph.read` : the graph that nodes and edges are read as, without its warnings;
* `Graph.read_proper` : its nodes have distinct ids, and its edges lie between them;
* `compile_cases` : a compiled blueprint is empty or made of the graph that is read;
* `Graph.Given` : the graph that a blueprint is made of, read or empty;
* `Blueprint.parts_ofGraph` : the two sub-graphs of a blueprint.
-/

namespace StrategyGraph

/-! ### Nodes -/

namespace Node

variable {seen : List String} {entries : List (Json ⊕ Node)} {nodes : List Node}
  {warnings : List Warning}

/-- One entry is read: it is skipped with a warning, as it is no node or bears an id that was seen
before, or it is kept. -/
theorem readEntries_cons {entry : Json ⊕ Node}
    (h : readEntries seen (entry :: entries) = .ok (nodes, warnings)) :
    (∃ w rest, (readEntry entry = .ok (.error w) ∨
          ∃ n, readEntry entry = .ok (.ok n) ∧ n.id ∈ seen ∧ w = .duplicateNode n.id) ∧
        readEntries seen entries = .ok (nodes, rest) ∧ warnings = w :: rest) ∨
      ∃ n ns, readEntry entry = .ok (.ok n) ∧ n.id ∉ seen ∧
        readEntries (n.id :: seen) entries = .ok (ns, warnings) ∧ nodes = n :: ns := by
  rw [readEntries] at h
  obtain ⟨r, hentry, h⟩ := bind_eq_ok.1 h
  cases r with
  | error w =>
    obtain ⟨⟨ns, rest⟩, hrest, h⟩ := bind_eq_ok.1 h
    cases h
    exact .inl ⟨w, rest, .inl hentry, hrest, rfl⟩
  | ok n =>
    dsimp only at h
    split at h
    · next hseen =>
      obtain ⟨⟨ns, rest⟩, hrest, h⟩ := bind_eq_ok.1 h
      cases h
      exact .inl ⟨_, rest, .inr ⟨n, hentry, hseen, rfl⟩, hrest, rfl⟩
    · next hseen =>
      obtain ⟨⟨ns, rest⟩, hrest, h⟩ := bind_eq_ok.1 h
      cases h
      exact .inr ⟨n, ns, hentry, hseen, hrest, rfl⟩

/-- The ids of the nodes that are kept are new and distinct. -/
theorem readEntries_nodup (h : readEntries seen entries = .ok (nodes, warnings)) :
    (nodes.map Node.id).Nodup ∧ ∀ n ∈ nodes, n.id ∉ seen := by
  induction entries generalizing seen nodes warnings with
  | nil =>
    cases h
    simp
  | cons entry entries ih =>
    rcases readEntries_cons h with ⟨w, rest, -, hrest, -⟩ | ⟨n, ns, -, hseen, hrest, rfl⟩
    · exact ih hrest
    · obtain ⟨hnodup, hnew⟩ := ih hrest
      constructor
      · refine List.nodup_cons.2 ⟨fun hmem => ?_, hnodup⟩
        obtain ⟨m, hm, hid⟩ := List.mem_map.1 hmem
        exact hnew m hm (hid ▸ List.mem_cons_self)
      · refine List.forall_mem_cons.2 ⟨hseen, fun m hm hmem => ?_⟩
        exact hnew m hm (List.mem_cons_of_mem _ hmem)

/-- The node that is read from an entry, if it is one. -/
def readable? (entry : Json ⊕ Node) : Option Node :=
  match readEntry entry with
  | .ok (.ok n) => some n
  | _ => none

/-- The nodes that are kept stand in the order of their entries. -/
theorem readEntries_sublist (h : readEntries seen entries = .ok (nodes, warnings)) :
    nodes.Sublist (entries.filterMap readable?) := by
  induction entries generalizing seen nodes warnings with
  | nil =>
    cases h
    exact .slnil
  | cons entry entries ih =>
    rcases readEntries_cons h with ⟨w, rest, -, hrest, -⟩ | ⟨n, ns, hentry, -, hrest, rfl⟩
    · rw [List.filterMap_cons]
      split
      · exact ih hrest
      · exact (ih hrest).cons _
    · have hreadable : readable? entry = some n := by rw [readable?, hentry]
      rw [List.filterMap_cons_some hreadable]
      exact (ih hrest).cons_cons _

end Node

/-! ### Edges -/

namespace Edge

variable {nodeIds : List String} {index : Nat} {entries : List (Json ⊕ Edge)} {edges : List Edge}
  {warnings : List Warning}

theorem checkEnds_eq_ok {e e' : Edge}
    (h : checkEnds nodeIds e = .ok e') : e'.source ∈ nodeIds ∧ e'.target ∈ nodeIds := by
  rw [checkEnds] at h
  split at h
  · next hends =>
    cases h
    exact hends
  · cases h

/-- One entry is read: it is skipped with a warning, as it is no edge or has an unknown end, or it is
kept. -/
theorem readEntries_cons {entry : Json ⊕ Edge}
    (h : readEntries nodeIds index (entry :: entries) = .ok (edges, warnings)) :
    (∃ w rest, (readEntry index entry = .ok (.error w) ∨ ∃ e, checkEnds nodeIds e = .error w) ∧
        readEntries nodeIds (index + 1) entries = .ok (edges, rest) ∧ warnings = w :: rest) ∨
      ∃ e es, (e.source ∈ nodeIds ∧ e.target ∈ nodeIds) ∧
        readEntries nodeIds (index + 1) entries = .ok (es, warnings) ∧ edges = e :: es := by
  rw [readEntries] at h
  obtain ⟨r, hentry, h⟩ := bind_eq_ok.1 h
  obtain ⟨⟨es, rest⟩, hrest, h⟩ := bind_eq_ok.1 h
  cases r with
  | error w =>
    cases h
    exact .inl ⟨w, rest, .inl hentry, hrest, rfl⟩
  | ok e =>
    have hbind : (Except.ok e : Except Warning Edge).bind (checkEnds nodeIds) =
        checkEnds nodeIds e := rfl
    simp only [hbind] at h
    cases hcheck : checkEnds nodeIds e with
    | error w =>
      rw [hcheck] at h
      cases h
      exact .inl ⟨w, rest, .inr ⟨e, hcheck⟩, hrest, rfl⟩
    | ok e' =>
      rw [hcheck] at h
      cases h
      exact .inr ⟨e', es, checkEnds_eq_ok hcheck, hrest, rfl⟩

theorem readEntries_ends (h : readEntries nodeIds index entries = .ok (edges, warnings)) :
    ∀ e ∈ edges, e.source ∈ nodeIds ∧ e.target ∈ nodeIds := by
  induction entries generalizing index edges warnings with
  | nil =>
    cases h
    simp
  | cons entry entries ih =>
    rcases readEntries_cons h with ⟨w, rest, -, hrest, -⟩ | ⟨e, es, hends, hrest, rfl⟩
    · exact ih hrest
    · exact List.forall_mem_cons.2 ⟨hends, ih hrest⟩

end Edge

/-! ### Graphs -/

/-- The graph that nodes and edges are read as. -/
def Graph.read (nodes : Supply Node) (edges : Supply Edge) : Except Fault Graph := do
  let (nodes, _) ← Node.readAll (← nodes.entries)
  let (edges, _) ← Edge.readAll (nodes.map Node.id) (← edges.entries)
  pure ⟨nodes, edges⟩

variable {settings : Settings} {nodes : Supply Node} {edges : Supply Edge} {parameters : Json}
  {g : Graph} {b : Blueprint} {warnings : List Warning}

theorem Graph.read_eq_ok : Graph.read nodes edges = .ok g ↔
    ∃ entries nodeWarnings edgeEntries edgeWarnings,
      nodes.entries = .ok entries ∧ Node.readAll entries = .ok (g.nodes, nodeWarnings) ∧
      edges.entries = .ok edgeEntries ∧
      Edge.readAll g.ids edgeEntries = .ok (g.edges, edgeWarnings) := by
  constructor
  · intro h
    obtain ⟨entries, hentries, h⟩ := bind_eq_ok.1 h
    obtain ⟨⟨ns, nodeWarnings⟩, hnodes, h⟩ := bind_eq_ok.1 h
    obtain ⟨edgeEntries, hedgeEntries, h⟩ := bind_eq_ok.1 h
    obtain ⟨⟨es, edgeWarnings⟩, hedges, h⟩ := bind_eq_ok.1 h
    cases h
    exact ⟨entries, nodeWarnings, edgeEntries, edgeWarnings, hentries, hnodes, hedgeEntries, hedges⟩
  · rintro ⟨entries, nodeWarnings, edgeEntries, edgeWarnings, hentries, hnodes, hedgeEntries, hedges⟩
    refine bind_eq_ok.2 ⟨entries, hentries, bind_eq_ok.2 ⟨(g.nodes, nodeWarnings), hnodes, ?_⟩⟩
    exact bind_eq_ok.2 ⟨edgeEntries, hedgeEntries, bind_eq_ok.2 ⟨(g.edges, edgeWarnings), hedges, rfl⟩⟩

/-- **Graphs that were read are proper.** -/
theorem Graph.read_proper (h : Graph.read nodes edges = .ok g) : g.Proper := by
  obtain ⟨entries, nodeWarnings, edgeEntries, edgeWarnings, -, hnodes, -, hedges⟩ :=
    Graph.read_eq_ok.1 h
  have hends := Edge.readEntries_ends hedges
  exact ⟨(Node.readEntries_nodup hnodes).1, fun e he => (hends e he).1, fun e he => (hends e he).2⟩

/-! ### Blueprints -/

theorem Blueprint.parts_ofGraph
    (h : Blueprint.ofGraph settings g parameters warnings = .ok b) :
    b.entry = g.entryGraph.1 ∧ b.inTrade = (g.inTradeGraph settings).1 := by
  obtain ⟨snapshot, -, h⟩ := bind_eq_ok.1 h
  obtain ⟨⟨producers, producerWarnings⟩, -, h⟩ := bind_eq_ok.1 h
  obtain ⟨⟨conditions, conditionWarnings⟩, -, h⟩ := bind_eq_ok.1 h
  cases h
  exact ⟨rfl, rfl⟩

theorem Supply.entries_of_isEmpty {α : Type} {s : Supply α} (h : s.isEmpty = true) :
    s.entries = .ok [] := by
  cases s with
  | payload raw =>
    have hfalsy : raw.isTruthy = false := by simpa [Supply.isEmpty] using h
    simp [Supply.entries, Json.itemsIfAny, hfalsy, Except.map]
  | ready items =>
    obtain rfl : items = [] := by simpa [Supply.isEmpty] using h
    rfl

/-- A blueprint is empty, as no node could be read, or it is made of the nodes and edges that are
read. -/
theorem compile_cases (h : compile settings nodes edges parameters = .ok b) :
    (∃ entries nodeWarnings w, nodes.entries = .ok entries ∧
        Node.readAll entries = .ok ([], nodeWarnings) ∧ (w = .noNodes ∨ w = .noUsableNodes) ∧
        b = { warnings := nodeWarnings ++ [w] }) ∨
      ∃ entries ns nodeWarnings edgeEntries es edgeWarnings, nodes.entries = .ok entries ∧
        Node.readAll entries = .ok (ns, nodeWarnings) ∧ ns ≠ [] ∧ edges.entries = .ok edgeEntries ∧
        Edge.readAll (ns.map Node.id) edgeEntries = .ok (es, edgeWarnings) ∧
        Blueprint.ofGraph settings ⟨ns, es⟩ parameters (nodeWarnings ++ edgeWarnings) = .ok b := by
  rw [compile] at h
  split at h
  · next hempty =>
    cases h
    exact .inl ⟨[], [], .noNodes, Supply.entries_of_isEmpty hempty, rfl, .inl rfl, rfl⟩
  · obtain ⟨entries, hentries, h⟩ := bind_eq_ok.1 h
    obtain ⟨⟨ns, nodeWarnings⟩, hns, h⟩ := bind_eq_ok.1 h
    dsimp only at h
    split at h
    · next hnil =>
      obtain rfl := List.isEmpty_iff.1 hnil
      cases h
      exact .inl ⟨entries, nodeWarnings, .noUsableNodes, hentries, hns, .inr rfl, rfl⟩
    · next hne =>
      obtain ⟨edgeEntries, hedgeEntries, h⟩ := bind_eq_ok.1 h
      obtain ⟨⟨es, edgeWarnings⟩, hes, h⟩ := bind_eq_ok.1 h
      exact .inr ⟨entries, ns, nodeWarnings, edgeEntries, es, edgeWarnings, hentries, hns,
        by simpa using hne, hedgeEntries, hes, h⟩

theorem exists_ofGraph_of_compile (h : compile settings nodes edges parameters = .ok b)
    (hread : Graph.read nodes edges = .ok g) (hnodes : g.nodes ≠ []) :
    ∃ warnings, Blueprint.ofGraph settings g parameters warnings = .ok b := by
  obtain ⟨entries, nodeWarnings, edgeEntries, edgeWarnings, hentries, hns, hedgeEntries, hes⟩ :=
    Graph.read_eq_ok.1 hread
  rcases compile_cases h with ⟨_, _, _, hentries', hns', -, -⟩ |
    ⟨_, _, _, _, _, _, hentries', hns', -, hedgeEntries', hes', hgraph⟩
  · cases hentries.symm.trans hentries'
    exact absurd (congrArg Prod.fst (Except.ok.inj (hns.symm.trans hns'))) hnodes
  · cases hentries.symm.trans hentries'
    cases hns.symm.trans hns'
    cases hedgeEntries.symm.trans hedgeEntries'
    cases hes.symm.trans hes'
    exact ⟨_, hgraph⟩

/-! ### The graph of a blueprint -/

/-- The graph that nodes and edges give a blueprint: the one that is read, or if no node can be read
an empty one, for which edges are not looked at. -/
inductive Graph.Given (nodes : Supply Node) (edges : Supply Edge) : Graph → Prop
  /-- The graph is read. -/
  | read {g : Graph} (h : Graph.read nodes edges = .ok g) : Given nodes edges g
  /-- No node can be read. -/
  | empty {entries : List (Json ⊕ Node)} {warnings : List Warning}
      (hentries : nodes.entries = .ok entries) (h : Node.readAll entries = .ok ([], warnings)) :
      Given nodes edges ⟨[], []⟩

theorem Graph.Given.proper (h : Graph.Given nodes edges g) : g.Proper := by
  cases h with
  | read h => exact Graph.read_proper h
  | empty => exact ⟨by simp [Graph.ids], by simp, by simp⟩

theorem Graph.Given.sublist (h : Graph.Given nodes edges g) :
    ∃ entries, nodes.entries = .ok entries ∧
      g.nodes.Sublist (entries.filterMap Node.readable?) := by
  cases h with
  | read h =>
    obtain ⟨entries, _, _, _, hentries, hns, -, -⟩ := Graph.read_eq_ok.1 h
    exact ⟨entries, hentries, Node.readEntries_sublist hns⟩
  | @empty entries _ hentries => exact ⟨entries, hentries, List.nil_sublist _⟩

theorem Graph.Given.eq_of_read (h : Graph.Given nodes edges g) {g' : Graph}
    (hread : Graph.read nodes edges = .ok g') : g = g' := by
  cases h with
  | read h => exact Except.ok.inj (h.symm.trans hread)
  | empty hentries h =>
    obtain ⟨entries, _, _, _, hentries', hns, -, -⟩ := Graph.read_eq_ok.1 hread
    cases hentries.symm.trans hentries'
    have hnil : [] = g'.nodes := congrArg Prod.fst (Except.ok.inj (h.symm.trans hns))
    have hedges : g'.edges = [] := List.eq_nil_iff_forall_not_mem.2 fun e he => by
      have hsource := (Graph.read_proper hread).source e he
      simp [Graph.ids, ← hnil] at hsource
    have heta : g' = ⟨g'.nodes, g'.edges⟩ := rfl
    rw [heta, ← hnil, hedges]

end StrategyGraph
