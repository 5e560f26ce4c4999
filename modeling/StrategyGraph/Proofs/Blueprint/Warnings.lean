import StrategyGraph.Proofs.Blueprint.Reading

/-!
# What warnings are about

Every stage of compiling warns about its own subject, so a warning tells which stage gave it.

* `Warning.topic` : the subject of a warning;
* `Warning.About` : all warnings of a list have one subject;
* `Blueprint.warnings_ofGraph` : the warnings of a blueprint, stage by stage;
* `Blueprint.MadeOf` : a blueprint has the sub-graphs of a graph, and warns of their cycles;
* `exists_madeOf` : **a blueprint is made of the graph that it is given.**
-/

namespace StrategyGraph

namespace Warning

/-- What a warning is about. -/
inductive Topic where
  /-- The list of nodes. -/
  | nodes
  /-- The list of edges. -/
  | edges
  /-- The series that nodes make. -/
  | series
  /-- Operands and operators. -/
  | conditions
  /-- The entry graph. -/
  | entry
  /-- The in-trade graph. -/
  | inTrade
  /-- Cycles. -/
  | cycles
  /-- The list of prices. -/
  | prices
  deriving DecidableEq

/-- The subject of a warning. -/
def topic : Warning → Topic
  | noNodes | noUsableNodes | notANode .. | nodeWithoutId | unknownNodeType .. | duplicateNode .. =>
    .nodes
  | notAnEdge .. | edgeWithoutEnds .. | danglingEdge .. => .edges
  | invalidLookback .. | unnamedOutput .. | unknownIndicator .. | outputTaken .. => .series
  | deletedParameter .. | noOperand .. | noOperator .. => .conditions
  | noBuy | severalBuys .. | buyUnreached .. | severalMasters .. | severalRoots .. | noRoot .. =>
    .entry
  | severalBlocks .. | blockWithoutConditions .. | noExit | exitFromSells => .inTrade
  | cycle .. => .cycles
  | droppedPrices .. => .prices

/-- All warnings have the subject. -/
def About (t : Topic) (warnings : List Warning) : Prop := ∀ w ∈ warnings, w.topic = t

variable {t : Topic} {w : Warning} {ws ws' : List Warning}

@[simp] theorem about_nil : About t [] := fun _ h => absurd h List.not_mem_nil

@[simp] theorem about_cons : About t (w :: ws) ↔ w.topic = t ∧ About t ws := List.forall_mem_cons

@[simp] theorem about_append : About t (ws ++ ws') ↔ About t ws ∧ About t ws' :=
  List.forall_mem_append

end Warning

variable {settings : Settings} {g : Graph} {warnings : List Warning}

/-! ### Nodes and edges -/

namespace Node

theorem topic_read {j : Json} {w : Warning} (h : read j = .ok (.error w)) : w.topic = .nodes := by
  unfold read at h
  split at h
  · dsimp only at h
    split at h
    · cases h
      rfl
    · split at h
      · cases h
        rfl
      · obtain ⟨position, -, h⟩ := bind_eq_ok.1 h
        obtain ⟨size, -, h⟩ := bind_eq_ok.1 h
        cases h
  · cases h
    rfl

theorem about_readEntries {seen : List String} {entries : List (Json ⊕ Node)} {nodes : List Node}
    (h : readEntries seen entries = .ok (nodes, warnings)) : Warning.About .nodes warnings := by
  induction entries generalizing seen nodes warnings with
  | nil =>
    cases h
    exact Warning.about_nil
  | cons entry entries ih =>
    rcases readEntries_cons h with ⟨w, rest, hw, hrest, rfl⟩ | ⟨n, ns, -, -, hrest, -⟩
    · refine Warning.about_cons.2 ⟨?_, ih hrest⟩
      rcases hw with hentry | ⟨n, -, -, rfl⟩
      · cases entry with
        | inl j => exact topic_read hentry
        | inr n => cases hentry
      · rfl
    · exact ih hrest

end Node

namespace Edge

theorem topic_read {index : Nat} {j : Json} {w : Warning} (h : read index j = .ok (.error w)) :
    w.topic = .edges := by
  unfold read at h
  split at h
  · obtain ⟨⟨source, target, handle⟩, -, h⟩ := bind_eq_ok.1 h
    dsimp only at h
    split at h
    · cases h
    · cases h
      rfl
  · cases h
    rfl

theorem topic_checkEnds {nodeIds : List String} {e : Edge} {w : Warning}
    (h : checkEnds nodeIds e = .error w) : w.topic = .edges := by
  rw [checkEnds] at h
  split at h
  · cases h
  · cases h
    rfl

theorem about_readEntries {nodeIds : List String} {index : Nat} {entries : List (Json ⊕ Edge)}
    {edges : List Edge} (h : readEntries nodeIds index entries = .ok (edges, warnings)) :
    Warning.About .edges warnings := by
  induction entries generalizing index edges warnings with
  | nil =>
    cases h
    exact Warning.about_nil
  | cons entry entries ih =>
    rcases readEntries_cons h with ⟨w, rest, hw, hrest, rfl⟩ | ⟨e, es, -, hrest, -⟩
    · refine Warning.about_cons.2 ⟨?_, ih hrest⟩
      rcases hw with hentry | ⟨e, hcheck⟩
      · cases entry with
        | inl j => exact topic_read hentry
        | inr e => cases hentry
      · exact topic_checkEnds hcheck
    · exact ih hrest

end Edge

/-! ### Series and conditions -/

namespace Producer

variable {n : Node} {snapshot : Snapshot}

theorem about_window {window : Int} (h : Producer.window settings snapshot n = .ok (window, warnings)) :
    Warning.About .series warnings := by
  obtain ⟨candidates, -, h⟩ := bind_eq_ok.1 h
  obtain ⟨found, -, h⟩ := bind_eq_ok.1 h
  cases found with
  | some window =>
    cases h
    exact Warning.about_nil
  | none =>
    cases h
    cases candidates.head? <;> simp [Warning.topic]

theorem about_outputKey? {default key : String} (h : outputKey? g n default = .ok (key, warnings)) :
    Warning.About .series warnings := by
  rw [outputKey?] at h
  split at h
  · cases h
    exact Warning.about_nil
  · obtain ⟨slot, -, h⟩ := bind_eq_ok.1 h
    split at h
    · cases h
      exact Warning.about_nil
    · cases h
      simp [Warning.topic]

theorem about_indicatorKind (n : Node) : Warning.About .series (indicatorKind n).2 := by
  rw [indicatorKind]
  split <;> simp [Warning.topic]

theorem about_read {p : Producer} (h : read settings g snapshot n = .ok (p, warnings)) :
    Warning.About .series warnings := by
  rw [read] at h
  split at h
  · obtain ⟨⟨key, keyWarnings⟩, hkey, h⟩ := bind_eq_ok.1 h
    cases h
    exact about_outputKey? hkey
  · obtain ⟨⟨key, keyWarnings⟩, hkey, h⟩ := bind_eq_ok.1 h
    obtain ⟨⟨window, windowWarnings⟩, hwindow, h⟩ := bind_eq_ok.1 h
    cases h
    simp only [Warning.about_append]
    exact ⟨⟨about_indicatorKind n, about_outputKey? hkey⟩, about_window hwindow⟩

theorem about_readNodes {taken : List String} {nodes : List Node} {producers : List Producer}
    (h : readNodes settings g snapshot taken nodes = .ok (producers, warnings)) :
    Warning.About .series warnings := by
  induction nodes generalizing taken producers warnings with
  | nil =>
    cases h
    exact Warning.about_nil
  | cons n ns ih =>
    rw [readNodes] at h
    split at h
    · exact ih h
    · obtain ⟨⟨p, own⟩, hread, h⟩ := bind_eq_ok.1 h
      dsimp only at h
      split at h
      · obtain ⟨⟨ps, rest⟩, hrest, h⟩ := bind_eq_ok.1 h
        cases h
        simp only [Warning.about_append, Warning.about_cons]
        exact ⟨about_read hread, rfl, ih hrest⟩
      · obtain ⟨⟨ps, rest⟩, hrest, h⟩ := bind_eq_ok.1 h
        cases h
        exact Warning.about_append.2 ⟨about_read hread, ih hrest⟩

end Producer

namespace Condition

variable {snapshot : Snapshot} {keys : List String}

theorem about_resolve (nodeId : String) (b : Binding) :
    Warning.About .conditions (resolve snapshot keys nodeId b).2 := by
  rw [resolve]
  repeat' split
  all_goals simp [Warning.topic]

theorem about_operand (nodeId : String) (side : Side) (slot : Option Variable) :
    Warning.About .conditions (operand snapshot keys nodeId side slot).2 := by
  rw [operand]
  split
  · simp [Warning.topic]
  · exact about_resolve nodeId _

theorem about_read {n : Node} {c : Condition} (h : read snapshot keys n = .ok (c, warnings)) :
    Warning.About .conditions warnings := by
  obtain ⟨slots, -, h⟩ := bind_eq_ok.1 h
  obtain ⟨operator, -, h⟩ := bind_eq_ok.1 h
  cases h
  simp only [Warning.about_append]
  refine ⟨⟨about_operand _ _ _, about_operand _ _ _⟩, ?_⟩
  split <;> simp [Warning.topic]

theorem about_readNodes {nodes : List Node} {conditions : List Condition}
    (h : readNodes snapshot keys nodes = .ok (conditions, warnings)) :
    Warning.About .conditions warnings := by
  induction nodes generalizing conditions warnings with
  | nil =>
    cases h
    exact Warning.about_nil
  | cons n ns ih =>
    obtain ⟨⟨c, own⟩, hread, h⟩ := bind_eq_ok.1 h
    obtain ⟨⟨cs, rest⟩, hrest, h⟩ := bind_eq_ok.1 h
    cases h
    exact Warning.about_append.2 ⟨about_read hread, ih hrest⟩

end Condition

/-! ### Sub-graphs -/

namespace Graph

theorem about_chooseEntry (first : String) (others edgeIds : List String) :
    Warning.About .entry (g.chooseEntry first others edgeIds).2 := by
  rw [chooseEntry]
  repeat' split
  all_goals simp [Warning.topic]

theorem about_entryGraph (g : Graph) : Warning.About .entry g.entryGraph.2 := by
  have hpart : ∀ buy, Warning.About .entry (g.entryPart buy).2 := by
    intro buy
    rw [entryPart]
    dsimp only
    split
    · simp [Warning.topic]
    · exact about_chooseEntry _ _ _
  rw [entryGraph]
  split
  · simp [Warning.topic]
  · exact hpart _
  · exact Warning.about_cons.2 ⟨rfl, hpart _⟩

theorem about_inTradeGraph (settings : Settings) (g : Graph) :
    Warning.About .inTrade (g.inTradeGraph settings).2 := by
  have hpart : ∀ block, Warning.About .inTrade (g.blockPart settings block).2 := by
    intro block
    rw [blockPart]
    dsimp only
    split <;> simp [Warning.topic]
  rw [inTradeGraph]
  split
  · exact hpart _
  · exact Warning.about_cons.2 ⟨rfl, hpart _⟩
  · split <;> simp [Warning.topic]

end Graph

/-! ### Blueprints -/

namespace Blueprint

variable {b : Blueprint} {parameters : Json}

/-- The sub-graph of a part. -/
def subGraph (b : Blueprint) : Part → SubGraph
  | .entry => b.entry
  | .inTrade => b.inTrade

theorem mem_cycleWarning {part : Part} {s : SubGraph} {w : Warning} :
    w ∈ cycleWarning part s ↔ ∃ id, s.cycle? = some id ∧ .cycle part id = w := by
  simp [cycleWarning]

/-- The warnings of a blueprint: those of reading the graph, those of series and conditions, and
those of the two sub-graphs and of their cycles. -/
theorem warnings_ofGraph (h : ofGraph settings g parameters warnings = .ok b) :
    ∃ series conditions, Warning.About .series series ∧ Warning.About .conditions conditions ∧
      b.warnings = warnings ++ series ++ conditions ++ g.entryGraph.2 ++
        (g.inTradeGraph settings).2 ++ cycleWarning .entry b.entry ++
        cycleWarning .inTrade b.inTrade := by
  obtain ⟨snapshot, -, h⟩ := bind_eq_ok.1 h
  obtain ⟨⟨producers, producerWarnings⟩, hproducers, h⟩ := bind_eq_ok.1 h
  obtain ⟨⟨conditions, conditionWarnings⟩, hconditions, h⟩ := bind_eq_ok.1 h
  cases h
  exact ⟨producerWarnings, conditionWarnings, Producer.about_readNodes hproducers,
    Condition.about_readNodes hconditions, rfl⟩

/-- The blueprint is made of the graph: its sub-graphs are those of the graph, and it warns of what
was found wrong with them. -/
structure MadeOf (settings : Settings) (g : Graph) (b : Blueprint) : Prop where
  /-- The entry graph. -/
  entry : b.entry = g.entryGraph.1
  /-- The in-trade graph. -/
  inTrade : b.inTrade = (g.inTradeGraph settings).1
  /-- It warns of the cycle that is found in a part, and of no other. -/
  warns_cycle : ∀ part id, .cycle part id ∈ b.warnings ↔ (b.subGraph part).cycle? = some id
  /-- It warns of what is wrong with the entry graph, if that has nodes. -/
  warns_entry : b.entry.nodes ≠ [] → ∀ w ∈ g.entryGraph.2, w ∈ b.warnings

theorem madeOf_ofGraph (h : ofGraph settings g parameters warnings = .ok b)
    (hwarnings : ∀ w ∈ warnings, w.topic = .nodes ∨ w.topic = .edges) : b.MadeOf settings g := by
  obtain ⟨hentry, hinTrade⟩ := parts_ofGraph h
  obtain ⟨series, conditions, hseries, hconditions, hall⟩ := warnings_ofGraph h
  refine ⟨hentry, hinTrade, fun part id => ?_, fun _ w hw => by simp [hall, hw]⟩
  -- A warning of a cycle is about cycles, so no earlier stage gave it.
  have hreading : Warning.cycle part id ∉ warnings := fun hw => by
    rcases hwarnings _ hw with htopic | htopic <;> cases htopic
  have habout : ∀ t ws, Warning.About t ws → t ≠ .cycles → Warning.cycle part id ∉ ws :=
    fun t ws hws ht hw => ht (hws _ hw).symm
  simp only [hall, List.mem_append, hreading, habout _ _ hseries, habout _ _ hconditions,
    habout _ _ g.about_entryGraph, habout _ _ (g.about_inTradeGraph settings), ne_eq, reduceCtorEq,
    not_false_eq_true, false_or, mem_cycleWarning]
  cases part <;> simp [subGraph]

end Blueprint

/-- **A blueprint is made of the graph that it is given.** -/
theorem exists_madeOf {nodes : Supply Node} {edges : Supply Edge} {parameters : Json}
    {b : Blueprint} (h : compile settings nodes edges parameters = .ok b) :
    ∃ g, Graph.Given nodes edges g ∧ b.MadeOf settings g := by
  rcases compile_cases h with ⟨entries, nodeWarnings, w, hentries, hnodes, hw, rfl⟩ |
    ⟨entries, ns, nodeWarnings, edgeEntries, es, edgeWarnings, hentries, hns, -, hedgeEntries, hes,
      hgraph⟩
  · refine ⟨⟨[], []⟩, .empty hentries hnodes, rfl, rfl, fun part id => ?_,
      fun hne => absurd rfl hne⟩
    have habout : Warning.About .nodes (nodeWarnings ++ [w]) := by
      refine Warning.about_append.2 ⟨Node.about_readEntries hnodes, ?_⟩
      rcases hw with rfl | rfl <;> simp [Warning.topic]
    have hnone : Blueprint.subGraph { warnings := nodeWarnings ++ [w] } part = {} := by
      cases part <;> rfl
    rw [hnone]
    constructor
    · intro hcycle
      cases habout _ hcycle
    · intro hcycle
      cases hcycle
  · refine ⟨⟨ns, es⟩, .read (Graph.read_eq_ok.2 ⟨entries, nodeWarnings, edgeEntries, edgeWarnings,
      hentries, hns, hedgeEntries, hes⟩), Blueprint.madeOf_ofGraph hgraph ?_⟩
    exact List.forall_mem_append.2 ⟨fun w hw => .inl (Node.about_readEntries hns w hw),
      fun w hw => .inr (Edge.about_readEntries hes w hw)⟩

end StrategyGraph
