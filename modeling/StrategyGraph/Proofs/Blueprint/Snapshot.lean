import StrategyGraph.Proofs.Blueprint.Deleted
import StrategyGraph.Proofs.Blueprint.Overridden

/-!
# The values of the parameters count

Compiling takes the value of a parameter from the snapshot wherever a node stores one of its own: in
the operands of conditions, in the lookback slot and in the slot `window`. A parameter that is not
there has no value, and a condition that needs it does not hold.

* `Snapshot.OverridesGraph` : graphs differ at most in values that parameters override; their
  producers and conditions are the same (`Producer.readAll_eq`, `Condition.readAll_eq`);
* `Blueprint.Alike` : blueprints that differ at most in data of their nodes; walks through them are
  the same (`Blueprint.Alike.nextAction_eq`);
* `snapshot_authoritative` : **of values that parameters override nothing is left in a blueprint,
  and conditions on deleted parameters never hold.**
-/

namespace StrategyGraph

/-! ### Graphs -/

namespace Snapshot

variable {s : Snapshot} {n n' : Node} {ns ns' : List Node} {g g' : Graph}

theorem OverridesNode.carriedBy?_eq (h : s.OverridesNode n n') : carriedBy? n' = carriedBy? n := by
  rw [carriedBy?, carriedBy?, h.data.get_eq "parameters" (by decide) (by decide)]

theorem read_eq (h : List.Forall₂ s.OverridesNode ns ns') (parameters : Json) :
    read parameters ns' = read parameters ns := by
  rw [read, read, findSome?_eq_of_forall₂ (h.imp fun _ _ hn => hn.carriedBy?_eq)]

/-- Graphs may differ in the data of their nodes. -/
structure OverridesGraph (s : Snapshot) (g g' : Graph) : Prop where
  nodes : List.Forall₂ s.OverridesNode g.nodes g'.nodes
  edges : g'.edges = g.edges

theorem OverridesGraph.outline_eq (h : s.OverridesGraph g g') : g'.outline = g.outline := by
  rw [Graph.outline, Graph.outline, h.edges,
    map_eq_of_forall₂ (h.nodes.imp fun _ _ hn => hn.outline_eq)]

end Snapshot

/-! ### Producers -/

namespace Producer

variable {s : Snapshot} {settings : Settings} {g g' : Graph} {n n' : Node}

theorem setterKey?_outline : setterKey? g.outline n.outline = setterKey? g n := by
  rw [setterKey?, Node.id_outline, Graph.nearestOfKind?_outline, setterKey?, Option.bind_map]
  refine congrArg (Option.bind _) (funext fun setter => ?_)
  have hname : ∀ key ∈ Node.outlineKeys, setter.outline.data.get key = setter.data.get key :=
    fun _ => Node.get_outline
  simp only [Function.comp, hname "parameterName" (by simp [Node.outlineKeys]),
    hname "outputParamName" (by simp [Node.outlineKeys])]

theorem slotKey?_eq (h : s.OverridesNode n n') : slotKey? n' = slotKey? n := by
  rw [slotKey?, slotKey?, h.kind]
  by_cases hkind : n.kind ≠ .indicator
  · rw [if_pos hkind, if_pos hkind]
  · rw [if_neg hkind, if_neg hkind]
    refine ((h.agree_slotLabelled? _).bind_eq fun v v' hv => ?_).symm
    refine congrArg Except.ok (rel_bind_eq (fun b b' hb => ?_) hv).symm
    rw [hb.parameterId_eq, hb.label_eq]

theorem outputKey?_eq (hg : s.OverridesGraph g g') (h : s.OverridesNode n n') (default : String) :
    outputKey? g' n' default = outputKey? g n default := by
  have hsetter : setterKey? g' n' = setterKey? g n := by
    rw [← setterKey?_outline, hg.outline_eq, h.outline_eq, setterKey?_outline]
  rw [outputKey?, outputKey?, h.data.get_eq "outputParamName" (by decide) (by decide),
    slotKey?_eq h, hsetter, h.id]

theorem windowCandidates_eq (h : s.OverridesNode n n') :
    windowCandidates s n' = windowCandidates s n := by
  have hvalue : ∀ b b', s.OverridesBinding b b' → (s.refresh b').value = (s.refresh b).value :=
    fun b b' hb => congrArg Binding.value hb.refresh_eq
  have hlookback := h.data.lookback
  rw [windowCandidates, windowCandidates, h.data.get_eq "lookbackParamName" (by decide) (by decide),
    h.data.get_eq "lookbackParam" (by decide) (by decide),
    h.data.get_eq "lookback" (by decide) (by decide),
    h.data.get_eq "window" (by decide) (by decide)]
  generalize n.data.get "lookbackVariable" = slot at hlookback ⊢
  generalize n'.data.get "lookbackVariable" = slot' at hlookback ⊢
  refine ((h.agree_slotLabelled? _).bind_eq fun v v' hv => ?_).symm
  dsimp only
  -- The slot `window` is refreshed as it is read; it remains to refresh the lookback slot.
  rw [rel_map_eq hvalue hv]
  cases hlookback with
  | same => rfl
  | @stored fields fields' data data' hothers hdata hdata' hslot =>
    have hstored : fields.get "parameterData" = data := by rw [Fields.get, hdata]; rfl
    have hstored' : fields'.get "parameterData" = data' := by rw [Fields.get, hdata']; rfl
    dsimp only
    rw [hstored, hstored', rel_map_eq hvalue hslot.binding]

theorem window_eq (h : s.OverridesNode n n') : window settings s n' = window settings s n := by
  rw [window, window, windowCandidates_eq h, h.id]

theorem indicatorKind_eq (h : s.OverridesNode n n') : indicatorKind n' = indicatorKind n := by
  rw [indicatorKind, indicatorKind, h.data.get_eq "indicator" (by decide) (by decide),
    h.data.get_eq "type" (by decide) (by decide), h.id]

theorem read_eq (hg : s.OverridesGraph g g') (h : s.OverridesNode n n') :
    read settings g' s n' = read settings g s n := by
  rw [read, read, h.kind, outputKey?_eq hg h, outputKey?_eq hg h, indicatorKind_eq h, window_eq h,
    h.id, h.data.get_eq "format" (by decide) (by decide)]

theorem readNodes_eq (hg : s.OverridesGraph g g') {ns ns' : List Node}
    (h : List.Forall₂ s.OverridesNode ns ns') (taken : List String) :
    readNodes settings g' s taken ns' = readNodes settings g s taken ns := by
  induction h generalizing taken with
  | nil => rfl
  | cons hn _ ih =>
    rw [readNodes, readNodes, hn.kind, read_eq hg hn, hn.id, ih]
    simp only [ih]

/-- **The producers do not depend on what parameters override.** -/
theorem readAll_eq (h : s.OverridesGraph g g') : readAll settings g' s = readAll settings g s :=
  readNodes_eq h h.nodes []

end Producer

/-! ### Conditions -/

namespace Condition

variable {s : Snapshot} {seriesKeys : List String} {g g' : Graph}

theorem operand_eq {v v' : Option Variable} (h : s.OverridesVariable v v') (nodeId : String)
    (side : Side) : operand s seriesKeys nodeId side v' = operand s seriesKeys nodeId side v := by
  rw [Snapshot.OverridesVariable] at h
  rw [operand, operand]
  generalize v.bind Variable.binding = b at h ⊢
  generalize v'.bind Variable.binding = b' at h ⊢
  cases h with
  | none => rfl
  | some h => simp only [h.resolve_eq]

theorem read_eq {n n' : Node} (h : s.OverridesNode n n') (hkind : n.kind = .condition) :
    read s seriesKeys n' = read s seriesKeys n := by
  rw [read, read]
  refine (h.agree_readSlots.bind_eq fun slots slots' hslots => ?_).symm
  rw [h.id, operand_eq (.join (rel_getElem? hslots 0)), operand_eq (.join (rel_getElem? hslots 1)),
    h.operator?_eq hkind]

theorem readNodes_eq {ns ns' : List Node} (h : List.Forall₂ s.OverridesNode ns ns')
    (hkind : ∀ n ∈ ns, n.kind = .condition) :
    readNodes s seriesKeys ns' = readNodes s seriesKeys ns := by
  induction h with
  | nil => rfl
  | cons hn _ ih =>
    obtain ⟨hfirst, hrest⟩ := List.forall_mem_cons.1 hkind
    rw [readNodes, readNodes, read_eq hn hfirst, ih hrest]

/-- **The conditions do not depend on what parameters override.** -/
theorem readAll_eq (h : s.OverridesGraph g g') :
    readAll s seriesKeys g' = readAll s seriesKeys g := by
  refine readNodes_eq (List.rel_filter (fun n n' hn => ?_) h.nodes) fun n hn => ?_
  · simp [hn.kind]
  · simpa using (List.mem_filter.1 hn).2

end Condition

/-! ### Blueprints -/

namespace SubGraph

variable {s s' : SubGraph} (h : s'.shape = s.shape)
include h

theorem ids_of_shape : s'.nodes.map Node.id = s.nodes.map Node.id := by
  simpa [shape, Function.comp_def] using congrArg (fun shape => shape.1.map Prod.fst) h

theorem find_of_shape (conditions : String → Option Condition) (ctx : BarContext) :
    s'.find conditions ctx = s.find conditions ctx := by
  funext id
  obtain ⟨hnodes, hmore⟩ := Prod.mk.inj h
  obtain ⟨hedges, -⟩ := Prod.mk.inj hmore
  -- The nodes are listed in the same order, so the same place of the list is found.
  have hnode := congrArg (List.find? fun seen => seen.1 = id) hnodes
  rw [List.find?_map, List.find?_map] at hnode
  rw [find, find, node?, node?, outgoing, hedges, ← outgoing]
  simp only [Function.comp_def] at hnode
  generalize s'.nodes.find? _ = n' at hnode ⊢
  generalize s.nodes.find? _ = n at hnode ⊢
  cases n with
  | none =>
    cases n' with
    | none => rfl
    | some n' => cases hnode
  | some n =>
    cases n' with
    | none => cases hnode
    | some n' =>
      simp only [Option.map_some, Option.some_inj, Prod.mk.injEq] at hnode
      obtain ⟨-, hkind, haction⟩ := hnode
      simp only [hkind, haction]

/-- **Walks depend on the shape only.** -/
theorem nextAction_of_shape (conditions : String → Option Condition) (ctx : BarContext) :
    s'.nextAction conditions ctx = s.nextAction conditions ctx := by
  have hids := ids_of_shape h
  have hlength : s'.nodes.length = s.nodes.length := by simpa using congrArg List.length hids
  have hwalk : s'.walk conditions ctx = s.walk conditions ctx := by
    funext start
    rw [walk, walk, find_of_shape h, hids, hlength]
  have hentries : s'.entryIds = s.entryIds := congrArg (fun shape => shape.2.2) h
  rw [nextAction, nextAction, hentries]
  induction s.entryIds with
  | nil => rfl
  | cons start starts ih => rw [walkFrom, walkFrom, hwalk, ih]

end SubGraph

namespace Blueprint

/-- Blueprints that differ at most in data of their nodes, not in their actions. -/
structure Alike (b b' : Blueprint) : Prop where
  /-- They compute the same series. -/
  producers : b'.producers = b.producers
  /-- They compare the same operands. -/
  conditions : b'.conditions = b.conditions
  /-- They have the same warnings. -/
  warnings : b'.warnings = b.warnings
  /-- Their sub-graphs have the same shape. -/
  shape : ∀ part, (b'.subGraph part).shape = (b.subGraph part).shape

theorem Alike.refl (b : Blueprint) : b.Alike b := ⟨rfl, rfl, rfl, fun _ => rfl⟩

/-- **Walks through alike blueprints are the same.** -/
theorem Alike.nextAction_eq {b b' : Blueprint} (h : b.Alike b') (part : Part) (ctx : BarContext) :
    (b'.subGraph part).nextAction b'.condition? ctx =
      (b.subGraph part).nextAction b.condition? ctx := by
  have hconditions : b'.condition? = b.condition? := by
    funext id
    rw [condition?, condition?, h.conditions]
  rw [hconditions, SubGraph.nextAction_of_shape (h.shape part)]

theorem cycleWarning_outline (part : Part) (s : SubGraph) :
    cycleWarning part s.outline = cycleWarning part s := by
  rw [cycleWarning, cycleWarning, SubGraph.cycle?_outline]

variable {s : Snapshot} {g g' : Graph} {settings : Settings} {parameters : Json}

/-- Graphs that have the same parts, parameters, producers and conditions. -/
structure Corresponds (settings : Settings) (parameters : Json) (g g' : Graph) : Prop where
  outline : g'.outline = g.outline
  snapshot : Snapshot.read parameters g'.nodes = Snapshot.read parameters g.nodes
  producers : ∀ s, Snapshot.read parameters g.nodes = .ok s →
    Producer.readAll settings g' s = Producer.readAll settings g s
  conditions : ∀ s, Snapshot.read parameters g.nodes = .ok s → ∀ seriesKeys,
    Condition.readAll s seriesKeys g' = Condition.readAll s seriesKeys g

/-- Such graphs have alike blueprints, or none. -/
theorem Corresponds.agree_ofGraph (h : Corresponds settings parameters g g')
    (warnings : List Warning) :
    Agree Eq Alike (ofGraph settings g parameters warnings)
      (ofGraph settings g' parameters warnings) := by
  -- The outline of a graph determines those of its parts.
  have hentry : (g'.entryGraph.1.outline, g'.entryGraph.2) =
      (g.entryGraph.1.outline, g.entryGraph.2) := by
    rw [← Graph.entryGraph_outline, h.outline, Graph.entryGraph_outline]
  have hinTrade : ((g'.inTradeGraph settings).1.outline, (g'.inTradeGraph settings).2) =
      ((g.inTradeGraph settings).1.outline, (g.inTradeGraph settings).2) := by
    rw [← Graph.inTradeGraph_outline, h.outline, Graph.inTradeGraph_outline]
  obtain ⟨hentry, hentryWarnings⟩ := Prod.mk.inj hentry
  obtain ⟨hinTrade, hinTradeWarnings⟩ := Prod.mk.inj hinTrade
  rw [ofGraph, ofGraph, h.snapshot]
  cases hs : Snapshot.read parameters g.nodes with
  | error fault => exact .error rfl
  | ok s =>
    rw [ok_bind, ok_bind, h.producers s hs]
    refine (Agree.same _).bind fun producers _ hproducers => ?_
    subst hproducers
    dsimp only
    rw [h.conditions s hs]
    refine (Agree.same _).bind fun conditions _ hconditions => ?_
    subst hconditions
    refine .ok ⟨rfl, rfl, ?_, fun part => ?_⟩
    · dsimp only
      rw [← cycleWarning_outline, hentry, cycleWarning_outline, hentryWarnings,
        ← cycleWarning_outline .inTrade, hinTrade, cycleWarning_outline, hinTradeWarnings]
    · cases part with
      | entry => exact SubGraph.shape_eq_of_outline hentry
      | inTrade => exact SubGraph.shape_eq_of_outline hinTrade

theorem corresponds_of_overrides (h : s.OverridesGraph g g')
    (hs : Snapshot.read parameters g.nodes = .ok s) : Corresponds settings parameters g g' where
  outline := h.outline_eq
  snapshot := Snapshot.read_eq h.nodes parameters
  producers s' hs' := by
    cases hs.symm.trans hs'
    exact Producer.readAll_eq h
  conditions s' hs' _ := by
    cases hs.symm.trans hs'
    exact Condition.readAll_eq h

end Blueprint

/-! ### Compiling -/

/-- Of the values that have items, those count as given that have some. -/
theorem Json.isTruthy_of_items {j : Json} {items : List Json} (h : j.items = .ok items) :
    j.isTruthy = !items.isEmpty := by
  cases j with
  | array | string | object =>
    cases h
    rw [Bool.eq_iff_iff]
    simp [isTruthy]
  | null | bool | number => cases h

theorem Supply.isEmpty_eq {α : Type} {s : Supply α} {entries : List (Json ⊕ α)}
    (h : s.entries = .ok entries) : s.isEmpty = entries.isEmpty := by
  cases s with
  | ready items =>
    cases h
    simp [isEmpty]
  | payload raw =>
    obtain ⟨items, hitems, rfl⟩ := map_eq_ok.1 h
    rw [isEmpty, List.isEmpty_map]
    rw [Json.itemsIfAny] at hitems
    by_cases htruthy : raw.isTruthy = true
    · rw [if_pos htruthy] at hitems
      rw [Json.isTruthy_of_items hitems, Bool.not_not]
    · rw [if_neg htruthy] at hitems
      cases hitems
      simpa using htruthy

variable {s : Snapshot} {settings : Settings} {nodes nodes' : Supply Node} {edges : Supply Edge}
  {parameters : Json} {entries entries' : List (Json ⊕ Node)} {ns : List Node}
  {nodeWarnings : List Warning} {b : Blueprint}

/-- Entries that are read as related nodes have alike blueprints, or none, if graphs of such nodes
correspond. -/
theorem agree_compile {R : Node → Node → Prop} (hid : ∀ n n', R n n' → n'.id = n.id)
    (hentries : nodes.entries = .ok entries) (hentries' : nodes'.entries = .ok entries')
    (h : List.Forall₂ (fun entry entry' =>
      Agree Eq (Agree Eq R) (Node.readEntry entry) (Node.readEntry entry')) entries entries')
    (hgraph : ∀ ns ns' warnings es, Node.readAll entries = .ok (ns, warnings) →
      List.Forall₂ R ns ns' → Blueprint.Corresponds settings parameters ⟨ns, es⟩ ⟨ns', es⟩) :
    Agree Eq Blueprint.Alike (compile settings nodes edges parameters)
      (compile settings nodes' edges parameters) := by
  have hempty : entries'.isEmpty = entries.isEmpty := by
    cases h with
    | nil | cons => rfl
  rw [compile, compile, Supply.isEmpty_eq hentries, Supply.isEmpty_eq hentries', hempty, hentries,
    hentries', ok_bind, ok_bind]
  by_cases hnone : entries.isEmpty = true
  · rw [if_pos hnone, if_pos hnone]
    exact .ok (.refl _)
  · rw [if_neg hnone, if_neg hnone]
    refine (Node.agree_readEntries hid h []).left.bind ?_
    rintro ⟨ns, warnings⟩ ⟨ns', warnings'⟩ ⟨hread, hns, hwarnings⟩
    obtain rfl : warnings' = warnings := hwarnings
    have hids : ns'.map Node.id = ns.map Node.id := map_eq_of_forall₂ (hns.imp hid)
    have hnone' : ns'.isEmpty = ns.isEmpty := by simpa using congrArg List.isEmpty hids
    dsimp only
    rw [hnone', hids]
    -- The parameters are looked at only if nodes are left.
    by_cases hnone : ns.isEmpty = true
    · rw [if_pos hnone, if_pos hnone]
      exact .ok (.refl _)
    · rw [if_neg hnone, if_neg hnone]
      refine (Agree.same _).bind fun edgeEntries _ hedgeEntries => ?_
      subst hedgeEntries
      refine (Agree.same _).bind fun es _ hes => ?_
      subst hes
      exact (hgraph ns ns' warnings' es.1 hread hns).agree_ofGraph _

/-- **The values of the parameters count.** Where stored values differ that parameters override, the
blueprints are alike: no stored value is left in one. And of an operand whose parameter was deleted,
and which names no series, nothing is left but a warning: the condition does not hold at any bar. -/
theorem snapshot_authoritative (hcompile : compile settings nodes edges parameters = .ok b)
    (hentries : nodes.entries = .ok entries)
    (hread : Node.readAll entries = .ok (ns, nodeWarnings))
    (hs : Snapshot.read parameters ns = .ok s) :
    (∀ nodes' entries', nodes'.entries = .ok entries' →
      List.Forall₂ s.OverridesEntry entries entries' →
      ∃ b', compile settings nodes' edges parameters = .ok b' ∧ b.Alike b') ∧
    ∀ n ∈ ns, n.kind = .condition → ∀ side binding id,
      n.operandBinding? side = .ok (some binding) →
      s.Deleted (b.producers.map Producer.outputKey) binding id →
      ∃ c, b.condition? n.id = some c ∧ c.operandOn side = some binding.unbind ∧
        .deletedParameter n.id id binding.label ∈ b.warnings ∧
        ∀ ctx, c.outcome ctx ≠ .ok true := by
  constructor
  · intro nodes' entries' hentries' h
    refine (agree_compile (fun _ _ hn => hn.id) hentries hentries'
      (h.imp fun _ _ => Node.agree_readEntry) fun ns' _ _ es hread' hns => ?_).exists_ok hcompile
    cases hread.symm.trans hread'
    exact Blueprint.corresponds_of_overrides ⟨hns, rfl⟩ hs
  · intro n hn hkind side binding id hbinding hdeleted
    rcases compile_cases hcompile with ⟨_, _, _, hentries', hread', -⟩ |
      ⟨_, _, _, _, es, _, hentries', hread', -, -, -, hgraph⟩
    · cases hentries.symm.trans hentries'
      cases hread.symm.trans hread'
      cases hn
    · cases hentries.symm.trans hentries'
      cases hread.symm.trans hread'
      have hnodup : (Graph.mk ns es).ids.Nodup := (Node.readEntries_nodup hread).1
      exact Blueprint.exists_condition_of_deleted hnodup hs hgraph hn hkind hbinding hdeleted

/-- A slot that stores a value with a parameter. -/
def storedSlot (label id : String) (value : Json) : Json :=
  .object [("label", .string label),
    ("parameterData", .object [("parameterId", .string id), ("value", value)])]

/-- Nodes that store a value with the parameters of all slots. -/
def storingNodes (value : Json) : List Node :=
  [{ id := "mean", kind := .indicator
     data := [("lookbackVariable", storedSlot "Lookback" "days" value),
       ("variables", .array [storedSlot "window" "days" value])] },
   { id := "gate", kind := .condition
     data := [("variables",
       .array [storedSlot "left" "limit" value, storedSlot "right" "days" value, .string ">"])] },
   { id := "check", kind := .condition
     data := [("variables",
       .array [storedSlot "left" "limit" value, storedSlot "right" "gone" .null, .string ">"])] }]

/-- The parameters of the slots but one. -/
def storedParameters : Json :=
  .array [.object [("id", .string "days"), ("value", .ofInt 7)],
    .object [("id", .string "limit"), ("value", .ofInt 10)]]

/-- The same parameters by their ids. -/
def storedSnapshot : Snapshot := [("days", ⟨.null, .ofInt 7⟩), ("limit", ⟨.null, .ofInt 10⟩)]

theorem overridesSlot_stored {s : Snapshot} {id : String} {p : Parameter} (hid : id ≠ "")
    (hp : s.lookup id = some p) (label : String) (value value' : Json) :
    s.OverridesSlot (storedSlot label id value) (storedSlot label id value') := by
  refine .stored (fun key hkey => ?_) rfl rfl
    (.stored (fun key hkey => ?_) rfl ⟨id, p, rfl, hid, hp⟩)
  · simp [Fields.get?_cons, hkey]
  · simp [Fields.get?_cons, hkey]

theorem overridesNode_storing (value value' : Json) :
    List.Forall₂ storedSnapshot.OverridesNode (storingNodes value) (storingNodes value') := by
  have hdays := overridesSlot_stored (show "days" ≠ "" by decide)
    (show storedSnapshot.lookup "days" = some ⟨.null, .ofInt 7⟩ from rfl)
  have hlimit := overridesSlot_stored (show "limit" ≠ "" by decide)
    (show storedSnapshot.lookup "limit" = some ⟨.null, .ofInt 10⟩ from rfl)
  refine .cons ⟨rfl, rfl, rfl, rfl, fun key hkey hkey' => ?_, ?_, hdays _ _ _⟩
    (.cons ⟨rfl, rfl, rfl, rfl, fun key hkey _ => ?_, ?_, .same _⟩
      (.cons ⟨rfl, rfl, rfl, rfl, fun key hkey _ => ?_, ?_, .same _⟩ .nil))
  · simp [Fields.get?_cons, hkey, hkey']
  · exact .stored (.cons (hdays _ _ _) .nil) fun h => by cases h
  · simp [Fields.get?_cons, hkey]
  · exact .stored (.cons (hlimit _ _ _) (.cons (hdays _ _ _) (.cons (.same _) .nil))) fun _ => rfl
  · simp [Fields.get?_cons, hkey]
  · exact .stored (.cons (hlimit _ _ _) (.cons (.same _) (.cons (.same _) .nil))) fun _ => rfl

/-- Whether one or two is stored, the blueprints are alike, and the second condition fails. -/
theorem snapshot_authoritative_stored : ∃ b b' c,
    compile {} (.ready (storingNodes (.ofInt 1))) (.ready []) storedParameters = .ok b ∧
    compile {} (.ready (storingNodes (.ofInt 2))) (.ready []) storedParameters = .ok b' ∧
    b.Alike b' ∧ b.condition? "check" = some c ∧ ∀ ctx, c.outcome ctx ≠ .ok true := by
  obtain ⟨b, h, hkeys⟩ := exists_ok_of_any
    (x := compile {} (.ready (storingNodes (.ofInt 1))) (.ready []) storedParameters)
    (p := fun b => b.producers.map Producer.outputKey = ["indicator_output"]) (by decide +kernel)
  have hread : Node.readAll ((storingNodes (.ofInt 1)).map .inr) =
    .ok (storingNodes (.ofInt 1), []) := rfl
  have hs : Snapshot.read storedParameters (storingNodes (.ofInt 1)) = .ok storedSnapshot := rfl
  obtain ⟨halike, hdeleted⟩ := snapshot_authoritative h rfl hread hs
  have hentries : List.Forall₂ storedSnapshot.OverridesEntry ((storingNodes (.ofInt 1)).map .inr)
      ((storingNodes (.ofInt 2)).map .inr) := by
    rw [List.forall₂_map_left_iff, List.forall₂_map_right_iff]
    exact (overridesNode_storing _ _).imp fun _ _ hn => .ready hn
  obtain ⟨b', h', hb'⟩ := halike (.ready (storingNodes (.ofInt 2))) _ rfl hentries
  have hgone : "gone" ∉ b.producers.map Producer.outputKey := by simp [of_decide_eq_true hkeys]
  obtain ⟨c, hc, -, -, houtcome⟩ := hdeleted _
    (List.mem_cons_of_mem _ (List.mem_cons_of_mem _ List.mem_cons_self)) rfl .right _ "gone" rfl
    ⟨by simp [storedSnapshot], rfl, by decide, rfl, hgone, rfl⟩
  exact ⟨b, b', c, h, h', hb', hc, houtcome⟩

end StrategyGraph
