import StrategyGraph.Proofs.Blueprint.Sifted

/-!
# Blueprints of what was read before

A strategy may be handed over as a payload or as the nodes and edges that were read from one. Its
blueprint is the same, but what was wrong with the payload is reported only where it is read.

* `Blueprint.ofGraph_warnings` : what was reported before stands in front;
* `compile_reread` : the blueprint of the nodes and edges that were read;
* `read_once` : **reading loses nothing silently, and reading again changes nothing.**
-/

namespace StrategyGraph

variable {settings : Settings} {g : Graph} {parameters : Json} {b : Blueprint}

/-- What was reported before stands in front of the warnings of a blueprint. -/
theorem Blueprint.ofGraph_warnings {warnings : List Warning}
    (h : Blueprint.ofGraph settings g parameters warnings = .ok b) :
    ∃ b', Blueprint.ofGraph settings g parameters [] = .ok b' ∧
      b = { b' with warnings := warnings ++ b'.warnings } := by
  obtain ⟨snapshot, hsnapshot, h⟩ := bind_eq_ok.1 h
  obtain ⟨⟨producers, producerWarnings⟩, hproducers, h⟩ := bind_eq_ok.1 h
  obtain ⟨⟨conditions, conditionWarnings⟩, hconditions, h⟩ := bind_eq_ok.1 h
  cases h
  refine ⟨_, bind_eq_ok.2 ⟨snapshot, hsnapshot, bind_eq_ok.2 ⟨_, hproducers,
    bind_eq_ok.2 ⟨_, hconditions, rfl⟩⟩⟩, ?_⟩
  simp only [List.nil_append, List.append_assoc]

variable {nodes : Supply Node} {edges : Supply Edge} {entries : List (Json ⊕ Node)} {ns : List Node}
  {nodeWarnings : List Warning}

/-- The nodes and edges that were read have the blueprint of what they were read from, without the
warnings of reading it. -/
theorem compile_reread (hentries : nodes.entries = .ok entries)
    (hread : Node.readAll entries = .ok (ns, nodeWarnings)) (hns : ns ≠ [])
    (h : compile settings nodes edges parameters = .ok b) :
    ∃ edgeEntries es edgeWarnings b', edges.entries = .ok edgeEntries ∧
      Edge.readAll (ns.map Node.id) edgeEntries = .ok (es, edgeWarnings) ∧
      compile settings (.ready ns) (.ready es) parameters = .ok b' ∧
      b = { b' with warnings := nodeWarnings ++ edgeWarnings ++ b'.warnings } := by
  rcases compile_cases h with ⟨_, _, _, hentries', hread', -⟩ |
    ⟨_, _, _, edgeEntries, es, edgeWarnings, hentries', hread', -, hedgeEntries, hes, hgraph⟩
  · cases hentries.symm.trans hentries'
    exact absurd (congrArg Prod.fst (Except.ok.inj (hread.symm.trans hread'))) hns
  · cases hentries.symm.trans hentries'
    cases hread.symm.trans hread'
    obtain ⟨b', hb', hb⟩ := Blueprint.ofGraph_warnings hgraph
    refine ⟨edgeEntries, es, edgeWarnings, b', hedgeEntries, hes, ?_, hb⟩
    have hnodes := (Node.sifted_readAll hread).again
    have hedges := (Edge.sifted_readAll hes).again
    have hne : ns.isEmpty = false := by simpa using hns
    rw [compile, Supply.isEmpty, Supply.entries, hne]
    simp only [Bool.false_eq_true, if_false, ok_bind, hnodes, hne, Supply.entries, hedges]
    exact hb'

/-- **Reading loses nothing silently, and reading again changes nothing.** Every entry of a list is
kept or reported. And the nodes and edges that were read, of which there is a node, have the blueprint
of the payloads; only its first warnings are missing, those that were given while the payloads were
read. -/
theorem read_once :
    (∀ entries nodes warnings, Node.readAll entries = .ok (nodes, warnings) →
      Node.Sifted entries nodes warnings) ∧
    (∀ nodeIds entries edges warnings, Edge.readAll nodeIds entries = .ok (edges, warnings) →
      Edge.Sifted nodeIds entries edges warnings) ∧
    ∀ settings nodes edges parameters b entries ns nodeWarnings,
      nodes.entries = .ok entries → Node.readAll entries = .ok (ns, nodeWarnings) → ns ≠ [] →
      compile settings nodes edges parameters = .ok b →
      ∃ edgeEntries es edgeWarnings b', edges.entries = .ok edgeEntries ∧
        Edge.readAll (ns.map Node.id) edgeEntries = .ok (es, edgeWarnings) ∧
        compile settings (.ready ns) (.ready es) parameters = .ok b' ∧
        b = { b' with warnings := nodeWarnings ++ edgeWarnings ++ b'.warnings } := by
  refine ⟨fun _ _ _ h => Node.sifted_readAll h, fun _ _ _ _ h => Edge.sifted_readAll h, ?_⟩
  intro _ _ _ _ _ _ _ _ hentries hread hns h
  exact compile_reread hentries hread hns h

/-- Entries of which the first is no node and the third has the id of the second. -/
def mixedEntries : List Json :=
  [.ofInt 5, .object [("id", .string "gate"), ("type", .string "if")],
   .object [("id", .string "gate"), ("type", .string "buy")],
   .object [("id", .string "enter"), ("type", .string "buy")]]

/-- Edges of which the second leads to no node. -/
def mixedEdges : List Json :=
  [.object [("source", .string "gate"), ("target", .string "enter")],
   .object [("source", .string "gate"), ("target", .string "gone")]]

/-- Two nodes and an edge are left of the entries, and the blueprint reports the other three. -/
theorem read_once_mixed : ∃ ns ws es b b',
    Node.readAll (mixedEntries.map .inl) = .ok (ns, ws) ∧
    Node.Sifted (mixedEntries.map .inl) ns ws ∧ ns.map Node.id = ["gate", "enter"] ∧
    Edge.Sifted (ns.map Node.id) (mixedEdges.map .inl) es [.danglingEdge "e1" "gate" "gone"] ∧
    compile {} (.payload (.array mixedEntries)) (.payload (.array mixedEdges)) .null = .ok b ∧
    compile {} (.ready ns) (.ready es) .null = .ok b' ∧
    b.warnings = ws ++ .danglingEdge "e1" "gate" "gone" :: b'.warnings := by
  obtain ⟨b, h, -⟩ := exists_ok_of_any
    (x := compile {} (.payload (.array mixedEntries)) (.payload (.array mixedEdges)) .null)
    (p := fun _ => true) (by decide)
  have hread : Node.readAll (mixedEntries.map .inl) =
      .ok ([{ id := "gate", kind := .condition }, { id := "enter", kind := .buy }],
        [.notANode "int", .duplicateNode "gate"]) := rfl
  have hreadEdges : Edge.readAll ["gate", "enter"] (mixedEdges.map .inl) =
      .ok ([{ id := "e0", source := "gate", target := "enter" }],
        [.danglingEdge "e1" "gate" "gone"]) := rfl
  obtain ⟨hnodes, hedges, hagain⟩ := read_once
  obtain ⟨_, es, edgeWarnings, b', hentries, hes, hb', rfl⟩ := hagain _ _ _ _ _ _ _ _ rfl hread
    (by simp) h
  cases hentries
  cases hreadEdges.symm.trans hes
  exact ⟨_, _, _, _, b', hread, hnodes _ _ _ hread, rfl, hedges _ _ _ _ hreadEdges, h, hb', rfl⟩

end StrategyGraph
