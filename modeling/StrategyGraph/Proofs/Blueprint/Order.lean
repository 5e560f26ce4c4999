import StrategyGraph.Proofs.Blueprint.Sifted
import StrategyGraph.Proofs.Graph.Order

/-!
# Blueprints of reordered edges

In which order the edges of a strategy are listed does not matter to its blueprint, unless the
blueprint says so.

* `Edge.Moved` : two edges are read from one entry that stands at different places;
* `Edge.matching_readEntries` : lists with the same entries are read as the same edges, although an
  edge whose entry has no id is numbered by its place;
* `Graph.Given.reordered` : so the graphs that are read from them are the same, up to that;
* `Blueprint.Reordered` : what two blueprints have in common;
* `compile_reordered` : **blueprints of reordered edges have it in common.**
-/

namespace StrategyGraph

namespace Edge

/-- The edges are read from one entry, which stands at a place of either list. They are the same, or
both are numbered by the places. -/
def Moved (entries entries' : List (Json ⊕ Edge)) (e e' : Edge) : Prop :=
  ∃ entry i j, entries[i]? = some entry ∧ entries'[j]? = some entry ∧
    readEntry i entry = .ok (.ok e) ∧ readEntry j entry = .ok (.ok e') ∧
    (e' = e ∨ e.id = s!"e{i}" ∧ e' = { e with id := s!"e{j}" })

theorem keepsEnds_moved (entries entries' : List (Json ⊕ Edge)) :
    KeepsEnds (Moved entries entries') := by
  rintro e e' ⟨_, _, _, -, -, -, -, rfl | ⟨-, rfl⟩⟩
  · exact ⟨rfl, rfl⟩
  · exact ⟨rfl, rfl⟩

/-- The edge that is read from an entry at a place, if it is kept. -/
def kept? (nodeIds : List String) (p : (Json ⊕ Edge) × Nat) : Option Edge :=
  match readEntry p.2 p.1 with
  | .ok (.ok e) => (checkEnds nodeIds e).toOption
  | _ => none

theorem readEntry_of_missing {fields : List (String × Json)} {source target handle : Json}
    (hends : readEnds fields = .ok (source, target, handle))
    (h : textOf? source = none ∨ textOf? target = none) (i : Nat) :
    readEntry i (.inl (.object fields)) = .ok (.error (.edgeWithoutEnds i)) := by
  rw [readEntry, read, hends]
  rcases h with hsource | htarget
  · simp only [bind, Except.bind, hsource]
    rfl
  · simp only [bind, Except.bind, htarget]
    cases textOf? source <;> rfl

/-- An entry is read as an edge at every place or at none, and the place is at most its number. -/
theorem readEntry_cases (entry : Json ⊕ Edge) :
    (∀ i e, readEntry i entry ≠ .ok (.ok e)) ∨
      ∃ e : Nat → Edge, (∀ i, readEntry i entry = .ok (.ok (e i))) ∧
        ∀ i j, e j = e i ∨ (e i).id = s!"e{i}" ∧ e j = { e i with id := s!"e{j}" } := by
  cases entry with
  | inr e => exact .inr ⟨fun _ => e, fun _ => rfl, fun _ _ => .inl rfl⟩
  | inl j =>
    cases j with
    | object fields =>
      cases hends : readEnds fields with
      | error fault =>
        have hread : ∀ i, readEntry i (.inl (.object fields)) = .error fault := by
          intro i
          rw [readEntry, read, hends]
          rfl
        exact .inl fun i e h => by cases (hread i).symm.trans h
      | ok ends =>
        obtain ⟨source, target, handle⟩ := ends
        cases hsource : textOf? source with
        | none =>
          have hread := readEntry_of_missing hends (.inl hsource)
          exact .inl fun i e h => by cases (hread i).symm.trans h
        | some source =>
          cases htarget : textOf? target with
          | none =>
            have hread := readEntry_of_missing hends (.inr htarget)
            exact .inl fun i e h => by cases (hread i).symm.trans h
          | some target =>
            have hread : ∀ i, readEntry i (.inl (.object fields)) =
                .ok (.ok
                  { id := ((Fields.get fields "id").orElse (.string s!"e{i}")).text
                    source
                    target
                    sourceHandle := textOf? handle
                    label := textOf? (Fields.get fields "label") }) := by
              intro i
              simp only [readEntry, read, hends, bind, Except.bind, hsource, htarget]
              rfl
            refine .inr ⟨_, hread, fun i j => ?_⟩
            -- The id of the entry counts before the place.
            by_cases hid : (Fields.get fields "id").isTruthy = true
            · exact .inl (by simp only [Json.orElse, hid, if_true])
            · exact .inr (by simp [Json.orElse, hid, Json.text])
    | _ => exact .inl fun i e h => by cases h

variable {nodeIds : List String} {index : Nat} {entries entries' : List (Json ⊕ Edge)}
  {edges edges' : List Edge} {warnings warnings' : List Warning}

theorem toOption_fate {p : (Json ⊕ Edge) × Nat} {r : Except Warning Edge}
    (h : fate nodeIds p = .ok r) : r.toOption = kept? nodeIds p := by
  obtain ⟨read, hread, rfl⟩ := map_eq_ok.1 h
  rw [kept?, hread]
  cases read <;> rfl

theorem readEntries_eq_filterMap (h : readEntries nodeIds index entries = .ok (edges, warnings)) :
    edges = (entries.zipIdx index).filterMap (kept? nodeIds) := by
  rw [readEntries_eq_mapM, map_eq_ok] at h
  obtain ⟨fates, hfates, h⟩ := h
  cases h
  have hkept : fates.map Except.toOption = (entries.zipIdx index).map (kept? nodeIds) :=
    map_eq_of_mapM (fun _ _ => toOption_fate) hfates
  calc kept fates
      = (fates.map Except.toOption).filterMap fun e => e := by
        rw [List.filterMap_map]
        rfl
    _ = (entries.zipIdx index).filterMap (kept? nodeIds) := by
        rw [hkept, List.filterMap_map]
        rfl

/-- An entry at two places is kept as edges that belong together, or it is not kept. -/
theorem rel_kept? {p q : (Json ⊕ Edge) × Nat}
    (h : p.1 = q.1 ∧ p ∈ entries.zipIdx ∧ q ∈ entries'.zipIdx) :
    Option.Rel (Moved entries entries') (kept? nodeIds p) (kept? nodeIds q) := by
  obtain ⟨entry, i⟩ := p
  obtain ⟨_, j⟩ := q
  obtain ⟨rfl, hp, hq⟩ := h
  rcases readEntry_cases entry with hnone | ⟨e, hread, hsame⟩
  · have hskipped : ∀ k, kept? nodeIds (entry, k) = none := by
      intro k
      rw [kept?]
      split
      · next e hread => exact absurd hread (hnone k e)
      · rfl
    rw [hskipped, hskipped]
    exact .none
  · have hkept : ∀ k, kept? nodeIds (entry, k) =
        if (e i).source ∈ nodeIds ∧ (e i).target ∈ nodeIds then some (e k) else none := by
      intro k
      have hends : (e k).source = (e i).source ∧ (e k).target = (e i).target := by
        rcases hsame i k with heq | ⟨-, heq⟩
        · rw [heq]
          exact ⟨rfl, rfl⟩
        · rw [heq]
          exact ⟨rfl, rfl⟩
      rw [kept?, hread, ← hends.1, ← hends.2]
      dsimp only
      rw [checkEnds]
      split <;> rfl
    rw [hkept, hkept]
    split
    · exact .some ⟨entry, i, j, List.mem_zipIdx_iff_getElem?.1 hp, List.mem_zipIdx_iff_getElem?.1 hq,
        hread i, hread j, hsame i j⟩
    · exact .none

/-- **Reordered entries are read as edges that belong together.** -/
theorem matching_readEntries (hperm : entries.Perm entries')
    (h : readEntries nodeIds 0 entries = .ok (edges, warnings))
    (h' : readEntries nodeIds 0 entries' = .ok (edges', warnings')) :
    Matching (Moved entries entries') edges edges' := by
  -- Each entry belongs to the same one in the other list, wherever the two stand.
  have hplaces : Matching (fun p q => p.1 = q.1 ∧ p ∈ entries.zipIdx ∧ q ∈ entries'.zipIdx)
      entries.zipIdx entries'.zipIdx := by
    have hitems : List.Forall₂ (fun entry p => entry = p.1 ∧ p ∈ entries'.zipIdx)
        (entries'.zipIdx.map Prod.fst) entries'.zipIdx :=
      List.forall₂_map_left_iff.2 (List.forall₂_same.2 fun p hp => ⟨rfl, hp⟩)
    rw [List.zipIdx_map_fst] at hitems
    obtain ⟨places, hall, hmoved⟩ := List.perm_comp_forall₂ hperm hitems
    rw [← List.zipIdx_map_fst 0 entries, List.forall₂_map_left_iff] at hall
    have hplaces := (List.forall₂_and_left _ _).2 ⟨fun p hp => hp, hall⟩
    exact ⟨places, hplaces.imp fun p q h => ⟨h.2.1, h.1, h.2.2⟩, hmoved⟩
  rw [readEntries_eq_filterMap h, readEntries_eq_filterMap h']
  exact hplaces.filterMap fun p q hpq => rel_kept? hpq

end Edge

variable {settings : Settings} {nodes : Supply Node} {edges edges' : Supply Edge} {parameters : Json}
  {entries entries' : List (Json ⊕ Edge)} {g g' : Graph} {b b' : Blueprint}

/-- Reordered edges give graphs whose edges belong together. -/
theorem Graph.Given.reordered (hg : Graph.Given nodes edges g) (hg' : Graph.Given nodes edges' g')
    (hentries : edges.entries = .ok entries) (hentries' : edges'.entries = .ok entries')
    (hperm : entries.Perm entries') : g.Reordered (Edge.Moved entries entries') g' := by
  cases hg with
  | empty hnone hnodes =>
    cases hg' with
    | empty => exact ⟨rfl, [], .nil, .nil⟩
    | read hread =>
      obtain rfl := (Given.empty hnone hnodes).eq_of_read hread
      exact ⟨rfl, [], .nil, .nil⟩
  | read hread =>
    cases hg' with
    | empty hnone hnodes =>
      obtain rfl := (Given.empty hnone hnodes).eq_of_read hread
      exact ⟨rfl, [], .nil, .nil⟩
    | read hread' =>
      obtain ⟨_, _, _, _, hnodes, hns, hedges, hes⟩ := Graph.read_eq_ok.1 hread
      obtain ⟨_, _, _, _, hnodes', hns', hedges', hes'⟩ := Graph.read_eq_ok.1 hread'
      cases hnodes.symm.trans hnodes'
      cases hedges.symm.trans hentries
      cases hedges'.symm.trans hentries'
      have hsame : g.nodes = g'.nodes := congrArg Prod.fst (Except.ok.inj (hns.symm.trans hns'))
      rw [Graph.ids, hsame] at hes
      exact ⟨hsame.symm, Edge.matching_readEntries hperm hes hes'⟩

theorem Graph.Proper.entryIds_of_nodes_eq_nil (hg : g.Proper) (h : g.entryGraph.1.nodes = []) :
    g.entryGraph.1.entryIds = [] := by
  rcases g.entryGraph_cases with hempty | ⟨buy, hpart, -⟩
  · rw [hempty]
  · obtain ⟨entryIds, hmembers, ⟨rfl, -⟩ | ⟨id, hid, rfl⟩⟩ := entryPart_fst g buy
    · rw [hpart, hmembers]
      rfl
    · obtain ⟨hid, n, hn, rfl, -⟩ := (mem_conditionsAmong hg).1 hid
      rw [hpart, hmembers] at h
      exact absurd (mem_nodes_part.2 ⟨hn, hid⟩) (h ▸ List.not_mem_nil)

/-- What the blueprints of reordered edges have in common. -/
structure Blueprint.Reordered (entries entries' : List (Json ⊕ Edge)) (b b' : Blueprint) :
    Prop where
  /-- The nodes of both sub-graphs, and their edges, up to the numbers of edges without ids. -/
  subGraph : ∀ part,
    (b.subGraph part).Reordered (Edge.Moved entries entries') (b'.subGraph part)
  /-- The conditions that may end a trade. -/
  inTrade : b'.inTrade.entryIds = b.inTrade.entryIds
  /-- The parts that have a cycle. -/
  cycle : ∀ part, (∃ id, .cycle part id ∈ b'.warnings) ↔ ∃ id, .cycle part id ∈ b.warnings
  /-- The condition at which a walk begins, if no warning says that there is a choice. -/
  entry : (∀ w ∈ b.warnings, w.isAmbiguous = false ∧ w.isSeveralMasters = false) →
    b'.entry.entryIds = b.entry.entryIds

/-- **The order of the edges does not matter unless it is reported.** -/
theorem compile_reordered (hentries : edges.entries = .ok entries)
    (hentries' : edges'.entries = .ok entries') (hperm : entries.Perm entries')
    (h : compile settings nodes edges parameters = .ok b)
    (h' : compile settings nodes edges' parameters = .ok b') : b.Reordered entries entries' b' := by
  obtain ⟨g, hg, hmade⟩ := exists_madeOf h
  obtain ⟨g', hg', hmade'⟩ := exists_madeOf h'
  have hsame := hg.reordered hg' hentries hentries' hperm
  have hends := Edge.keepsEnds_moved entries entries'
  obtain ⟨hinTrade, hexits⟩ := hsame.inTradeGraph hg.proper hg'.proper hends settings
  have hparts : ∀ part,
      (b.subGraph part).Reordered (Edge.Moved entries entries') (b'.subGraph part) := by
    intro part
    cases part with
    | entry =>
      rw [Blueprint.subGraph, Blueprint.subGraph, hmade.entry, hmade'.entry]
      exact hsame.entryGraph hg.proper hg'.proper hends
    | inTrade =>
      rw [Blueprint.subGraph, Blueprint.subGraph, hmade.inTrade, hmade'.inTrade]
      exact hinTrade
  refine ⟨hparts, ?_, fun part => ?_, fun hwarnings => ?_⟩
  · rw [hmade.inTrade, hmade'.inTrade, hexits]
  · simp only [hmade.warns_cycle, hmade'.warns_cycle, ← Option.isSome_iff_exists]
    exact (hparts part).isSome_cycle? hends (hmade.closed hg.proper part)
      (hmade'.closed hg'.proper part)
  · by_cases hnodes : b.entry.nodes = []
    · have hnodes' : b'.entry.nodes = [] := (hparts .entry).nodes.trans hnodes
      rw [hmade.entry] at hnodes ⊢
      rw [hmade'.entry] at hnodes' ⊢
      rw [hg.proper.entryIds_of_nodes_eq_nil hnodes, hg'.proper.entryIds_of_nodes_eq_nil hnodes']
    · rw [hmade.entry, hmade'.entry]
      exact hsame.entryIds_entryGraph hg.proper hg'.proper hends fun w hw =>
        hwarnings w (hmade.warns_entry hnodes w hw)

/-- A condition behind another one, a purchase, and a sale behind the same condition. -/
def forkNodes : List Node :=
  [{ id := "gate", kind := .condition }, { id := "check", kind := .condition },
   { id := "enter", kind := .buy }, { id := "leave", kind := .sell }]

/-- An edge as it is stored, without an id. -/
def plainEdge (source target : String) : Json :=
  .object [("source", .string source), ("target", .string target)]

/-- The edges of the fork. -/
def forkEdges : List Json :=
  [plainEdge "gate" "check", plainEdge "check" "enter", plainEdge "check" "leave"]

theorem compile_reordered_fork : ∃ b b',
    compile {} (.ready forkNodes) (.payload (.array forkEdges)) .null = .ok b ∧
    compile {} (.ready forkNodes) (.payload (.array forkEdges.reverse)) .null = .ok b' ∧
    b.entry.edges.map Edge.id = ["e0", "e1"] ∧ b'.entry.edges.map Edge.id = ["e1", "e2"] ∧
    b.Reordered (forkEdges.map .inl) (forkEdges.reverse.map .inl) b' ∧
    b'.entry.entryIds = b.entry.entryIds := by
  obtain ⟨b, h, hp⟩ := exists_ok_of_any
    (x := compile {} (.ready forkNodes) (.payload (.array forkEdges)) .null)
    (p := fun b => b.entry.edges.map Edge.id = ["e0", "e1"] ∧
      ∀ w ∈ b.warnings, w.isAmbiguous = false ∧ w.isSeveralMasters = false) (by decide)
  obtain ⟨b', h', hp'⟩ := exists_ok_of_any
    (x := compile {} (.ready forkNodes) (.payload (.array forkEdges.reverse)) .null)
    (p := fun b => b.entry.edges.map Edge.id = ["e1", "e2"]) (by decide)
  obtain ⟨hids, hwarnings⟩ := of_decide_eq_true hp
  have hperm : (forkEdges.map Sum.inl : List (Json ⊕ Edge)).Perm (forkEdges.reverse.map .inl) :=
    (List.reverse_perm forkEdges).symm.map _
  have hsame := compile_reordered rfl rfl hperm h h'
  exact ⟨b, b', h, h', hids, of_decide_eq_true hp', hsame, hsame.entry hwarnings⟩

end StrategyGraph
