import StrategyGraph.Proofs.Blueprint.Deleted
import StrategyGraph.Proofs.Json.Shown

/-!
# Values that a walk shows

A walk through a blueprint takes the texts of operands and of actions. They are there if the payload
that the blueprint was compiled from holds no integer with too many digits.

* `Node.HasTexts`, `Condition.HasTexts` and `Blueprint.HasTexts` : the values that a walk may show
  can be shown;
* `compile_hasTexts` : **this is so for a blueprint whose nodes and parameters can be shown.**
-/

namespace StrategyGraph

/-! ### Parts of values -/

section

variable {fields : Fields} {j other : Json} {key : String} {items : List Json}

theorem Fields.hasText_of_get? (h : ∀ f ∈ fields, f.2.HasText) (hj : fields.get? key = some j) :
    j.HasText :=
  h (key, j) (mem_of_lookup hj)

theorem Fields.hasText_get (h : ∀ f ∈ fields, f.2.HasText) : (fields.get key).HasText := by
  rw [Fields.get]
  cases hj : fields.get? key with
  | none => exact Json.hasText_null
  | some j => exact hasText_of_get? h hj

namespace Json

theorem HasText.orElse (h : j.HasText) (hother : other.HasText) : (j.orElse other).HasText := by
  rw [Json.orElse]
  split <;> assumption

theorem hasText_fields? (h : j.HasText) : ∀ f ∈ j.fields?.getD [], f.2.HasText := by
  cases j with
  | object fields => exact hasText_object.1 h
  | _ => simp [fields?]

theorem HasText.itemsIfAny (h : j.HasText) (hitems : j.itemsIfAny = .ok items) :
    ∀ i ∈ items, i.HasText := by
  rw [Json.itemsIfAny] at hitems
  split at hitems
  · cases j with
    | array =>
      cases hitems
      exact hasText_array.1 h
    | string | object =>
      cases hitems
      simp only [List.forall_mem_map]
      exact fun _ _ => hasText_string _
    | _ => cases hitems
  · cases hitems
    simp

end Json

end

/-! ### Nodes and their slots -/

/-- The data of the node can be shown. -/
def Node.HasTexts (n : Node) : Prop := ∀ f ∈ n.data, f.2.HasText

theorem Node.hasTexts_of_read {j : Json} {n : Node} (hj : j.HasText)
    (h : Node.read j = .ok (.ok n)) : n.HasTexts := by
  cases j with
  | object fields =>
    rw [Node.read] at h
    dsimp only at h
    split at h
    · cases h
    · split at h
      · cases h
      · obtain ⟨position, -, h⟩ := bind_eq_ok.1 h
        obtain ⟨size, -, h⟩ := bind_eq_ok.1 h
        cases h
        have hfields := Json.hasText_object.1 hj
        have hget (key : String) : (Fields.get fields key).HasText := Fields.hasText_get hfields
        exact Json.hasText_fields? ((hget "data").orElse (hget "params"))
  | _ => cases h

theorem Graph.Given.hasTexts {raw : Json} {edges : Supply Edge} {g : Graph}
    (hg : Graph.Given (.payload raw) edges g) (h : raw.HasText) : ∀ n ∈ g.nodes, n.HasTexts := by
  intro n hn
  obtain ⟨entries, hentries, hsublist⟩ := hg.sublist
  obtain ⟨items, hitems, rfl⟩ := map_eq_ok.1 hentries
  obtain ⟨entry, hentry, hread⟩ := List.mem_filterMap.1 (hsublist.subset hn)
  obtain ⟨j, hj, rfl⟩ := List.mem_map.1 hentry
  refine Node.hasTexts_of_read (h.itemsIfAny hitems j hj) ?_
  rw [Node.readable?] at hread
  split at hread
  · next hnode =>
    cases hread
    exact hnode
  · cases hread

namespace Binding

variable {fields : Fields} {j : Json} {b : Binding} {v : Variable}

theorem hasText_valueOf (h : ∀ f ∈ fields, f.2.HasText) : (valueOf fields).HasText := by
  rw [valueOf]
  cases hj : fields.get? "value" with
  | none => exact Json.hasText_string _
  | some j => exact Fields.hasText_of_get? h hj

theorem hasText_of_ofJson? (hj : j.HasText) (h : ofJson? j = some b) : b.value.HasText := by
  cases j with
  | string | number =>
    cases h
    exact hj
  | object fields =>
    rw [ofJson?] at h
    split at h
    · cases h
    · cases h
      rw [ofFields]
      dsimp only
      split <;> exact hasText_valueOf (Json.hasText_object.1 hj)
  | _ => cases h

theorem hasText_of_slot (hj : j.HasText) (hv : Variable.ofJson? j = some v)
    (h : v.binding = some b) : b.value.HasText := by
  rw [Variable.ofJson?.eq_def] at hv
  split at hv
  · cases hv
  · split at hv
    · next data hdata =>
      cases hv
      exact hasText_of_ofJson? (Fields.hasText_of_get? (Json.hasText_object.1 hj) hdata) h
    · cases hv
      exact hasText_of_ofJson? hj h
  · cases hv
    exact hasText_of_ofJson? hj h

end Binding

/-! ### Parameters -/

namespace Snapshot

variable {s : Snapshot} {id : String} {p : Parameter} {parameters : Json} {nodes : List Node}

/-- The values of the parameters can be shown. -/
def HasTexts (s : Snapshot) : Prop := ∀ p ∈ s, p.2.value.HasText

theorem HasTexts.put (h : s.HasTexts) (hp : p.value.HasText) : (s.put id p).HasTexts := by
  induction s with
  | nil =>
    rw [Snapshot.put]
    exact List.forall_mem_singleton.2 hp
  | cons first s ih =>
    obtain ⟨hfirst, hrest⟩ := List.forall_mem_cons.1 h
    rw [Snapshot.put]
    split
    · exact List.forall_mem_cons.2 ⟨hp, hrest⟩
    · exact List.forall_mem_cons.2 ⟨hfirst, ih hrest⟩

theorem HasTexts.add {entry : Json} (h : s.HasTexts) (hentry : entry.HasText) :
    (s.add entry).HasTexts := by
  cases entry with
  | object fields =>
    rw [Snapshot.add]
    split
    · exact h
    · exact h.put (Binding.hasText_valueOf (Json.hasText_object.1 hentry))
  | _ => exact h

theorem HasTexts.addAll {entries : List Json} (h : s.HasTexts)
    (hentries : ∀ j ∈ entries, j.HasText) : HasTexts (entries.foldl Snapshot.add s) := by
  induction entries generalizing s with
  | nil => exact h
  | cons j entries ih =>
    obtain ⟨hj, hrest⟩ := List.forall_mem_cons.1 hentries
    exact ih (h.add hj) hrest

theorem hasTexts_of_read (hparameters : parameters.HasText) (hnodes : ∀ n ∈ nodes, n.HasTexts)
    (h : Snapshot.read parameters nodes = .ok s) : s.HasTexts := by
  obtain ⟨entries, hentries, h⟩ := bind_eq_ok.1 h
  cases h
  have hnil : HasTexts [] := fun _ hp => absurd hp List.not_mem_nil
  refine hnil.addAll (Json.HasText.itemsIfAny ?_ hentries)
  split
  · -- The parameters are those that a node carries.
    cases hcarried : nodes.findSome? carriedBy? with
    | none => exact Json.hasText_null
    | some carried =>
      obtain ⟨n, hn, hn'⟩ := List.exists_of_findSome?_eq_some hcarried
      have hvalue : (n.data.get "parameters").HasText := Fields.hasText_get (hnodes n hn)
      rw [carriedBy?] at hn'
      split at hn'
      · next items hitems =>
        cases hn'
        rwa [hitems] at hvalue
      · cases hn'
  · exact hparameters

theorem HasTexts.refresh (h : s.HasTexts) {b : Binding} (hb : b.value.HasText) :
    (s.refresh b).value.HasText := by
  rw [Snapshot.refresh]
  split
  · exact hb
  · next id _ =>
    split
    · exact hb
    · next p hp => exact h (id, p) (mem_of_lookup hp)

end Snapshot

/-! ### Conditions -/

namespace Condition

variable {s : Snapshot} {seriesKeys : List String} {n : Node} {c : Condition}
  {warnings : List Warning}

/-- The values of the operands can be shown. -/
def HasTexts (c : Condition) : Prop := ∀ side, ∀ b ∈ c.operandOn side, b.value.HasText

theorem hasText_resolve {b : Binding} (hs : s.HasTexts) (hb : b.value.HasText) {nodeId : String} :
    (resolve s seriesKeys nodeId b).1.value.HasText := by
  rw [resolve]
  split
  · exact hb
  · split
    · exact hb
    · split
      · exact hs.refresh hb
      · split <;> exact hb

theorem hasTexts_of_read (hs : s.HasTexts) (hn : n.HasTexts)
    (h : read s seriesKeys n = .ok (c, warnings)) : c.HasTexts := by
  obtain ⟨slots, hslots, -, hoperands⟩ := exists_slots_of_read h
  intro side b hb
  rw [(hoperands side).1, operand] at hb
  split at hb
  · cases hb
  · next stored hstored =>
    cases hb
    obtain ⟨v, hv, hbinding⟩ := Option.bind_eq_some_iff.1 hstored
    obtain ⟨raw, hraw, rfl⟩ := map_eq_ok.1 hslots
    rw [List.getElem?_map, Option.join_eq_some_iff, Option.map_eq_some_iff] at hv
    obtain ⟨j, hj, hv⟩ := hv
    have hslot := Json.HasText.itemsIfAny (Fields.hasText_get hn) hraw j (List.mem_of_getElem? hj)
    exact hasText_resolve hs (Binding.hasText_of_slot hslot hv hbinding)

theorem hasTexts_of_readNodes {nodes : List Node} {conditions : List Condition} (hs : s.HasTexts)
    (hnodes : ∀ n ∈ nodes, n.HasTexts)
    (h : readNodes s seriesKeys nodes = .ok (conditions, warnings)) :
    ∀ c ∈ conditions, c.HasTexts := by
  induction nodes generalizing conditions warnings with
  | nil =>
    cases h
    exact fun _ hc => absurd hc List.not_mem_nil
  | cons n nodes ih =>
    obtain ⟨⟨c, own⟩, hc, h⟩ := bind_eq_ok.1 h
    obtain ⟨⟨cs, rest⟩, hcs, h⟩ := bind_eq_ok.1 h
    cases h
    obtain ⟨hn, hrest⟩ := List.forall_mem_cons.1 hnodes
    exact List.forall_mem_cons.2 ⟨hasTexts_of_read hs hn hc, ih hrest hcs⟩

end Condition

/-! ### Blueprints -/

/-- All that a walk through the blueprint may show can be shown. -/
structure Blueprint.HasTexts (b : Blueprint) : Prop where
  /-- The values of the operands. -/
  conditions : ∀ c ∈ b.conditions, c.HasTexts
  /-- The actions, with the other data of the nodes. -/
  nodes : ∀ n ∈ b.entry.nodes ++ b.inTrade.nodes, n.HasTexts

/-- **Blueprints show what the payload shows.** -/
theorem compile_hasTexts {settings : Settings} {raw : Json} {edges : Supply Edge}
    {parameters : Json} {b : Blueprint} (hraw : raw.HasText) (hparameters : parameters.HasText)
    (h : compile settings (.payload raw) edges parameters = .ok b) : b.HasTexts := by
  rcases compile_cases h with ⟨_, _, _, _, _, _, rfl⟩ |
    ⟨entries, ns, _, edgeEntries, es, _, hentries, hns, -, hedgeEntries, hes, hgraph⟩
  · exact ⟨fun _ hc => absurd hc List.not_mem_nil, fun _ hn => absurd hn List.not_mem_nil⟩
  · have hgiven : Graph.Given (.payload raw) edges ⟨ns, es⟩ :=
      .read (Graph.read_eq_ok.2 ⟨entries, _, edgeEntries, _, hentries, hns, hedgeEntries, hes⟩)
    have hnodes := hgiven.hasTexts hraw
    obtain ⟨hentry, hinTrade⟩ := Blueprint.parts_ofGraph hgraph
    obtain ⟨s, hs, hgraph⟩ := bind_eq_ok.1 hgraph
    obtain ⟨⟨producers, _⟩, -, hgraph⟩ := bind_eq_ok.1 hgraph
    obtain ⟨⟨conditions, _⟩, hconditions, hgraph⟩ := bind_eq_ok.1 hgraph
    have hsnapshot := Snapshot.hasTexts_of_read hparameters hnodes hs
    refine ⟨?_, fun n hn => hnodes n ?_⟩
    · cases hgraph
      exact Condition.hasTexts_of_readNodes hsnapshot
        (fun n hn => hnodes n (List.mem_of_mem_filter hn)) hconditions
    · rw [hentry, hinTrade, List.mem_append] at hn
      rcases hn with hn | hn
      · exact hgiven.proper.wellFormed_entryGraph.1.sublist.subset hn
      · exact (hgiven.proper.wellFormed_inTradeGraph settings).sublist.subset hn

end StrategyGraph
