import StrategyGraph.Proofs.Blueprint.WellFormed

/-!
# Deleted parameters

An operand may name a parameter that was deleted since, and no series. Compiling leaves it unbound,
with a warning, and so the condition never holds.

* `Snapshot.Deleted` : a binding names a parameter that is not known, and no series;
* `Condition.outcome_ne_true` : a condition with an unbound operand does not hold;
* `Blueprint.exists_condition_of_deleted` : **the condition is there, but does not hold at any
  bar.**
-/

namespace StrategyGraph

/-! ### Operands -/

/-- The place of a slot. -/
def Side.slot : Side → Nat
  | .left => 0
  | .right => 1

/-- What a slot for an operand is bound to. -/
def Node.operandBinding? (n : Node) (side : Side) : Except Fault (Option Binding) :=
  n.readSlots.map fun slots => slots[side.slot]?.join.bind Variable.binding

/-- Parameters are known, but not the one that the binding names, and no series bears its id or
label. -/
structure Snapshot.Deleted (s : Snapshot) (seriesKeys : List String) (b : Binding) (id : String) :
    Prop where
  known : s ≠ []
  parameterId : b.parameterId = some id
  nonempty : id ≠ ""
  unknown : s.lookup id = none
  key : id ∉ seriesKeys
  label : Condition.labelIn seriesKeys b = false

namespace Condition

variable {s : Snapshot} {seriesKeys : List String} {n : Node} {c : Condition} {b : Binding}
  {id : String} {side : Side} {warnings : List Warning}

/-- The operand on a side. -/
def operandOn (c : Condition) : Side → Option Binding
  | .left => c.left
  | .right => c.right

theorem outcome_ne_true {ctx : BarContext} (h : (c.operandOn side).filter Binding.bound = none) :
    c.outcome ctx ≠ .ok true := by
  intro houtcome
  obtain ⟨⟨l, r⟩, hvalues, hholds⟩ := map_eq_ok.1 houtcome
  obtain ⟨_, hl, hvalues⟩ := bind_eq_ok.1 hvalues
  obtain ⟨_, hr, hvalues⟩ := bind_eq_ok.1 hvalues
  cases hvalues
  cases side with
  | left =>
    rw [Operand.resolve, show c.left.filter Binding.bound = none from h] at hl
    cases hl
    simp [compare] at hholds
  | right =>
    rw [Operand.resolve, show c.right.filter Binding.bound = none from h] at hr
    cases hr
    cases l <;> simp [compare] at hholds

theorem resolve_deleted (h : s.Deleted seriesKeys b id) (nodeId : String) :
    resolve s seriesKeys nodeId b = (b.unbind, [.deletedParameter nodeId id b.label]) := by
  have hid : b.parameterId.filter (· ≠ "") = some id :=
    Option.filter_eq_some_iff.2 ⟨h.parameterId, by simpa using h.nonempty⟩
  rw [resolve, hid]
  simp [h.known, h.unknown, h.key, h.label]

/-- What is read of a node: the operand in the slot of each side, with its warnings. -/
theorem exists_slots_of_read (h : read s seriesKeys n = .ok (c, warnings)) :
    ∃ slots, n.readSlots = .ok slots ∧ c.nodeId = n.id ∧ ∀ side,
      c.operandOn side = (operand s seriesKeys n.id side slots[side.slot]?.join).1 ∧
      (operand s seriesKeys n.id side slots[side.slot]?.join).2 ⊆ warnings := by
  obtain ⟨slots, hslots, h⟩ := bind_eq_ok.1 h
  obtain ⟨operator, -, h⟩ := bind_eq_ok.1 h
  cases h
  refine ⟨slots, hslots, rfl, fun side => ?_⟩
  cases side with
  | left => exact ⟨rfl, fun w hw => List.mem_append_left _ (List.mem_append_left _ hw)⟩
  | right => exact ⟨rfl, fun w hw => List.mem_append_left _ (List.mem_append_right _ hw)⟩

theorem operandOn_of_deleted (h : s.Deleted seriesKeys b id)
    (hbinding : n.operandBinding? side = .ok (some b))
    (hread : read s seriesKeys n = .ok (c, warnings)) :
    c.nodeId = n.id ∧ c.operandOn side = some b.unbind ∧
      .deletedParameter n.id id b.label ∈ warnings := by
  obtain ⟨slots, hslots, hslot⟩ := map_eq_ok.1 hbinding
  obtain ⟨slots', hslots', hid, hoperand⟩ := exists_slots_of_read hread
  cases hslots.symm.trans hslots'
  obtain ⟨hbound, hwarnings⟩ := hoperand side
  have hunbound : operand s seriesKeys n.id side slots[side.slot]?.join =
      (some b.unbind, [.deletedParameter n.id id b.label]) := by
    rw [operand, hslot]
    simp only [resolve_deleted h]
  rw [hunbound] at hbound hwarnings
  exact ⟨hid, hbound, hwarnings List.mem_cons_self⟩

theorem exists_of_readNodes {nodes : List Node} {conditions : List Condition}
    (h : readNodes s seriesKeys nodes = .ok (conditions, warnings)) (hn : n ∈ nodes) :
    ∃ c own, read s seriesKeys n = .ok (c, own) ∧ c ∈ conditions ∧ own ⊆ warnings := by
  induction nodes generalizing conditions warnings with
  | nil => cases hn
  | cons first nodes ih =>
    obtain ⟨⟨c, own⟩, hc, h⟩ := bind_eq_ok.1 h
    obtain ⟨⟨cs, rest⟩, hcs, h⟩ := bind_eq_ok.1 h
    cases h
    rcases List.mem_cons.1 hn with rfl | hlater
    · exact ⟨c, own, hc, List.mem_cons_self, List.subset_append_left _ _⟩
    · obtain ⟨c', own', hc', hmem, hsubset⟩ := ih hcs hlater
      exact ⟨c', own', hc', List.mem_cons_of_mem _ hmem,
        fun w hw => List.mem_append_right _ (hsubset hw)⟩

end Condition

/-! ### Blueprints -/

variable {settings : Settings} {g : Graph} {s : Snapshot} {parameters : Json}
  {warnings : List Warning} {b : Blueprint} {n : Node}

theorem Blueprint.exists_condition (hnodup : g.ids.Nodup)
    (h : Blueprint.ofGraph settings g parameters warnings = .ok b) (hn : n ∈ g.nodes)
    (hkind : n.kind = .condition) :
    ∃ s c own, Snapshot.read parameters g.nodes = .ok s ∧
      Condition.read s (b.producers.map Producer.outputKey) n = .ok (c, own) ∧
      b.condition? n.id = some c ∧ own ⊆ b.warnings := by
  obtain ⟨s, hs, h⟩ := bind_eq_ok.1 h
  obtain ⟨⟨producers, producerWarnings⟩, -, h⟩ := bind_eq_ok.1 h
  obtain ⟨⟨conditions, conditionWarnings⟩, hconditions, h⟩ := bind_eq_ok.1 h
  cases h
  have hmem : n ∈ g.ofKind .condition := List.mem_filter.2 ⟨hn, by simpa using hkind⟩
  obtain ⟨c, own, hread, hc, hown⟩ := Condition.exists_of_readNodes hconditions hmem
  have hids : (conditions.map Condition.nodeId).Nodup := by
    rw [Condition.nodeIds_readNodes hconditions]
    exact hnodup.sublist (List.filter_sublist.map _)
  obtain ⟨slots, -, hid, -⟩ := Condition.exists_slots_of_read hread
  refine ⟨s, c, own, hs, hread, (find?_key_iff hids).2 ⟨hc, hid⟩, fun w hw => ?_⟩
  simp [hown hw]

/-- A condition with an operand for a deleted parameter is there, but does not hold at any bar. -/
theorem Blueprint.exists_condition_of_deleted (hnodup : g.ids.Nodup)
    (hs : Snapshot.read parameters g.nodes = .ok s)
    (h : Blueprint.ofGraph settings g parameters warnings = .ok b) (hn : n ∈ g.nodes)
    (hkind : n.kind = .condition) {side : Side} {binding : Binding} {id : String}
    (hbinding : n.operandBinding? side = .ok (some binding))
    (hdeleted : s.Deleted (b.producers.map Producer.outputKey) binding id) :
    ∃ c, b.condition? n.id = some c ∧ c.operandOn side = some binding.unbind ∧
      .deletedParameter n.id id binding.label ∈ b.warnings ∧ ∀ ctx, c.outcome ctx ≠ .ok true := by
  obtain ⟨s', c, own, hs', hread, hc, hown⟩ := exists_condition hnodup h hn hkind
  cases hs.symm.trans hs'
  obtain ⟨-, hunbound, hwarning⟩ := Condition.operandOn_of_deleted hdeleted hbinding hread
  refine ⟨c, hc, hunbound, hown hwarning, fun ctx => ?_⟩
  exact Condition.outcome_ne_true (congrArg (Option.filter Binding.bound) hunbound)

end StrategyGraph
