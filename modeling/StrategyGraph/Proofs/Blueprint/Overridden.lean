import Mathlib.Data.List.Forall2
import StrategyGraph.Blueprint.Condition
import StrategyGraph.Proofs.Fault
import StrategyGraph.Proofs.Graph.Outline

/-!
# Values that parameters override

Nodes store a value with the id of a parameter. Where the parameter is known, its value counts and
the stored one does not.

* `Snapshot.Knows` : a binding names a parameter that is known;
* `Snapshot.Overrides` : what a slot is bound to differs at most in the value that is stored with
  such a parameter; `OverridesSlot`, `OverridesSlots`, `OverridesData`, `OverridesNode` and
  `OverridesEntry` are the same for what holds it;
* `Snapshot.OverridesBinding.refresh_eq` : with the values of the parameters, such bindings are the
  same;
* `Node.agree_readEntry` : **entries that differ so are read as nodes that do, or fail alike**;
* `Node.agree_readEntries` : so are lists of entries, whatever relates the nodes.
-/

namespace StrategyGraph

/-! ### Related lists and options -/

section Related

variable {α β γ : Type} {R : α → β → Prop} {xs : List α} {ys : List β} {x : Option α} {y : Option β}

theorem rel_bind_eq {f : α → Option γ} {g : β → Option γ} (hfg : ∀ a b, R a b → g b = f a)
    (h : Option.Rel R x y) : y.bind g = x.bind f := by
  cases h with
  | none => rfl
  | some hab => exact hfg _ _ hab

theorem rel_map_eq {f : α → γ} {g : β → γ} (hfg : ∀ a b, R a b → g b = f a)
    (h : Option.Rel R x y) : y.map g = x.map f := by
  cases h with
  | none => rfl
  | some hab => exact congrArg some (hfg _ _ hab)

theorem rel_find? {p : α → Bool} {q : β → Bool} (hpq : ∀ x y, R x y → p x = q y)
    (h : List.Forall₂ R xs ys) : Option.Rel R (xs.find? p) (ys.find? q) := by
  induction h with
  | nil => exact .none
  | @cons x y xs ys hxy _ ih =>
    rw [List.find?_cons, List.find?_cons, ← hpq x y hxy]
    cases p x with
    | true => exact .some hxy
    | false => exact ih

theorem rel_getElem? (h : List.Forall₂ R xs ys) (i : Nat) : Option.Rel R xs[i]? ys[i]? := by
  induction h generalizing i with
  | nil => exact .none
  | cons hxy _ ih =>
    cases i with
    | zero => exact .some hxy
    | succ i => simpa using ih i

theorem map_eq_of_forall₂ {f : α → γ} {g : β → γ} (h : List.Forall₂ (fun x y => g y = f x) xs ys) :
    ys.map g = xs.map f := by
  induction h with
  | nil => rfl
  | cons hxy _ ih => rw [List.map_cons, List.map_cons, hxy, ih]

theorem findSome?_eq_of_forall₂ {f : α → Option γ} {g : β → Option γ}
    (h : List.Forall₂ (fun x y => g y = f x) xs ys) : ys.findSome? g = xs.findSome? f := by
  induction h with
  | nil => rfl
  | cons hxy _ ih => rw [List.findSome?_cons, List.findSome?_cons, hxy, ih]

end Related

theorem Node.thirdSlot?_array (slots : List Json) : thirdSlot? (.array slots) = .ok slots[2]? := by
  match slots with
  | [] | [_] | [_, _] => rfl
  | first :: second :: third :: more =>
    have hlong : ¬(first :: second :: third :: more).length < 3 := by simp
    simp only [thirdSlot?, Json.isTruthy, Json.length, bind, Except.bind, if_neg hlong]
    rfl

namespace Snapshot

variable (s : Snapshot)

/-! ### What may differ -/

/-- The binding names a parameter that is known. -/
def Knows (b : Binding) : Prop :=
  ∃ id p, b.parameterId = some id ∧ id ≠ "" ∧ s.lookup id = some p

/-- What a slot is bound to: two objects may differ in the value that is stored with a parameter
that is known. -/
inductive Overrides : Json → Json → Prop
  | same (j : Json) : Overrides j j
  | stored {fields fields' : Fields}
      (hothers : ∀ key, key ≠ "value" → fields'.get? key = fields.get? key)
      (hunnamed : (fields.get "paramName").isTruthy = false)
      (hknown : s.Knows (Binding.ofFields fields)) : Overrides (.object fields) (.object fields')

/-- Slots may differ in what they are bound to. -/
inductive OverridesSlot : Json → Json → Prop
  | same (j : Json) : OverridesSlot j j
  | stored {fields fields' : Fields} {data data' : Json}
      (hothers : ∀ key, key ≠ "parameterData" → fields'.get? key = fields.get? key)
      (hdata : fields.get? "parameterData" = some data)
      (hdata' : fields'.get? "parameterData" = some data') (h : s.Overrides data data') :
      OverridesSlot (.object fields) (.object fields')

/-- Lists of slots may differ in each of them. The third slot of a condition is its operator and
does not differ. -/
inductive OverridesSlots (isCondition : Prop) : Json → Json → Prop
  | same (j : Json) : OverridesSlots isCondition j j
  | stored {slots slots' : List Json} (h : List.Forall₂ s.OverridesSlot slots slots')
      (hthird : isCondition → slots'[2]? = slots[2]?) :
      OverridesSlots isCondition (.array slots) (.array slots')

/-- The data of nodes may differ in the slots and in the one for the window. -/
structure OverridesData (isCondition : Prop) (data data' : Fields) : Prop where
  others : ∀ key, key ≠ "variables" → key ≠ "lookbackVariable" → data'.get? key = data.get? key
  slots : s.OverridesSlots isCondition (data.get "variables") (data'.get "variables")
  lookback : s.OverridesSlot (data.get "lookbackVariable") (data'.get "lookbackVariable")

/-- Nodes may differ in their data. -/
structure OverridesNode (n n' : Node) : Prop where
  id : n'.id = n.id
  kind : n'.kind = n.kind
  position : n'.position = n.position
  size : n'.size = n.size
  data : s.OverridesData (n.kind = .condition) n.data n'.data

/-- The kind that a payload of a node names. -/
def kindIn (fields : Fields) : Option NodeKind :=
  NodeKind.ofJson? ((fields.get "type").orElse (fields.get "kind"))

/-- The data in a payload of a node. -/
def dataIn (fields : Fields) : Fields :=
  ((fields.get "data").orElse (fields.get "params")).fields?.getD []

/-- Nodes, read or still to be read, may differ in their data. -/
inductive OverridesEntry : Json ⊕ Node → Json ⊕ Node → Prop
  | same (entry : Json ⊕ Node) : OverridesEntry entry entry
  | payload {fields fields' : Fields}
      (hothers : ∀ key, key ≠ "data" → key ≠ "params" → fields'.get? key = fields.get? key)
      (h : s.OverridesData (kindIn fields = some .condition) (dataIn fields) (dataIn fields')) :
      OverridesEntry (.inl (.object fields)) (.inl (.object fields'))
  | ready {n n' : Node} (h : s.OverridesNode n n') : OverridesEntry (.inr n) (.inr n')

/-- Bindings may differ in the value that is stored with a parameter that is known. -/
inductive OverridesBinding : Binding → Binding → Prop
  | same (b : Binding) : OverridesBinding b b
  | stored {b : Binding} (value : Json) (h : s.Knows b) : OverridesBinding b { b with value }

variable {s}

/-! ### Bindings -/

namespace Knows

variable {b : Binding} (h : s.Knows b)
include h

theorem exists_lookup :
    ∃ id p, b.parameterId.filter (· ≠ "") = some id ∧ s.lookup id = some p := by
  obtain ⟨id, p, hid, hne, hp⟩ := h
  exact ⟨id, p, Option.filter_eq_some_iff.2 ⟨hid, by simpa using hne⟩, hp⟩

theorem refresh_value (value : Json) : s.refresh { b with value } = s.refresh b := by
  obtain ⟨id, p, hid, hp⟩ := h.exists_lookup
  simp only [refresh, hid, hp]

theorem resolve_eq (seriesKeys : List String) (nodeId : String) :
    Condition.resolve s seriesKeys nodeId b = (s.refresh b, []) := by
  obtain ⟨id, p, hid, hp⟩ := h.exists_lookup
  have hsome : s.isEmpty = false := by
    cases s with
    | nil => cases hp
    | cons => rfl
  rw [Condition.resolve, hid]
  simp [hp, hsome]

end Knows

namespace OverridesBinding

variable {b b' : Binding} (h : s.OverridesBinding b b')
include h

theorem parameterId_eq : b'.parameterId = b.parameterId := by
  cases h with
  | same | stored => rfl

theorem label_eq : b'.label = b.label := by
  cases h with
  | same | stored => rfl

theorem refresh_eq : s.refresh b' = s.refresh b := by
  cases h with
  | same => rfl
  | stored value hknown => exact hknown.refresh_value value

theorem resolve_eq (seriesKeys : List String) (nodeId : String) :
    Condition.resolve s seriesKeys nodeId b' = Condition.resolve s seriesKeys nodeId b := by
  cases h with
  | same => rfl
  | stored value hknown =>
    have hknown' : s.Knows { b with value } := hknown
    rw [hknown.resolve_eq, hknown'.resolve_eq, hknown.refresh_value]

end OverridesBinding

theorem Knows.isEmpty_eq {fields : Fields} (h : s.Knows (Binding.ofFields fields)) :
    fields.isEmpty = false := by
  obtain ⟨id, p, hid, -⟩ := h
  cases fields with
  | nil => cases hid
  | cons => rfl

theorem Overrides.binding {j j' : Json} (h : s.Overrides j j') :
    Option.Rel s.OverridesBinding (Binding.ofJson? j) (Binding.ofJson? j') := by
  cases h with
  | same =>
    cases Binding.ofJson? j with
    | none => exact .none
    | some b => exact .some (.same b)
  | @stored fields fields' hothers hunnamed hknown =>
    have hget : ∀ key, key ≠ "value" → fields'.get key = fields.get key := fun key hkey =>
      congrArg (fun value => value.getD .null) (hothers key hkey)
    -- Without a `paramName` the stored value is no part of the label.
    have hfields : Binding.ofFields fields' =
        { Binding.ofFields fields with value := Binding.valueOf fields' } := by
      simp [Binding.ofFields, hunnamed, hothers, hget]
    have hknown' : s.Knows (Binding.ofFields fields') := by
      rw [hfields]
      exact hknown
    rw [Binding.ofJson?, Binding.ofJson?, hknown.isEmpty_eq, hknown'.isEmpty_eq, hfields]
    exact .some (.stored _ hknown)

/-! ### Slots -/

/-- Slots may differ in what they are bound to. -/
def OverridesVariable (s : Snapshot) (v v' : Option Variable) : Prop :=
  Option.Rel s.OverridesBinding (v.bind Variable.binding) (v'.bind Variable.binding)

theorem OverridesVariable.refl (v : Option Variable) : s.OverridesVariable v v := by
  rw [OverridesVariable]
  cases v.bind Variable.binding with
  | none => exact .none
  | some b => exact .some (.same b)

theorem OverridesVariable.join {v v' : Option (Option Variable)}
    (h : Option.Rel s.OverridesVariable v v') : s.OverridesVariable (v.bind id) (v'.bind id) := by
  cases h with
  | none => exact .refl none
  | some h => exact h

namespace OverridesSlot

variable {slot slot' : Json} (h : s.OverridesSlot slot slot')
include h

theorem read : s.OverridesVariable (Variable.ofJson? slot) (Variable.ofJson? slot') := by
  cases h with
  | same => exact .refl _
  | stored hothers hdata hdata' h =>
    rw [Variable.ofJson?, Variable.ofJson?, hdata, hdata']
    exact h.binding

theorem label_eq (label : Json) :
    (slot'.fields?.any fun fields => (fields.get "label").same label) =
      slot.fields?.any fun fields => (fields.get "label").same label := by
  cases h with
  | same => rfl
  | stored hothers =>
    have hlabel := congrArg (fun value => value.getD .null) (hothers "label" (by decide))
    exact congrArg (fun j : Json => j.same label) hlabel

end OverridesSlot

theorem OverridesSlots.agree_items {isCondition : Prop} {j j' : Json}
    (h : s.OverridesSlots isCondition j j') :
    Agree Eq (List.Forall₂ s.OverridesSlot) j.itemsIfAny j'.itemsIfAny := by
  cases h with
  | same =>
    cases j.itemsIfAny with
    | ok items => exact .ok (List.forall₂_same.2 fun slot _ => .same slot)
    | error fault => exact .error rfl
  | @stored slots slots' h =>
    cases h with
    | nil => exact .ok .nil
    | cons hslot h => exact .ok (.cons hslot h)

/-! ### Nodes -/

namespace OverridesData

variable {isCondition : Prop} {data data' : Fields}

theorem refl (data : Fields) : s.OverridesData isCondition data data where
  others _ _ _ := rfl
  slots := .same _
  lookback := .same _

theorem get_eq (h : s.OverridesData isCondition data data') (key : String)
    (hslots : key ≠ "variables") (hlookback : key ≠ "lookbackVariable") :
    data'.get key = data.get key :=
  congrArg (fun value => value.getD .null) (h.others key hslots hlookback)

end OverridesData

namespace OverridesNode

variable {n n' : Node} (h : s.OverridesNode n n')
include h

theorem agree_slotLabelled? (label : Json) :
    Agree Eq s.OverridesVariable (n.slotLabelled? label) (n'.slotLabelled? label) := by
  refine h.data.slots.agree_items.map fun slots slots' hslots => ?_
  have hfound := rel_find? (fun slot slot' hslot => (hslot.label_eq label).symm) hslots
  generalize slots.find? _ = found at hfound ⊢
  generalize slots'.find? _ = found' at hfound ⊢
  cases hfound with
  | none => exact .refl _
  | some hslot => exact hslot.read

theorem agree_readSlots :
    Agree Eq (List.Forall₂ s.OverridesVariable) n.readSlots n'.readSlots := by
  refine h.data.slots.agree_items.map fun slots slots' hslots => ?_
  rw [List.forall₂_map_left_iff, List.forall₂_map_right_iff]
  exact hslots.imp fun _ _ hslot => hslot.read

theorem operator?_eq (hkind : n.kind = .condition) : n'.operator? = n.operator? := by
  have hoperator : n'.data.get "operator" = n.data.get "operator" :=
    h.data.get_eq "operator" (by decide) (by decide)
  have hthird : Node.thirdSlot? (n'.data.get "variables") =
      Node.thirdSlot? (n.data.get "variables") := by
    have hslots := h.data.slots
    generalize n.data.get "variables" = j at hslots ⊢
    generalize n'.data.get "variables" = j' at hslots ⊢
    cases hslots with
    | same => rfl
    | stored hslots hthird =>
      rw [Node.thirdSlot?_array, Node.thirdSlot?_array, hthird hkind]
  rw [Node.operator?, Node.operator?, hoperator, hthird]

theorem outline_eq : n'.outline = n.outline := by
  refine Node.outline_congr ?_ fun key hkey => h.data.get_eq key ?_ ?_
  · cases n'
    obtain ⟨rfl, rfl, rfl, rfl, -⟩ := h
    rfl
  · rintro rfl
    simp [Node.outlineKeys] at hkey
  · rintro rfl
    simp [Node.outlineKeys] at hkey

end OverridesNode

theorem OverridesNode.refl (n : Node) : s.OverridesNode n n where
  id := rfl
  kind := rfl
  position := rfl
  size := rfl
  data := .refl n.data

end Snapshot

/-! ### Reading nodes -/

namespace Node

variable {R : Node → Node → Prop} {s : Snapshot}

theorem agree_read {fields fields' : Fields}
    (hothers : ∀ key, key ≠ "data" → key ≠ "params" → fields'.get? key = fields.get? key)
    (hdata : ∀ n : Node, Snapshot.kindIn fields = some n.kind → n.data = Snapshot.dataIn fields →
      R n { n with data := Snapshot.dataIn fields' }) :
    Agree Eq (Agree Eq R) (read (.object fields)) (read (.object fields')) := by
  have hget : ∀ key, key ≠ "data" → key ≠ "params" → fields'.get key = fields.get key :=
    fun key h h' => congrArg (fun value => value.getD .null) (hothers key h h')
  -- All but the data is the same, and so is the place where reading ends with a warning.
  have hsize : readSize fields' = readSize fields := by simp [readSize, readPair, hget]
  rw [read, read, hget "id" (by decide) (by decide), hget "type" (by decide) (by decide),
    hget "kind" (by decide) (by decide), hget "position" (by decide) (by decide), hsize]
  by_cases hid : ((fields.get "id").isNull || (fields.get "id").text = "") = true
  · rw [if_pos hid, if_pos hid]
    exact .ok (.error rfl)
  · rw [if_neg hid, if_neg hid]
    cases hkind : Snapshot.kindIn fields with
    | none =>
      rw [Snapshot.kindIn] at hkind
      rw [hkind]
      exact .ok (.error rfl)
    | some kind =>
      rw [hkind] at hdata
      rw [Snapshot.kindIn] at hkind
      rw [hkind]
      refine (Agree.same _).bind fun position _ hposition => ?_
      refine (Agree.same _).bind fun size _ hsize => ?_
      subst hposition hsize
      exact .ok (.ok (hdata ⟨_, kind, position, size, _⟩ rfl rfl))

/-- **Entries that differ in what parameters override are read as nodes that do.** -/
theorem agree_readEntry {entry entry' : Json ⊕ Node} (h : s.OverridesEntry entry entry') :
    Agree Eq (Agree Eq s.OverridesNode) (readEntry entry) (readEntry entry') := by
  cases h with
  | same =>
    cases hentry : readEntry entry with
    | error fault => exact .error rfl
    | ok r =>
      cases r with
      | error w => exact .ok (.error rfl)
      | ok n => exact .ok (.ok (.refl n))
  | payload hothers h =>
    refine agree_read hothers fun n hkind hdata => ⟨rfl, rfl, rfl, rfl, ?_⟩
    rw [hkind, Option.some_inj, ← hdata] at h
    exact h
  | ready h => exact .ok (.ok h)

/-- Entries that are read as related nodes with one id are read as lists of such nodes, with the same
warnings. -/
theorem agree_readEntries (hid : ∀ n n', R n n' → n'.id = n.id) {entries entries' : List (Json ⊕ Node)}
    (h : List.Forall₂ (fun entry entry' => Agree Eq (Agree Eq R) (readEntry entry) (readEntry entry'))
      entries entries') (seen : List String) :
    Agree Eq (fun r r' => List.Forall₂ R r.1 r'.1 ∧ r'.2 = r.2)
      (readEntries seen entries) (readEntries seen entries') := by
  induction h generalizing seen with
  | nil => exact .ok ⟨.nil, rfl⟩
  | cons hentry _ ih =>
    -- Related nodes have one id, so both sides have seen the same ids.
    rw [readEntries, readEntries]
    refine hentry.bind fun r r' hr => ?_
    cases hr with
    | @error w _ hw =>
      subst hw
      refine (ih seen).bind fun rest rest' hrest => ?_
      exact .ok ⟨hrest.1, congrArg (w :: ·) hrest.2⟩
    | @ok n n' hn =>
      dsimp only
      rw [hid n n' hn]
      by_cases hseen : n.id ∈ seen
      · rw [if_pos hseen, if_pos hseen]
        refine (ih seen).bind fun rest rest' hrest => ?_
        exact .ok ⟨hrest.1, congrArg (Warning.duplicateNode n.id :: ·) hrest.2⟩
      · rw [if_neg hseen, if_neg hseen]
        refine (ih _).bind fun rest rest' hrest => ?_
        exact .ok ⟨.cons hn hrest.1, hrest.2⟩

end Node

end StrategyGraph
