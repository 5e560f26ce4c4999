import StrategyGraph.Proofs.Blueprint.Reading
import StrategyGraph.Proofs.Json.Legible
import StrategyGraph.Proofs.Json.Shown

/-!
# What can be compiled

Compiling a strategy leaves out what it cannot make sense of, but not everything: some values of a
payload end it with a fault.

* `Json.WindowFits` : the values that can be taken for a window, or for none;
* `Node.Placed`, `Edge.Attached` and `Node.Legible` : what nodes and edges must hold to be read, be
  made a series and be made a condition;
* `compile_succeeds_iff` : **lists of nodes, edges and parameters give a blueprint if and only if
  all their nodes and edges are of that kind.**

Ids, labels and the values in warnings are shown as texts, so the lists must hold values that can be
shown; all that is read from a text can (`Json.hasText_of_parse`).
-/

namespace StrategyGraph

/-! ### Values -/

namespace Json

variable {j : Json}

/-- The value can be compared with the smallest window: it is a truth value, or it is neither an
integer beyond all doubles nor infinite. -/
def WindowFits (j : Json) : Prop :=
  (∃ b, j = .bool b) ∨ ¬j.IsTooLarge ∧ ∀ x, j.toFloat = .ok x → x.isNaN = true ∨ x.isInf = false

/-- The value is a window. -/
def IsWindow (j : Json) : Prop := ∃ n, Producer.asWindow j = .ok (some n)

theorem succeeds_truncate? {x : Float} :
    Succeeds (truncate? x) ↔ x.isNaN = false ∧ x.isInf = false := by
  rw [truncate?]
  cases x.isNaN <;> cases x.isInf <;> simp

/-- A double, or none, as a window. -/
def windowOf : Option Float → Except Fault (Option Int)
  | none => .ok none
  | some x =>
    if x.isNaN then .ok none else (truncate? x).map fun n => if 1 ≤ n then some n else none

theorem asWindow_eq (h : ∀ b, j ≠ .bool b) : Producer.asWindow j = j.double? >>= windowOf := by
  cases j with
  | bool b => exact absurd rfl (h b)
  | null | array | object => rfl
  | number | string =>
    rw [Producer.asWindow.eq_def, double?]
    dsimp only
    generalize toFloat _ = r
    cases r with
    | error fault => cases fault <;> rfl
    | ok x => rfl

theorem succeeds_windowOf {x : Float} :
    Succeeds (windowOf (some x)) ↔ (x.isNaN = true ∨ x.isInf = false) := by
  rw [windowOf]
  cases hnan : x.isNaN with
  | true => exact iff_of_true (succeeds_ok _) (.inl rfl)
  | false =>
    simp only [Bool.false_eq_true, ↓reduceIte, succeeds_map, succeeds_truncate?, hnan, true_and,
      false_or]

theorem succeeds_asWindow : Succeeds (Producer.asWindow j) ↔ j.WindowFits := by
  by_cases hbool : ∃ b, j = .bool b
  · obtain ⟨b, rfl⟩ := hbool
    exact ⟨fun _ => .inl ⟨b, rfl⟩, fun _ => ⟨none, rfl⟩⟩
  · rw [asWindow_eq fun b hb => hbool ⟨b, hb⟩, succeeds_bind, succeeds_double?, WindowFits,
      or_iff_right hbool]
    refine and_congr_right fun _ => ⟨fun h x hx => ?_, fun h r hr => ?_⟩
    · exact succeeds_windowOf.1 (h _ (double?_eq_some.2 hx))
    · cases r with
      | none => exact succeeds_ok _
      | some x => exact succeeds_windowOf.2 (h x (double?_eq_some.1 hr))

end Json

theorem Node.succeeds_firstFound {α : Type} {searches : List (Unit → Except Fault (Option α))} :
    Succeeds (Node.firstFound searches) ↔
      UntilFound (fun s => Succeeds (s ())) (fun s => ∃ a, s () = .ok (some a)) searches := by
  induction searches with
  | nil => simp [Node.firstFound, UntilFound]
  | cons s searches ih =>
    rw [Node.firstFound, UntilFound, ← ih]
    exact succeeds_firstOf fun _ => succeeds_ok _

theorem Producer.succeeds_firstWindow {js : List Json} :
    Succeeds (Producer.firstWindow js) ↔ UntilFound Json.WindowFits Json.IsWindow js := by
  induction js with
  | nil => simp [Producer.firstWindow, UntilFound]
  | cons j js ih =>
    rw [Producer.firstWindow, UntilFound, ← ih, ← Json.succeeds_asWindow]
    exact succeeds_firstOf fun _ => succeeds_ok _

/-! ### Nodes -/

namespace Node

variable {j : Json} {first second : String} {fields : Fields} {seen : List String}
  {entries : List (Json ⊕ Node)}

/-- The fields of an object can be taken for two coordinates: the first is no integer beyond all
doubles, nor is the second if the first is a number. -/
def PairFits (j : Json) (first second : String) : Prop :=
  ∀ fields, j = .object fields → ¬(Fields.get fields first).IsTooLarge ∧
    (Succeeds (Fields.get fields first).toFloat → ¬(Fields.get fields second).IsTooLarge)

/-- Both fields of an object are numbers. -/
def IsPair (j : Json) (first second : String) : Prop :=
  ∃ fields, j = .object fields ∧ Succeeds (Fields.get fields first).toFloat ∧
    Succeeds (Fields.get fields second).toFloat

theorem readPair_object : readPair (.object fields) first second =
    (fields.get first).double? >>= fun r =>
      match r with
      | none => .ok none
      | some x => (fields.get second).double? >>= fun y => .ok (y.map fun y => (x, y)) := rfl

theorem succeeds_readPair : Succeeds (readPair j first second) ↔ PairFits j first second := by
  cases j with
  | object fields =>
    have hfields : ∀ fields', Json.object fields = .object fields' → fields = fields' := by
      rintro _ ⟨⟩
      rfl
    rw [readPair_object, succeeds_bind, Json.succeeds_double?]
    constructor
    · rintro ⟨hfirst, hsecond⟩ fields' heq
      obtain rfl := hfields _ heq
      refine ⟨hfirst, fun ⟨x, hx⟩ => ?_⟩
      exact Json.succeeds_double?.1 (succeeds_bind.1 (hsecond _ (Json.double?_eq_some.2 hx))).1
    · intro h
      obtain ⟨hfirst, hsecond⟩ := h fields rfl
      refine ⟨hfirst, fun r hr => ?_⟩
      cases r with
      | none => exact succeeds_ok _
      | some x =>
        have hnumber : Succeeds (Fields.get fields first).toFloat := ⟨x, Json.double?_eq_some.1 hr⟩
        exact succeeds_bind.2 ⟨Json.succeeds_double?.2 (hsecond hnumber), fun _ _ => succeeds_ok _⟩
  | _ => simp [readPair, PairFits]

theorem readPair_eq_some :
    (∃ p, readPair j first second = .ok (some p)) ↔ IsPair j first second := by
  constructor
  · rintro ⟨p, h⟩
    cases j with
    | object fields =>
      rw [readPair_object] at h
      obtain ⟨r, hr, h⟩ := bind_eq_ok.1 h
      cases r with
      | none => cases h
      | some x =>
        obtain ⟨r', hr', h⟩ := bind_eq_ok.1 h
        cases r' with
        | none => cases h
        | some y =>
          exact ⟨fields, rfl, ⟨x, Json.double?_eq_some.1 hr⟩, ⟨y, Json.double?_eq_some.1 hr'⟩⟩
    | _ => cases h
  · rintro ⟨fields, rfl, ⟨x, hx⟩, ⟨y, hy⟩⟩
    rw [readPair_object]
    exact ⟨(x, y), bind_eq_ok.2 ⟨_, Json.double?_eq_some.2 hx,
      bind_eq_ok.2 ⟨_, Json.double?_eq_some.2 hy, rfl⟩⟩⟩

/-- Where an editor stores the size of a node, with the names of the two fields. -/
def sizePlaces (fields : Fields) : List (Json × String × String) :=
  [(.object fields, "width", "height"), (fields.get "measured", "width", "height"),
   (fields.get "style", "width", "height"), (fields.get "size", "w", "h")]

theorem readSize_eq : readSize fields =
    firstFound ((sizePlaces fields).map fun p _ => readPair p.1 p.2.1 p.2.2) := rfl

theorem succeeds_readSize : Succeeds (readSize fields) ↔
    UntilFound (fun p => PairFits p.1 p.2.1 p.2.2) (fun p => IsPair p.1 p.2.1 p.2.2)
      (sizePlaces fields) := by
  rw [readSize_eq, succeeds_firstFound, untilFound_map]
  simp only [succeeds_readPair, readPair_eq_some]

/-- If the value is a node with an id and of a known kind, then its place and its size can be taken
for coordinates. -/
def Placed (j : Json) : Prop :=
  ∀ fields, j = .object fields → (Fields.get fields "id").isNull = false →
    (Fields.get fields "id").text ≠ "" →
    (NodeKind.ofJson? ((Fields.get fields "type").orElse (Fields.get fields "kind"))).isSome = true →
    PairFits (Fields.get fields "position") "x" "y" ∧
      UntilFound (fun p => PairFits p.1 p.2.1 p.2.2) (fun p => IsPair p.1 p.2.1 p.2.2)
        (sizePlaces fields)

theorem succeeds_read : Succeeds (read j) ↔ Placed j := by
  cases j with
  | object fields =>
    have hplaced : Placed (.object fields) ↔ (Fields.get fields "id").isNull = false →
        (Fields.get fields "id").text ≠ "" →
        (NodeKind.ofJson? ((Fields.get fields "type").orElse (Fields.get fields "kind"))).isSome =
          true →
        Succeeds (readPair (Fields.get fields "position") "x" "y") ∧ Succeeds (readSize fields) := by
      simp [Placed, succeeds_readPair, succeeds_readSize]
    rw [hplaced, read]
    dsimp only
    split
    · next hid =>
      refine iff_of_true (succeeds_ok _) fun hnull htext => ?_
      simp [hnull, htext] at hid
    · next hid =>
      have hid : (Fields.get fields "id").isNull = false ∧ (Fields.get fields "id").text ≠ "" := by
        simpa using hid
      split
      · next hkind => simp [hkind]
      · next kind hkind =>
        simp only [hid, hkind, Option.isSome_some, ne_eq, not_false_eq_true, forall_const]
        exact succeeds_bind_and Iff.rfl fun _ _ => succeeds_bind_iff fun _ => succeeds_ok _
  | _ => simp [read, Placed]

theorem succeeds_readEntries {js : List Json} :
    Succeeds (readEntries seen (js.map .inl)) ↔ ∀ j ∈ js, Placed j := by
  induction js generalizing seen with
  | nil => simp [readEntries]
  | cons j js ih =>
    have hentry : readEntry (.inl j) = read j := rfl
    rw [List.map_cons, readEntries, hentry, List.forall_mem_cons]
    refine succeeds_bind_and succeeds_read fun _ r => ?_
    cases r with
    | error w => exact (succeeds_bind_iff fun _ => succeeds_ok _).trans ih
    | ok n =>
      dsimp only
      split
      · exact (succeeds_bind_iff fun _ => succeeds_ok _).trans ih
      · exact (succeeds_bind_iff fun _ => succeeds_ok _).trans ih

end Node

/-! ### Edges -/

namespace Edge

variable {j : Json} {fields : Fields} {nodeIds : List String} {index : Nat}
  {entries : List (Json ⊕ Edge)}

/-- If the value is an edge with its ends in `from` and `to`, then either end is an object, unless
it counts as absent. -/
def Attached (j : Json) : Prop :=
  ∀ fields, j = .object fields → Fields.has fields "from" = true → Fields.has fields "to" = true →
    ∀ key ∈ ["from", "to"], (Fields.get fields key).isTruthy = true →
      ∃ node, Fields.get fields key = .object node

theorem succeeds_endFields :
    Succeeds (endFields j) ↔ (j.isTruthy = true → ∃ fields, j = .object fields) := by
  rw [endFields, Json.orElse]
  split
  · next htruthy => cases j <;> simp [Json.attributes, htruthy]
  · next hfalsy => simp [Json.attributes, hfalsy]

theorem succeeds_readEnds : Succeeds (readEnds fields) ↔
    (fields.has "from" = true ∧ fields.has "to" = true →
      Succeeds (endFields (fields.get "from")) ∧ Succeeds (endFields (fields.get "to"))) := by
  rw [readEnds]
  split
  · next hboth =>
    have hboth : fields.has "from" = true ∧ fields.has "to" = true := by simpa using hboth
    simp only [hboth, and_self, forall_const]
    exact succeeds_bind_and Iff.rfl fun _ _ => succeeds_bind_iff fun _ => succeeds_ok _
  · next hnot =>
    have hnot : ¬(fields.has "from" = true ∧ fields.has "to" = true) := by simpa using hnot
    refine iff_of_true ?_ fun hboth => absurd hboth hnot
    split <;> exact succeeds_ok _

theorem succeeds_read : Succeeds (read index j) ↔ Attached j := by
  cases j with
  | object fields =>
    have hread : Succeeds (read index (.object fields)) ↔ Succeeds (readEnds fields) := by
      rw [read]
      refine succeeds_bind_iff fun ends => ?_
      dsimp only
      split <;> exact succeeds_ok _
    rw [hread, succeeds_readEnds]
    simp [Attached, succeeds_endFields]
  | _ => simp [read, Attached]

theorem succeeds_readEntries {js : List Json} :
    Succeeds (readEntries nodeIds index (js.map .inl)) ↔ ∀ j ∈ js, Attached j := by
  induction js generalizing index with
  | nil => simp [readEntries]
  | cons j js ih =>
    have hentry : readEntry index (.inl j) = read index j := rfl
    rw [List.map_cons, readEntries, hentry, List.forall_mem_cons]
    refine succeeds_bind_and succeeds_read fun _ r => ?_
    refine (succeeds_bind_iff fun _ => ?_).trans ih
    dsimp only
    split <;> exact succeeds_ok _

end Edge

/-! ### Series and conditions -/

namespace Node

variable {n : Node} {label : Json}

/-- The slots of the node can be listed. -/
def SlotsListed (n : Node) : Prop := (n.data.get "variables").IsListing

/-- The slots can be listed, and of the values that may give the window none that comes before the
first window is too large for one. -/
def SeriesLegible (s : Snapshot) (n : Node) : Prop :=
  n.SlotsListed ∧ ∀ candidates, Producer.windowCandidates s n = .ok candidates →
    UntilFound Json.WindowFits Json.IsWindow candidates

/-- The slots can be listed, and if they are an object, there is no third one. -/
def ConditionLegible (n : Node) : Prop :=
  n.SlotsListed ∧ ∀ fields, n.data.get "variables" = .object fields → fields.length < 3

/-- What the node holds can be made what it is meant to be: a series or a condition. -/
def Legible (s : Snapshot) (n : Node) : Prop :=
  match n.kind with
  | .inputIndicator | .indicator => n.SeriesLegible s
  | .condition => n.ConditionLegible
  | _ => True

theorem succeeds_slots : Succeeds n.slots ↔ n.SlotsListed := Json.succeeds_itemsIfAny

theorem succeeds_slotLabelled? : Succeeds (n.slotLabelled? label) ↔ n.SlotsListed :=
  succeeds_map.trans succeeds_slots

theorem succeeds_readSlots : Succeeds n.readSlots ↔ n.SlotsListed :=
  succeeds_map.trans succeeds_slots

theorem succeeds_thirdSlot? {slots : Json} (h : slots.IsListing) :
    Succeeds (thirdSlot? slots) ↔ ∀ fields, slots = .object fields → fields.length < 3 := by
  unfold thirdSlot?
  split
  · next hfalsy =>
    refine iff_of_true (succeeds_ok _) ?_
    rintro fields rfl
    obtain rfl : fields = [] := by simpa [Json.isTruthy] using hfalsy
    decide
  · next htruthy =>
    rw [succeeds_bind]
    -- Lists and texts have items; an object fails when it has a third one.
    obtain ⟨items, rfl⟩ | ⟨text, rfl⟩ | ⟨fields, rfl⟩ := h (by simpa using htruthy)
    · refine iff_of_true ⟨succeeds_ok _, fun count _ => ?_⟩ (by simp)
      split <;> exact succeeds_ok _
    · refine iff_of_true ⟨succeeds_ok _, fun count _ => ?_⟩ (by simp)
      split <;> exact succeeds_ok _
    · have hlength : (Json.object fields).length = .ok fields.length := rfl
      simp only [hlength, succeeds_ok, true_and, Except.ok.injEq, forall_eq', Json.object.injEq]
      split
      · next hshort => exact iff_of_true (succeeds_ok _) hshort
      · next hlong => exact iff_of_false (not_succeeds_error _) hlong

theorem succeeds_operator? (h : n.SlotsListed) : Succeeds n.operator? ↔
    ∀ fields, n.data.get "variables" = .object fields → fields.length < 3 :=
  (succeeds_bind_iff fun _ => succeeds_ok _).trans (succeeds_thirdSlot? h)

end Node

namespace Producer

variable {settings : Settings} {g : Graph} {s : Snapshot} {n : Node} {taken : List String}
  {nodes : List Node} {default : String}

theorem succeeds_outputKey? (h : n.kind = .indicator → n.SlotsListed) :
    Succeeds (outputKey? g n default) := by
  have hslot : Succeeds (slotKey? n) := by
    rw [slotKey?]
    split
    · exact succeeds_ok _
    · next hkind =>
      have hslots := h (not_not.1 hkind)
      exact (succeeds_bind_iff fun _ => succeeds_ok _).2 (Node.succeeds_slotLabelled?.2 hslots)
  rw [outputKey?]
  split
  · exact succeeds_ok _
  · refine (succeeds_bind_iff fun key => ?_).2 hslot
    split <;> exact succeeds_ok _

theorem succeeds_windowCandidates : Succeeds (windowCandidates s n) ↔ n.SlotsListed := by
  rw [windowCandidates]
  exact (succeeds_bind_iff fun _ => succeeds_ok _).trans Node.succeeds_slotLabelled?

theorem succeeds_window : Succeeds (window settings s n) ↔ n.SeriesLegible s := by
  rw [window, succeeds_bind, succeeds_windowCandidates, Node.SeriesLegible]
  refine and_congr_right fun _ => forall_congr' fun candidates => imp_congr_right fun _ => ?_
  refine (succeeds_bind_iff fun found => ?_).trans succeeds_firstWindow
  cases found <;> exact succeeds_ok _

theorem succeeds_read :
    Succeeds (read settings g s n) ↔ (n.kind ≠ .inputPrice → n.SeriesLegible s) := by
  by_cases hkind : n.kind = .inputPrice
  · rw [read, if_pos hkind]
    refine iff_of_true ((succeeds_bind_iff fun _ => succeeds_ok _).2 ?_) fun h => absurd hkind h
    exact succeeds_outputKey? fun h => by cases hkind.symm.trans h
  · rw [read, if_neg hkind, succeeds_bind]
    constructor
    · rintro ⟨⟨key, hkey⟩, h⟩ -
      exact succeeds_window.1 ((succeeds_bind_iff fun _ => succeeds_ok _).1 (h key hkey))
    · intro h
      have hlegible := h hkind
      refine ⟨succeeds_outputKey? fun _ => hlegible.1, fun _ _ => ?_⟩
      exact (succeeds_bind_iff fun _ => succeeds_ok _).2 (succeeds_window.2 hlegible)

theorem succeeds_readNodes : Succeeds (readNodes settings g s taken nodes) ↔
    ∀ n ∈ nodes, n.kind.role = .producer → Succeeds (read settings g s n) := by
  induction nodes generalizing taken with
  | nil => simp [readNodes]
  | cons n ns ih =>
    rw [readNodes, List.forall_mem_cons]
    split
    · next hrole =>
      rw [ih]
      exact (and_iff_right fun h => absurd h hrole).symm
    · next hrole =>
      have hrole := not_not.1 hrole
      simp only [hrole, forall_const]
      refine succeeds_bind_and Iff.rfl fun _ _ => ?_
      split
      · exact (succeeds_bind_iff fun _ => succeeds_ok _).trans ih
      · exact (succeeds_bind_iff fun _ => succeeds_ok _).trans ih

end Producer

namespace Condition

variable {s : Snapshot} {keys : List String} {n : Node} {nodes : List Node}

theorem succeeds_read : Succeeds (read s keys n) ↔ n.ConditionLegible := by
  rw [read, Node.ConditionLegible]
  refine succeeds_bind_and Node.succeeds_readSlots fun hslots _ => ?_
  rw [← Node.succeeds_operator? hslots]
  exact succeeds_bind_iff fun _ => succeeds_ok _

theorem succeeds_readNodes :
    Succeeds (readNodes s keys nodes) ↔ ∀ n ∈ nodes, n.ConditionLegible := by
  induction nodes with
  | nil => simp [readNodes]
  | cons n ns ih =>
    rw [readNodes, List.forall_mem_cons]
    refine succeeds_bind_and succeeds_read fun _ _ => ?_
    exact (succeeds_bind_iff fun _ => succeeds_ok _).trans ih

end Condition

/-! ### Blueprints -/

namespace Node

theorem legible_iff {s : Snapshot} {n : Node} : n.Legible s ↔
    (n.kind.role = .producer → n.kind ≠ .inputPrice → n.SeriesLegible s) ∧
      (n.kind = .condition → n.ConditionLegible) := by
  rw [Legible]
  cases n.kind <;> simp [NodeKind.role]

end Node

theorem Blueprint.succeeds_ofGraph {settings : Settings} {g : Graph} {parameters : List Json}
    {warnings : List Warning} :
    Succeeds (Blueprint.ofGraph settings g (.array parameters) warnings) ↔
      ∀ n ∈ g.nodes, n.Legible (parameters.foldl Snapshot.add []) := by
  have hsnapshot : Snapshot.read (.array parameters) g.nodes =
      .ok (parameters.foldl Snapshot.add []) := by
    cases parameters <;> rfl
  rw [Blueprint.ofGraph, hsnapshot]
  generalize parameters.foldl Snapshot.add [] = s
  have hproducers : Succeeds (Producer.readAll settings g s) ↔
      ∀ n ∈ g.nodes, n.kind.role = .producer → n.kind ≠ .inputPrice → n.SeriesLegible s := by
    rw [Producer.readAll, Producer.succeeds_readNodes]
    simp only [Producer.succeeds_read]
  have hconditions : ∀ keys, Succeeds (Condition.readAll s keys g) ↔
      ∀ n ∈ g.nodes, n.kind = .condition → n.ConditionLegible := by
    intro keys
    rw [Condition.readAll, Condition.succeeds_readNodes]
    simp [Graph.ofKind]
  change Succeeds (Producer.readAll settings g s >>= _) ↔ _
  simp only [Node.legible_iff, imp_and, forall_and]
  refine succeeds_bind_and hproducers fun _ _ => ?_
  exact (succeeds_bind_iff fun _ => succeeds_ok _).trans (hconditions _)

-- The condition is about `Json.text`, which leaves out the limit for the digits of integers: what
-- compiling shows is shown right only where the limit is kept.
/-- **Which strategies can be compiled.** -/
theorem compile_succeeds_iff (settings : Settings) (nodes edges parameters : List Json)
    (_ : ∀ j ∈ nodes ++ edges ++ parameters, j.HasText) :
    (∃ b, compile settings (.payload (.array nodes)) (.payload (.array edges))
        (.array parameters) = .ok b) ↔
      (∀ j ∈ nodes, Node.Placed j) ∧
        ∀ ns warnings, Node.readAll (nodes.map .inl) = .ok (ns, warnings) → ns ≠ [] →
          (∀ j ∈ edges, Edge.Attached j) ∧
            ∀ n ∈ ns, n.Legible (parameters.foldl Snapshot.add []) := by
  change Succeeds (compile _ _ _ _) ↔ _
  have hentries : ∀ {α : Type} (js : List Json),
      (Supply.payload (.array js) : Supply α).entries = .ok (js.map .inl) := by
    intro α js
    cases js <;> rfl
  rw [compile]
  split
  · next hempty =>
    obtain rfl : nodes = [] := by simpa [Supply.isEmpty, Json.isTruthy] using hempty
    refine iff_of_true (succeeds_ok _) ⟨by simp, fun ns warnings hns hne => ?_⟩
    cases hns
    exact absurd rfl hne
  · rw [hentries]
    change Succeeds (Node.readAll _ >>= _) ↔ _
    rw [succeeds_bind, Node.readAll, Node.succeeds_readEntries, Prod.forall]
    refine and_congr_right fun _ => forall_congr' fun ns => forall_congr' fun warnings =>
      imp_congr_right fun _ => ?_
    dsimp only
    split
    · next hnil => exact iff_of_true (succeeds_ok _) fun hne => absurd (List.isEmpty_iff.1 hnil) hne
    · next hne =>
      have hne : ns ≠ [] := by simpa using hne
      rw [hentries]
      change Succeeds (Edge.readAll _ _ >>= _) ↔ _
      rw [forall_prop_of_true hne]
      exact succeeds_bind_and Edge.succeeds_readEntries fun _ _ => Blueprint.succeeds_ofGraph

/-- A purchase at a node whose id is a number. -/
def numberedNodes : List Json := [.object [("id", .ofInt 5), ("type", .string "buyNode")]]

/-- A parameter whose value is too large for a double. -/
def numberedParameters : List Json := [.object [("id", .ofInt 7), ("value", .ofInt (tenTo 400))]]

/-- Numbers as ids can be shown, and a large value that is not asked for does no harm. -/
theorem compile_succeeds_iff_numbered :
    (∀ j ∈ numberedNodes ++ [] ++ numberedParameters, j.HasText) ∧
    ∃ b, compile {} (.payload (.array numberedNodes)) (.payload (.array []))
      (.array numberedParameters) = .ok b := by
  have hshown : ∀ j ∈ numberedNodes ++ [] ++ numberedParameters, j.HasText := by decide +kernel
  refine ⟨hshown, (compile_succeeds_iff {} numberedNodes [] numberedParameters hshown).2 ⟨?_, ?_⟩⟩
  · exact List.forall_mem_singleton.2 (Node.succeeds_read.1 ⟨_, rfl⟩)
  · rintro ns warnings hns -
    cases hns
    exact ⟨by simp, List.forall_mem_singleton.2 trivial⟩

/-- A strategy whose only edge names its ends by texts. -/
theorem compile_named_ends : compile {}
    (.payload (.array [.object [("id", .string "a"), ("type", .string "buyNode")]]))
    (.payload (.array [.object [("from", .string "a"), ("to", .string "a")]])) (.array []) =
      .error (.noAttribute "str" "get") := by
  rfl

end StrategyGraph
