import StrategyGraph.Proofs.Blueprint.Drafts
import StrategyGraph.Proofs.Blueprint.Snapshot

/-!
# Comparisons in several shapes

A slot holds a number or a text in one of four shapes: bare, as a value, as data or as the value of
data. Which of them it is does not matter to the condition that is compiled.

* `Constant` and `Comparison` : a number or a text, and a comparison of two of them;
* `Comparison.Stored` : the slots of a node hold a comparison, each slot in one of the shapes;
* `Condition.read_stored` : the condition that is read depends on the comparison only;
* `Node.StoredAlike` : entries differ at most in the shapes in which their slots are written;
* `compile_shapes` : **edges are read, and conditions compiled, alike from all shapes.**
-/

namespace StrategyGraph

/-! ### Slots -/

/-- A number or a text. -/
inductive Constant where
  /-- A number. -/
  | number (n : Number)
  /-- A text. -/
  | text (s : String)

namespace Constant

/-- The constant as a value. -/
def toJson : Constant → Json
  | .number n => .number n
  | .text s => .string s

/-- The slot holds the constant, in one of four shapes. -/
inductive Stored (v : Constant) : Json → Prop
  /-- It stands for itself. -/
  | bare : Stored v v.toJson
  /-- It is a value. -/
  | value : Stored v (.object [("value", v.toJson)])
  /-- It is data. -/
  | data : Stored v (.object [("parameterData", v.toJson)])
  /-- It is the value of data. -/
  | dataValue : Stored v (.object [("parameterData", .object [("value", v.toJson)])])

variable {v : Constant} {slot : Json}

/-- **An operand is read from every shape.** -/
theorem Stored.ofJson? (h : v.Stored slot) :
    Variable.ofJson? slot = some ⟨.null, some (Binding.ofValue v.toJson)⟩ := by
  cases h with
  | bare => cases v <;> rfl
  | value => rfl
  | data => cases v <;> rfl
  | dataValue => rfl

/-- **An operator is read from every shape.** -/
theorem Stored.operatorText? {op : String} (h : (text op).Stored slot) :
    Node.operatorText? (Node.operatorIn slot) = Node.operatorText? (.string op) := by
  cases h with
  | bare | value | data | dataValue => rfl

end Constant

/-! ### Nodes -/

/-- A comparison of two constants. -/
structure Comparison where
  /-- The left operand. -/
  left : Constant
  /-- The right operand. -/
  right : Constant
  /-- The operator, which may be blank. -/
  operator : String

namespace Comparison

/-- The slots hold the comparison, each of them in one of the shapes. -/
inductive Stored (c : Comparison) : Json → Prop
  /-- The operands come first, then the operator. -/
  | slots {left right operator : Json} (hleft : c.left.Stored left) (hright : c.right.Stored right)
      (hoperator : (Constant.text c.operator).Stored operator) :
      Stored c (.array [left, right, operator])

/-- The condition of a node that makes the comparison. A blank operator is replaced by the one that
stands beside the slots. -/
def condition (c : Comparison) (n : Node) : Condition where
  nodeId := n.id
  left := some (Binding.ofValue c.left.toJson)
  right := some (Binding.ofValue c.right.toJson)
  operator := (Node.operatorText? (.string c.operator)).or
    (Node.operatorText? (n.data.get "operator"))

end Comparison

variable {c : Comparison} {n n' : Node}

/-- An operand without a parameter stays as it is. -/
theorem Condition.operand_constant (s : Snapshot) (seriesKeys : List String) (nodeId : String)
    (side : Side) (value : Json) :
    operand s seriesKeys nodeId side (some ⟨.null, some (Binding.ofValue value)⟩) =
      (some (Binding.ofValue value), []) := rfl

/-- **The condition of a node depends on its comparison only.** -/
theorem Condition.read_stored (h : c.Stored (n.data.get "variables")) (s : Snapshot)
    (seriesKeys : List String) :
    Condition.read s seriesKeys n =
      .ok (c.condition n, if (c.condition n).operator.isNone then [.noOperator n.id] else []) := by
  generalize hslots : n.data.get "variables" = slots at h
  cases h with
  | @slots left right operator hleft hright hoperator =>
    have hread : n.readSlots = .ok ([left, right, operator].map Variable.ofJson?) := by
      rw [Node.readSlots, Node.slots, hslots]
      rfl
    have hoperator? : n.operator? = .ok ((Node.operatorText? (.string c.operator)).or
        (Node.operatorText? (n.data.get "operator"))) := by
      rw [Node.operator?, hslots, Node.thirdSlot?_array, ok_bind, ← hoperator.operatorText?]
      rfl
    rw [Condition.read, hread, ok_bind, Comparison.condition]
    generalize (Node.operatorText? (.string c.operator)).or _ = operator? at hoperator? ⊢
    simp only [List.map_cons, List.getElem?_cons_zero, List.getElem?_cons_succ, Option.bind_some, id,
      hleft.ofJson?, hright.ofJson?, operand_constant, hoperator?, ok_bind, List.nil_append]
    rfl

namespace Node

/-- The data of nodes may differ in the shapes in which a comparison is written. -/
structure DataAlike (data data' : Fields) : Prop where
  others : ∀ key, key ≠ "variables" → data'.get? key = data.get? key
  slots : ∃ c : Comparison, c.Stored (data.get "variables") ∧ c.Stored (data'.get "variables")

/-- Nodes may do so if they are conditions. -/
inductive Alike : Node → Node → Prop
  /-- They do not differ. -/
  | same (n : Node) : Alike n n
  /-- They are conditions that make the same comparison. -/
  | stored {n n' : Node} (hkind : n.kind = .condition) (h : DataAlike n.data n'.data)
      (hsame : n' = { n with data := n'.data }) : Alike n n'

/-- So may entries, read or still to be read. -/
inductive StoredAlike : Json ⊕ Node → Json ⊕ Node → Prop
  /-- They do not differ. -/
  | same (entry : Json ⊕ Node) : StoredAlike entry entry
  /-- They are payloads of conditions that make the same comparison. -/
  | payload {fields fields' : Fields} (hkind : Snapshot.kindIn fields = some .condition)
      (hothers : ∀ key, key ≠ "data" → key ≠ "params" → fields'.get? key = fields.get? key)
      (h : DataAlike (Snapshot.dataIn fields) (Snapshot.dataIn fields')) :
      StoredAlike (.inl (.object fields)) (.inl (.object fields'))
  /-- They are conditions that make the same comparison. -/
  | ready {n n' : Node} (h : Alike n n') : StoredAlike (.inr n) (.inr n')

theorem DataAlike.get_eq {data data' : Fields} (h : DataAlike data data') {key : String}
    (hkey : key ≠ "variables") : data'.get key = data.get key :=
  congrArg (fun value => value.getD .null) (h.others key hkey)

namespace Alike

variable (h : Alike n n')
include h

theorem id_eq : n'.id = n.id := by
  cases h with
  | same => rfl
  | stored _ _ hsame => rw [hsame]

theorem kind_eq : n'.kind = n.kind := by
  cases h with
  | same => rfl
  | stored _ _ hsame => rw [hsame]

theorem outline_eq : n'.outline = n.outline := by
  cases h with
  | same => rfl
  | stored _ h hsame =>
    refine outline_congr hsame fun key hkey => h.get_eq ?_
    rintro rfl
    simp [outlineKeys] at hkey

theorem carriedBy?_eq : Snapshot.carriedBy? n' = Snapshot.carriedBy? n := by
  cases h with
  | same => rfl
  | stored _ h => rw [Snapshot.carriedBy?, Snapshot.carriedBy?, h.get_eq (by decide)]

theorem read_eq (s : Snapshot) (seriesKeys : List String) :
    Condition.read s seriesKeys n' = Condition.read s seriesKeys n := by
  cases h with
  | same => rfl
  | stored _ h hsame =>
    obtain ⟨c, hc, hc'⟩ := h.slots
    have hcondition : c.condition n' = c.condition n := by
      rw [Comparison.condition, Comparison.condition, h.get_eq (by decide), hsame]
    have hid : n'.id = n.id := by rw [hsame]
    rw [Condition.read_stored hc, Condition.read_stored hc', hcondition, hid]

end Alike

theorem agree_readEntry_stored {entry entry' : Json ⊕ Node} (h : StoredAlike entry entry') :
    Agree Eq (Agree Eq Alike) (readEntry entry) (readEntry entry') := by
  cases h with
  | same =>
    cases hentry : readEntry entry with
    | error fault => exact .error rfl
    | ok r =>
      cases r with
      | error w => exact .ok (.error rfl)
      | ok n => exact .ok (.ok (.same n))
  | payload hkind hothers h =>
    refine agree_read hothers fun n hn hdata => .stored ?_ (hdata ▸ h) rfl
    exact Option.some.inj (hn.symm.trans hkind)
  | ready h => exact .ok (.ok h)

end Node

/-! ### Graphs -/

variable {ns ns' : List Node} {es : List Edge} {settings : Settings} {parameters : Json}

theorem Producer.readNodes_alike {g g' : Graph} (houtline : g'.outline = g.outline) (s : Snapshot)
    (h : List.Forall₂ Node.Alike ns ns') (taken : List String) :
    Producer.readNodes settings g' s taken ns' = Producer.readNodes settings g s taken ns := by
  induction h generalizing taken with
  | nil => rfl
  | @cons n n' ns ns' hn _ ih =>
    rw [Producer.readNodes, Producer.readNodes, hn.kind_eq]
    by_cases hrole : n.kind.role ≠ .producer
    · rw [if_pos hrole, if_pos hrole, ih]
    · rw [if_neg hrole, if_neg hrole]
      cases hn with
      | same =>
        have hsetter : Producer.setterKey? g' n = Producer.setterKey? g n := by
          rw [← Producer.setterKey?_outline, houtline, Producer.setterKey?_outline]
        have hread : Producer.read settings g' s n = Producer.read settings g s n := by
          simp only [Producer.read, Producer.outputKey?, hsetter]
        simp only [hread, ih]
      | stored hkind =>
        rw [hkind] at hrole
        exact absurd (by decide) hrole

theorem Condition.readNodes_alike (s : Snapshot) (seriesKeys : List String)
    (h : List.Forall₂ Node.Alike ns ns') :
    Condition.readNodes s seriesKeys ns' = Condition.readNodes s seriesKeys ns := by
  induction h with
  | nil => rfl
  | cons hn _ ih => rw [Condition.readNodes, Condition.readNodes, hn.read_eq, ih]

/-- Graphs whose nodes differ in such shapes correspond. -/
theorem Blueprint.corresponds_of_alike (h : List.Forall₂ Node.Alike ns ns') :
    Blueprint.Corresponds settings parameters ⟨ns, es⟩ ⟨ns', es⟩ := by
  have houtline : (Graph.mk ns' es).outline = (Graph.mk ns es).outline :=
    congrArg (Graph.mk · es) (map_eq_of_forall₂ (h.imp fun _ _ hn => hn.outline_eq))
  refine ⟨houtline, ?_, fun s _ => ?_, fun s _ seriesKeys => ?_⟩
  · rw [Snapshot.read, Snapshot.read,
      findSome?_eq_of_forall₂ (h.imp fun _ _ hn => hn.carriedBy?_eq)]
  · exact Producer.readNodes_alike houtline s h []
  · refine Condition.readNodes_alike s seriesKeys (List.rel_filter (fun n n' hn => ?_) h)
    simp [hn.kind_eq]

/-! ### Compiling -/

/-- **Edges are read, and conditions compiled, alike from all shapes.** What is read of a list of
drafts does not depend on how each of them is stored. And nodes whose slots hold the same comparisons
have alike blueprints, in which the condition of each such node is the one of its comparison. -/
theorem compile_shapes :
    (∀ nodeIds drafts, ∃ edges warnings, ∀ entries, List.Forall₂ Edge.Draft.Stored drafts entries →
      Edge.readAll nodeIds (entries.map .inl) = .ok (edges, warnings)) ∧
    ∀ settings nodes nodes' edges parameters entries entries' b,
      nodes.entries = .ok entries → nodes'.entries = .ok entries' →
      List.Forall₂ Node.StoredAlike entries entries' →
      compile settings nodes edges parameters = .ok b →
      (∃ b', compile settings nodes' edges parameters = .ok b' ∧ b.Alike b') ∧
      ∀ ns nodeWarnings, Node.readAll entries = .ok (ns, nodeWarnings) →
        ∀ n ∈ ns, n.kind = .condition → ∀ c : Comparison, c.Stored (n.data.get "variables") →
        b.condition? n.id = some (c.condition n) := by
  constructor
  · intro nodeIds drafts
    exact ⟨_, _, fun entries h => Edge.readAll_stored h nodeIds⟩
  · intro settings nodes nodes' edges parameters entries entries' b hentries hentries' h hcompile
    constructor
    · refine (agree_compile (fun _ _ hn => hn.id_eq) hentries hentries'
        (h.imp fun _ _ => Node.agree_readEntry_stored) fun _ _ _ _ _ hns => ?_).exists_ok hcompile
      exact Blueprint.corresponds_of_alike hns
    · intro ns nodeWarnings hread n hn hkind c hc
      rcases compile_cases hcompile with ⟨_, _, _, hentries₀, hread₀, -⟩ |
        ⟨_, _, _, _, es, _, hentries₀, hread₀, -, -, -, hgraph⟩
      · cases hentries.symm.trans hentries₀
        cases hread.symm.trans hread₀
        cases hn
      · cases hentries.symm.trans hentries₀
        cases hread.symm.trans hread₀
        have hnodup : (Graph.mk ns es).ids.Nodup := (Node.readEntries_nodup hread).1
        obtain ⟨s, c', own, -, hc', hfound, -⟩ := Blueprint.exists_condition hnodup hgraph hn hkind
        cases (Condition.read_stored hc _ _).symm.trans hc'
        exact hfound

/-- An edge from a node whose id is zero, without a handle. -/
def zeroDraft : Edge.Draft where
  source := .ofInt 0
  target := .string "gate"
  handle := none
  others := [("id", .string "")]
  apart := by decide

/-- The draft in each of the shapes. -/
def zeroEdges : List Json :=
  [.object [("source", .ofInt 0), ("target", .string "gate"), ("sourceHandle", .null),
     ("id", .string "")],
   .object [("sourceNode", .ofInt 0), ("targetNode", .string "gate"), ("sourcePort", .null),
     ("id", .string "")],
   .object [("from", .object [("nodeId", .ofInt 0), ("port", .null)]),
     ("to", .object [("nodeId", .string "gate")]), ("id", .string "")]]

/-- Zero is compared with the empty text. -/
def zeroComparison : Comparison := ⟨.number (.int 0), .text "", ">"⟩

/-- A condition with these slots. -/
def zeroNode (slots : List Json) : Json :=
  .object [("id", .string "gate"), ("type", .string "if"),
    ("data", .object [("variables", .array slots)])]

theorem storedAlike_zeroNode {c : Comparison} {slots slots' : List Json}
    (h : c.Stored (.array slots)) (h' : c.Stored (.array slots')) :
    Node.StoredAlike (.inl (zeroNode slots)) (.inl (zeroNode slots')) := by
  refine .payload rfl (fun key hkey _ => ?_) ⟨fun key hkey => ?_, c, h, h'⟩
  · simp [Fields.get?_cons, hkey]
  · have hdata : ∀ slots, Snapshot.dataIn [("id", .string "gate"), ("type", .string "if"),
        ("data", .object [("variables", .array slots)])] = [("variables", .array slots)] :=
      fun _ => rfl
    rw [hdata, hdata, Fields.get?_cons, Fields.get?_cons, if_neg hkey, if_neg hkey]

/-- A draft is read alike from each of the shapes, and the comparison is compiled alike from two
mixtures of them. -/
theorem compile_shapes_zero : ∃ edges warnings b b',
    (∀ entries : List Json, entries.Perm zeroEdges →
      Edge.readAll ["0", "gate"] (entries.map .inl) = .ok (edges, warnings)) ∧
    compile {} (.payload (.array [zeroNode [.ofInt 0, .object [("value", .string "")],
      .object [("parameterData", .string ">")]]])) (.ready []) .null = .ok b ∧
    compile {} (.payload (.array [zeroNode [.object [("parameterData",
      .object [("value", .ofInt 0)])], .string "", .object [("value", .string ">")]]]))
      (.ready []) .null = .ok b' ∧
    b.Alike b' ∧ b.condition? "gate" =
      some ⟨"gate", some (.ofValue (.ofInt 0)), some (.ofValue (.string "")), some ">"⟩ := by
  obtain ⟨hedges, hnodes⟩ := compile_shapes
  obtain ⟨edges, warnings, hread⟩ := hedges ["0", "gate"] [zeroDraft, zeroDraft, zeroDraft]
  obtain ⟨b, h, -⟩ := exists_ok_of_any
    (x := compile {} (.payload (.array [zeroNode [.ofInt 0, .object [("value", .string "")],
      .object [("parameterData", .string ">")]]])) (.ready []) .null)
    (p := fun _ => true) (by decide)
  have hstored : zeroComparison.Stored (.array [.ofInt 0, .object [("value", .string "")],
      .object [("parameterData", .string ">")]]) := .slots .bare .value .data
  have hstored' : zeroComparison.Stored (.array [.object [("parameterData",
      .object [("value", .ofInt 0)])], .string "", .object [("value", .string ">")]]) :=
    .slots .dataValue .bare .value
  obtain ⟨⟨b', h', halike⟩, hcondition⟩ := hnodes _ _ (.payload (.array [zeroNode _]))
    _ _ _ _ _ rfl rfl (.cons (storedAlike_zeroNode hstored hstored') .nil) h
  refine ⟨edges, warnings, b, b', fun entries hperm => hread entries ?_, h, h', halike, ?_⟩
  · have hall : ∀ entry ∈ entries, zeroDraft.Stored entry := by
      intro entry hentry
      have hmem := hperm.mem_iff.1 hentry
      simp only [zeroEdges, List.mem_cons, List.not_mem_nil, or_false] at hmem
      rcases hmem with rfl | rfl | rfl
      · exact .plain fun _ => rfl
      · exact .ported fun _ => rfl
      · exact .nested (fun _ => rfl) (fun _ => rfl) fun _ => rfl
    have hlength : entries.length = 3 := hperm.length_eq
    match entries, hlength with
    | [first, second, third], _ =>
      simp only [List.forall_mem_cons] at hall
      exact .cons hall.1 (.cons hall.2.1 (.cons hall.2.2.1 .nil))
  · exact hcondition _ _ rfl _ List.mem_cons_self rfl zeroComparison hstored

end StrategyGraph
