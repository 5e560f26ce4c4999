import StrategyGraph.Graph.Binding
import StrategyGraph.Graph.Kind
import StrategyGraph.Graph.Warning

/-!
# Nodes

A node of a strategy graph has an id, a kind, a place in the editor and data. Its slots, its label,
its action and its operator are read from the data when they are needed.

* `Node.read` reads a node from a payload, or says why it is skipped;
* `Node.readAll` reads a list of nodes and keeps the first node of each id.
-/

namespace StrategyGraph

/-- A direction of trade. -/
inductive Direction where
  /-- A purchase. -/
  | buy
  /-- A sale. -/
  | sell
  deriving DecidableEq

/-- The name of a direction. -/
def Direction.name : Direction → String
  | .buy => "buy"
  | .sell => "sell"

/-- A node of a strategy graph. -/
structure Node where
  /-- The id, by which edges refer to the node. -/
  id : String
  /-- The kind. -/
  kind : NodeKind
  /-- The place of the left upper corner. -/
  position : Option (Float × Float) := none
  /-- Width and height. -/
  size : Option (Float × Float) := none
  /-- What the editor stores with the node. -/
  data : Fields := []

namespace Node

/-- The label; empty when there is none. -/
def label (n : Node) : String := ((n.data.get "label").orElse (.string "")).text

/-- The node is marked as the first condition. -/
def isMaster (n : Node) : Bool :=
  match n.data.get "isMaster" with
  | .bool b => b
  | _ => false

/-- The slots as they are stored. -/
def slots (n : Node) : Except Fault (List Json) := (n.data.get "variables").itemsIfAny

/-- The slots. -/
def readSlots (n : Node) : Except Fault (List (Option Variable)) :=
  n.slots.map (·.map Variable.ofJson?)

/-- The first slot with a label. -/
def slotLabelled? (n : Node) (label : Json) : Except Fault (Option Variable) :=
  n.slots.map fun slots =>
    (slots.find? fun slot => slot.fields?.any fun fields => (fields.get "label").same label).bind
      Variable.ofJson?

/-- The direction of trade of an action. An `execute` node that names none buys. -/
def action? (n : Node) : Option Direction :=
  match n.kind with
  | .buy => some .buy
  | .sell => some .sell
  | .execute =>
    match Text.lower (Text.strip ((n.data.get "action").orElse (.string "buy")).text) with
    | "buy" => some .buy
    | "sell" => some .sell
    | _ => none
  | _ => none

/-- The third slot, if there is one. The slots may be a list or a text; an object has no order. -/
def thirdSlot? (slots : Json) : Except Fault (Option Json) := do
  if !slots.isTruthy then pure none
  else if (← slots.length) < 3 then pure none
  else
    match slots with
    | .object _ => throw (.missingKey (.ofInt 2))
    | slots => pure ((← slots.items)[2]?)

/-- What a slot holds in the place of an operator. -/
def operatorIn (slot : Json) : Json :=
  match slot with
  | .object fields =>
    (Fields.get? fields "parameterData").getD (Fields.get fields "value")
  | slot => slot

/-- The operator that a value gives: a text that is not blank, or an object with such a value. -/
def operatorText? (j : Json) : Option String :=
  let j := match j with
    | .object fields => Fields.get fields "value"
    | j => j
  (j.string?.map Text.strip).filter (· ≠ "")

/-- The operator of a condition, from its third slot or from its data. -/
def operator? (n : Node) : Except Fault (Option String) := do
  let slot ← thirdSlot? (n.data.get "variables")
  pure (((slot.map operatorIn).bind operatorText?).or (operatorText? (n.data.get "operator")))

/-- Two coordinates of an object, if both are numbers or can be read as such. -/
def readPair (j : Json) (first second : String) : Except Fault (Option (Float × Float)) :=
  match j with
  | .object fields =>
    let read := fun key => match (Fields.get fields key).toFloat with
      | .error .integerTooLarge => .error .integerTooLarge
      | .error _ => .ok none
      | .ok x => .ok (some x)
    do
      match ← read first with
      | none => pure none
      | some x => pure ((← read second).map fun y => (x, y))
  | _ => .ok none

/-- The first of the computations that finds something. -/
def firstFound {α : Type} : List (Unit → Except Fault (Option α)) → Except Fault (Option α)
  | [] => .ok none
  | search :: searches => do
    match ← search () with
    | some a => pure (some a)
    | none => firstFound searches

/-- Reads the size from the places where an editor stores it. -/
def readSize (fields : Fields) : Except Fault (Option (Float × Float)) :=
  firstFound
    [fun _ => readPair (.object fields) "width" "height",
     fun _ => readPair (fields.get "measured") "width" "height",
     fun _ => readPair (fields.get "style") "width" "height",
     fun _ => readPair (fields.get "size") "w" "h"]

/-- Reads a node, or says why it is skipped. -/
def read (j : Json) : Except Fault (Except Warning Node) :=
  match j with
  | .object fields =>
    let id := Fields.get fields "id"
    if id.isNull || id.text = "" then .ok (.error .nodeWithoutId)
    else
      match NodeKind.ofJson? ((Fields.get fields "type").orElse (Fields.get fields "kind")) with
      | none => .ok (.error (.unknownNodeType id (Fields.get fields "type")))
      | some kind => do
        let position ← readPair (Fields.get fields "position") "x" "y"
        let size ← readSize fields
        let data := (Fields.get fields "data").orElse (Fields.get fields "params")
        pure (.ok { id := id.text, kind, position, size, data := data.fields?.getD [] })
  | j => .ok (.error (.notANode j.typeName))

/-- Reads an entry that may have been read before. -/
def readEntry : Json ⊕ Node → Except Fault (Except Warning Node)
  | .inl j => read j
  | .inr n => .ok (.ok n)

/-- Reads entries in order. Of the nodes with one id, the first is kept; `seen` are the ids of the
nodes kept before. -/
def readEntries (seen : List String) :
    List (Json ⊕ Node) → Except Fault (List Node × List Warning)
  | [] => .ok ([], [])
  | entry :: entries => do
    match ← readEntry entry with
    | .error warning =>
      let (nodes, warnings) ← readEntries seen entries
      pure (nodes, warning :: warnings)
    | .ok node =>
      if node.id ∈ seen then
        let (nodes, warnings) ← readEntries seen entries
        pure (nodes, .duplicateNode node.id :: warnings)
      else
        let (nodes, warnings) ← readEntries (node.id :: seen) entries
        pure (node :: nodes, warnings)

/-- Reads the nodes of a list, with a warning for each entry that is skipped. -/
def readAll (entries : List (Json ⊕ Node)) : Except Fault (List Node × List Warning) :=
  readEntries [] entries

end Node

end StrategyGraph
