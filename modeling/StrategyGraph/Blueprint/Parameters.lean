import StrategyGraph.Graph.Basic

/-!
# Parameters

The parameters of a strategy have ids, labels and values. A snapshot holds the parameters that are
known, in the order of their first appearance; of two with one id the last one counts. The values
of the snapshot win over those that nodes carry.
-/

namespace StrategyGraph

/-- Label and value of a parameter. -/
structure Parameter where
  /-- The label, `null` when there is none. -/
  label : Json
  /-- The value. -/
  value : Json

/-- The known parameters by id. -/
abbrev Snapshot := List (String × Parameter)

namespace Snapshot

/-- Adds a parameter, in the place of one with the same id. -/
def put (s : Snapshot) (id : String) (p : Parameter) : Snapshot :=
  match s with
  | [] => [(id, p)]
  | (k, q) :: rest => if k = id then (k, p) :: rest else (k, q) :: put rest id p

/-- Adds the parameter of an entry; an entry without id is left out. -/
def add (s : Snapshot) (entry : Json) : Snapshot :=
  match entry with
  | .object fields =>
    let id := Fields.get fields "id"
    if id.isNull then s
    else s.put id.text ⟨Fields.get fields "label", Binding.valueOf fields⟩
  | _ => s

/-- The list of parameters that a node carries. -/
def carriedBy? (n : Node) : Option Json :=
  match n.data.get "parameters" with
  | .array items => some (.array items)
  | _ => none

/-- The parameters of a payload; those that the first node with such a list carries if the payload
has none. -/
def read (parameters : Json) (nodes : List Node) : Except Fault Snapshot := do
  let given :=
    if parameters.isNull then (nodes.findSome? carriedBy?).getD .null else parameters
  pure ((← given.itemsIfAny).foldl add [])

/-- The value of the first parameter with a label. -/
def valueOfLabel? (s : Snapshot) (label : Json) : Option Json :=
  (s.find? fun p => p.2.label.same label).map fun p => p.2.value

/-- The binding with the label and value of its parameter, if that is known. -/
def refresh (s : Snapshot) (b : Binding) : Binding :=
  match b.parameterId.filter (· ≠ "") with
  | none => b
  | some id =>
    match s.lookup id with
    | none => b
    | some p => { b with label := if p.label.isNull then b.label else p.label, value := p.value }

end Snapshot

end StrategyGraph
