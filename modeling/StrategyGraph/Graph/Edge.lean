import StrategyGraph.Graph.Warning
import StrategyGraph.Json.Reading

/-!
# Edges

An edge leads from a node to a node and may carry a handle and a label, which tell the branches of a
condition apart.

* `Edge.read` reads an edge from any of the three shapes that editors write;
* `Edge.readAll` reads a list of edges and keeps those between known nodes.
-/

namespace StrategyGraph

/-- An edge of a strategy graph. -/
structure Edge where
  /-- The id; several edges may share one. -/
  id : String
  /-- The id of the node that the edge leaves. -/
  source : String
  /-- The id of the node that the edge leads to. -/
  target : String
  /-- The handle at which the edge leaves its source. -/
  sourceHandle : Option String := none
  /-- The label. -/
  label : Option String := none
  deriving DecidableEq

namespace Edge

/-- The fields of an end of an edge. -/
def endFields (j : Json) : Except Fault Fields := (j.orElse (.object [])).attributes

/-- Source, target and handle as they are stored: as `from` and `to` with a node and a handle,
as nodes and handles of their own, or as source and target. -/
def readEnds (fields : Fields) : Except Fault (Json × Json × Json) := do
  if fields.has "from" && fields.has "to" then
    let source ← endFields (fields.get "from")
    let target ← endFields (fields.get "to")
    pure (source.get "nodeId", target.get "nodeId", source.get "port")
  else if fields.has "sourceNode" && fields.has "targetNode" then
    pure (fields.get "sourceNode", fields.get "targetNode", fields.get "sourcePort")
  else
    pure (fields.get "source", fields.get "target",
      (fields.get "sourceHandle").orElse (fields.get "sourcePort"))

/-- A value shown as text; none for `null`. -/
def textOf? (j : Json) : Option String := if j.isNull then none else some j.text

/-- Reads the edge at a place of the list, or says why it is skipped. -/
def read (index : Nat) (j : Json) : Except Fault (Except Warning Edge) :=
  match j with
  | .object fields => do
    let (source, target, handle) ← readEnds fields
    match textOf? source, textOf? target with
    | some source, some target =>
      pure <| .ok
        { id := ((Fields.get fields "id").orElse (.string s!"e{index}")).text
          source
          target
          sourceHandle := textOf? handle
          label := textOf? (Fields.get fields "label") }
    | _, _ => pure (.error (.edgeWithoutEnds index))
  | j => .ok (.error (.notAnEdge index j.typeName))

/-- Reads an entry that may have been read before. -/
def readEntry (index : Nat) : Json ⊕ Edge → Except Fault (Except Warning Edge)
  | .inl j => read index j
  | .inr e => .ok (.ok e)

/-- Keeps an edge whose ends are known. -/
def checkEnds (nodeIds : List String) (e : Edge) : Except Warning Edge :=
  if e.source ∈ nodeIds ∧ e.target ∈ nodeIds then .ok e
  else .error (.danglingEdge e.id e.source e.target)

/-- Reads the entries from place `index` on. -/
def readEntries (nodeIds : List String) (index : Nat) :
    List (Json ⊕ Edge) → Except Fault (List Edge × List Warning)
  | [] => .ok ([], [])
  | entry :: entries => do
    let edge ← readEntry index entry
    let (edges, warnings) ← readEntries nodeIds (index + 1) entries
    match edge.bind (checkEnds nodeIds) with
    | .ok edge => pure (edge :: edges, warnings)
    | .error warning => pure (edges, warning :: warnings)

/-- Reads the edges of a list between known nodes, with a warning for each entry that is skipped. -/
def readAll (nodeIds : List String) (entries : List (Json ⊕ Edge)) :
    Except Fault (List Edge × List Warning) :=
  readEntries nodeIds 0 entries

/-- The edge as a JSON object. -/
def toJson (e : Edge) : Json :=
  .object
    [("id", .string e.id), ("source", .string e.source), ("target", .string e.target),
     ("sourceHandle", Json.ofOption .string e.sourceHandle),
     ("label", Json.ofOption .string e.label)]

end Edge

end StrategyGraph
