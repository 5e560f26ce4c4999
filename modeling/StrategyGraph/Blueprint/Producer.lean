import StrategyGraph.Blueprint.Parameters
import StrategyGraph.Indicator.Kind
import StrategyGraph.Settings

/-!
# Producers

Nodes that make a named series: the closing prices or an indicator of them. Every node before its
first use by name makes one series, and of two series with one name the first one counts.

* `Producer.window` finds the window of an indicator node;
* `Producer.outputKey` finds the name of a series;
* `Producer.readAll` lists the producers of a graph.
-/

namespace StrategyGraph

/-- What a producer computes. -/
inductive Source where
  /-- The closing prices; `format` is how the editor names them. -/
  | price (format : String)
  /-- An indicator with its window. -/
  | indicator (kind : IndicatorKind) (window : Int)

/-- A node that makes a named series. -/
structure Producer where
  /-- The id of the node. -/
  nodeId : String
  /-- The name of the series. -/
  outputKey : String
  /-- What is computed. -/
  source : Source

namespace Producer

/-- The name of a price series that is given none. -/
def priceKey : String := "live_price"

/-- The name of an indicator series that is given none. -/
def indicatorKey : String := "indicator_output"

/-- The value is a text without characters. -/
def isEmptyText (j : Json) : Bool :=
  match j with
  | .string s => s = ""
  | _ => false

/-- A value as a window: a number that is at least one, its fraction cut off. An infinity is too
large for one. -/
def asWindow (j : Json) : Except Fault (Option Int) :=
  match j with
  | .null | .bool _ => .ok none
  | j =>
    match j.toFloat with
    | .error .integerTooLarge => .error .integerTooLarge
    | .error _ => .ok none
    | .ok x =>
      if x.isNaN then .ok none
      else (truncate? x).map fun n => if 1 ≤ n then some n else none

/-- The first of the values that is a window. -/
def firstWindow : List Json → Except Fault (Option Int)
  | [] => .ok none
  | j :: js => do
    match ← asWindow j with
    | some n => pure (some n)
    | none => firstWindow js

/-- The values that may give the window of a node, the first one that counts first: its lookback
slot, the parameter it names, its slot `window`, and its own data. -/
def windowCandidates (s : Snapshot) (n : Node) : Except Fault (List Json) := do
  let slot : List Json :=
    match n.data.get "lookbackVariable" with
    | .object fields =>
      let binding := Binding.ofJson? (Fields.get fields "parameterData")
      (binding.map fun b => (s.refresh b).value).toList
    | _ => []
  let name := (n.data.get "lookbackParamName").orElse (n.data.get "lookbackParam")
  let named : List Json := if name.isTruthy then (s.valueOfLabel? name).toList else []
  let labelled := (← n.slotLabelled? (.string "window")).bind Variable.binding
  let labelled : List Json := (labelled.map fun b => (s.refresh b).value).toList
  let own : List Json := [n.data.get "lookback", n.data.get "window"]
  pure ((slot ++ named ++ labelled ++ own).filter fun j => !j.isNull && !isEmptyText j)

/-- The window of an indicator node; the default one, with a warning, when none is usable. -/
def window (settings : Settings) (s : Snapshot) (n : Node) :
    Except Fault (Int × List Warning) := do
  let candidates ← windowCandidates s n
  match ← firstWindow candidates with
  | some window => pure (window, [])
  | none =>
    let warnings := candidates.head?.map fun j =>
      Warning.invalidLookback n.id j settings.lookback
    pure (settings.lookback, warnings.toList)

/-- The name that the slot `output` of an indicator node gives. -/
def slotKey? (n : Node) : Except Fault (Option String) := do
  if n.kind ≠ .indicator then pure none
  else
    let binding := (← n.slotLabelled? (.string "output")).bind Variable.binding
    pure <| binding.bind fun b =>
      (b.parameterId.filter (· ≠ "")).or (if b.label.isTruthy then some b.label.text else none)

/-- The name that a nearest node after it gives to the series. -/
def setterKey? (g : Graph) (n : Node) : Option String :=
  (g.nearestOfKind? n.id .setParameter).bind fun setter =>
    let name := (setter.data.get "parameterName").orElse (setter.data.get "outputParamName")
    if name.isTruthy then some name.text else none

/-- The name of a node's series: the one it gives itself, the one of its slot `output`, the one of
a node after it, or the default one, with a warning. -/
def outputKey? (g : Graph) (n : Node) (default : String) :
    Except Fault (String × List Warning) := do
  let explicit := n.data.get "outputParamName"
  if explicit.isTruthy then pure (explicit.text, [])
  else
    match (← slotKey? n).or (setterKey? g n) with
    | some key => pure (key, [])
    | none => pure (default, [.unnamedOutput n.id default])

/-- The indicator that a node names; the highest price, with a warning, when there is no such
indicator. -/
def indicatorKind (n : Node) : IndicatorKind × List Warning :=
  let name := ((n.data.get "indicator").orElse (n.data.get "type")).orElse (.string "sma")
  match IndicatorKind.ofJson? name with
  | some kind => (kind, [])
  | none => (.rollingHigh, [.unknownIndicator name n.id])

/-- The producer that a node of that role is. -/
def read (settings : Settings) (g : Graph) (s : Snapshot) (n : Node) :
    Except Fault (Producer × List Warning) := do
  if n.kind = .inputPrice then
    let (outputKey, warnings) ← outputKey? g n priceKey
    let format := ((n.data.get "format").orElse (.string "close")).text
    pure ({ nodeId := n.id, outputKey, source := .price format }, warnings)
  else
    let (kind, kindWarnings) := indicatorKind n
    let (outputKey, keyWarnings) ← outputKey? g n indicatorKey
    let (window, windowWarnings) ← window settings s n
    pure ({ nodeId := n.id, outputKey, source := .indicator kind window },
      kindWarnings ++ keyWarnings ++ windowWarnings)

/-- The producers among the nodes; `taken` are the names of the series made before. -/
def readNodes (settings : Settings) (g : Graph) (s : Snapshot) (taken : List String) :
    List Node → Except Fault (List Producer × List Warning)
  | [] => .ok ([], [])
  | n :: ns => do
    if n.kind.role ≠ .producer then readNodes settings g s taken ns
    else
      let (p, warnings) ← read settings g s n
      if p.outputKey ∈ taken then
        let (ps, rest) ← readNodes settings g s taken ns
        pure (ps, warnings ++ .outputTaken p.outputKey n.id :: rest)
      else
        let (ps, rest) ← readNodes settings g s (p.outputKey :: taken) ns
        pure (p :: ps, warnings ++ rest)

/-- The producers of a graph, in the order of their nodes. -/
def readAll (settings : Settings) (g : Graph) (s : Snapshot) :
    Except Fault (List Producer × List Warning) :=
  readNodes settings g s [] g.nodes

/-- The producer as a JSON object. -/
def toJson (p : Producer) : Json :=
  let source : Fields :=
    match p.source with
    | .price format =>
      [("type", .string "price"), ("indicatorType", .null), ("lookback", .null),
       ("format", .string format)]
    | .indicator kind window =>
      [("type", .string "indicator"), ("indicatorType", .string kind.name),
       ("lookback", .ofInt window), ("format", .null)]
  .object (("nodeId", .string p.nodeId) :: source ++ [("outputParamName", .string p.outputKey)])

end Producer

end StrategyGraph
