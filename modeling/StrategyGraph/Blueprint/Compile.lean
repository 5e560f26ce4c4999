import StrategyGraph.Blueprint.Condition
import StrategyGraph.Blueprint.InTrade
import StrategyGraph.Blueprint.Producer
import StrategyGraph.Log
import StrategyGraph.Supply

/-!
# Blueprints

A blueprint is a strategy graph made ready to run: the series it needs, its conditions, and the two
sub-graphs that are walked at every bar. What could not be made sense of is left out and listed
among its warnings.

* `compile` makes the blueprint of a graph;
* `Blueprint.log` is what compiling it leaves in the log.
-/

namespace StrategyGraph

/-- A strategy graph made ready to run. -/
structure Blueprint where
  /-- The series to compute. -/
  producers : List Producer := []
  /-- The conditions of a purchase. -/
  entry : SubGraph := {}
  /-- The conditions of a sale. -/
  inTrade : SubGraph := {}
  /-- The conditions of all nodes. -/
  conditions : List Condition := []
  /-- What is wrong with the graph. -/
  warnings : List Warning := []

namespace Blueprint

/-- The condition of a node. -/
def condition? (b : Blueprint) (nodeId : String) : Option Condition :=
  b.conditions.find? fun c => c.nodeId = nodeId

/-- The warning that a part leads back to one of its nodes. -/
def cycleWarning (part : Part) (s : SubGraph) : List Warning :=
  (s.cycle?.map (Warning.cycle part)).toList

/-- The blueprint of a graph; `warnings` were given while the graph was read. -/
def ofGraph (settings : Settings) (g : Graph) (parameters : Json) (warnings : List Warning) :
    Except Fault Blueprint := do
  let snapshot ← Snapshot.read parameters g.nodes
  let (producers, producerWarnings) ← Producer.readAll settings g snapshot
  let (conditions, conditionWarnings) ←
    Condition.readAll snapshot (producers.map Producer.outputKey) g
  let (entry, entryWarnings) := g.entryGraph
  let (inTrade, inTradeWarnings) := g.inTradeGraph settings
  pure
    { producers, entry, inTrade, conditions
      warnings := warnings ++ producerWarnings ++ conditionWarnings ++ entryWarnings
        ++ inTradeWarnings ++ cycleWarning .entry entry ++ cycleWarning .inTrade inTrade }

/-- Texts in a list, as a log shows them. -/
def listText (texts : List String) : String := (Json.strings texts).literal

/-- Texts in a tuple, as a log shows them: a single one is followed by a comma. -/
def tupleText (texts : List String) : String :=
  match texts with
  | [text] => "(" ++ Text.quote text ++ ",)"
  | texts => "(" ++ ", ".intercalate (texts.map Text.quote) ++ ")"

/-- What compiling a blueprint leaves in the log. -/
def log (settings : Settings) (b : Blueprint) : List Log.Record :=
  let warnings := b.warnings.map fun w => Log.warning ("[COMPILER] " ++ w.message)
  let summary :=
    "[COMPILER] producers=" ++ listText (b.producers.map Producer.outputKey)
      ++ " entry=" ++ tupleText b.entry.entryIds
      ++ " in_trade=" ++ tupleText b.inTrade.entryIds
  if settings.debug then warnings ++ [Log.info summary] else warnings

/-- The blueprint as a JSON object. -/
def toJson (b : Blueprint) : Json :=
  .object
    [("dataProducers", .array (b.producers.map Producer.toJson)), ("entryGraph", b.entry.toJson),
     ("inTradeGraph", b.inTrade.toJson),
     ("warnings", Json.strings (b.warnings.map Warning.message))]

end Blueprint

/-- Makes the blueprint of the graph of the given nodes, edges and parameters. -/
def compile (settings : Settings) (nodes : Supply Node) (edges : Supply Edge) (parameters : Json) :
    Except Fault Blueprint := do
  if nodes.isEmpty then pure { warnings := [.noNodes] }
  else
    let (nodes, nodeWarnings) ← Node.readAll (← nodes.entries)
    if nodes.isEmpty then pure { warnings := nodeWarnings ++ [.noUsableNodes] }
    else
      let (edges, edgeWarnings) ← Edge.readAll (nodes.map Node.id) (← edges.entries)
      Blueprint.ofGraph settings ⟨nodes, edges⟩ parameters (nodeWarnings ++ edgeWarnings)

end StrategyGraph
