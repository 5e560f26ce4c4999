import StrategyGraph.Simulation.Run
import StrategyGraph.Worker.Message

/-!
# Serving a request

A request is an object with nodes, edges and prices, and it may name parameters, a fee and an
initial capital. Serving it compiles the graph, puts the prices in order and runs the simulation.

* `serve` is the routine that serves a request;
* `reply` is the last message of serving a request that nobody stops.
-/

namespace StrategyGraph.Worker

/-- The blueprint of a request, with a warning when entries of its price list were dropped. -/
def withDropped (b : Blueprint) (entries bars : Nat) : Blueprint :=
  if bars = entries then b
  else { b with warnings := b.warnings ++ [.droppedPrices (entries - bars)] }

/-- Runs the simulation of a request. -/
def simulate (settings : Settings) (request : Fields) : Routine Message Simulation.Result := do
  let blueprint ←
    compile settings (.payload (request.get "nodes")) (.payload (request.get "edges"))
      (request.get "parameters")
  Routine.sayAll (blueprint.log settings)
  let prices := request.get "prices"
  let bars ← Bar.normalize prices
  let blueprint := withDropped blueprint (← prices.length) bars.length
  Routine.sending .started
  Simulation.run settings (some blueprint) (.ready bars)
    (Simulation.Options.ofRequest settings request)

/-- The record of a fault. -/
def faultRecord (fault : Fault) : Log.Record :=
  Log.error ("[WORKER] Backtest request failed: " ++ fault.message)

/-- The request has all that it must have. -/
def hasData (request : Fields) : Bool :=
  ["nodes", "edges", "prices"].all fun name => !(request.get name).isNull

/-- Serves a request. -/
def serve (settings : Settings) (request : Json) : Routine Message Unit :=
  match request with
  | .object fields =>
    if hasData fields then do
      match ← (simulate settings fields).attempt with
      | .ok result => Routine.sending (.complete result)
      | .error fault =>
        Routine.sayAll [faultRecord fault]
        Routine.sending (.error (.fault fault))
    else Routine.sending (.error .missingData)
  | _ => Routine.sending (.error .notAnObject)

/-- Serves a request that nobody stops. -/
def transcript (settings : Settings) (request : Json) : Routine.Transcript Message Unit :=
  (serve settings request).run Routine.never

/-- The last of the messages, if it is the last one of its request. -/
def terminal? (messages : List Message) : Option Message :=
  messages.getLast?.filter Message.isTerminal

/-- The last message of serving a request that nobody stops. -/
def reply (settings : Settings) (request : Json) : Option Message :=
  terminal? (transcript settings request).messages

end StrategyGraph.Worker
