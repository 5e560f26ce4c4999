import StrategyGraph.Fault
import StrategyGraph.Simulation.Result

/-!
# Messages of a worker

A worker that serves a request reports that the simulation has started, and then its result or a
problem.
-/

namespace StrategyGraph.Worker

/-- Why a request has no result. -/
inductive Problem where
  /-- The request is no object. -/
  | notAnObject
  /-- The request lacks nodes, edges or prices. -/
  | missingData
  /-- Serving it went wrong. -/
  | fault (f : Fault)

/-- The wording of a problem. -/
def Problem.message : Problem → String
  | notAnObject => "Request must be an object."
  | missingData => "Worker did not receive necessary data."
  | fault f => f.message

/-- A message of a worker. -/
inductive Message where
  /-- The simulation has started. -/
  | started
  /-- The simulation has ended. -/
  | complete (result : Simulation.Result)
  /-- The request has no result. -/
  | error (problem : Problem)

namespace Message

/-- The name of a message's kind. -/
def status : Message → String
  | started => "progress"
  | complete _ => "complete"
  | error _ => "error"

/-- What a message says. -/
def data : Message → Json
  | started => .string "Simulation started..."
  | complete result => result.toJson
  | error problem => .string problem.message

/-- The message is the last one of its request. -/
def isTerminal : Message → Bool
  | started => false
  | _ => true

/-- The simulation ended, be it with a failure. -/
def isComplete : Message → Bool
  | complete _ => true
  | _ => false

/-- The message as a JSON object. -/
def toJson (m : Message) : Json := .object [("status", .string m.status), ("data", m.data)]

end Message

end StrategyGraph.Worker
