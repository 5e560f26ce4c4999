import StrategyGraph.Jobs.Key
import StrategyGraph.Worker.Message

/-!
# Jobs

A job is a request on its way from the queue through the worker, with the messages that the worker
sent and what they came to.
-/

namespace StrategyGraph.Jobs

open Worker (Message Problem)

/-- Where a job is on its way. -/
inductive Status where
  /-- It waits in the queue. -/
  | queued
  /-- The worker serves it. -/
  | running
  /-- Its simulation ended, be it with a failure. -/
  | completed
  /-- It could not be served. -/
  | failed
  /-- It was cancelled. -/
  | cancelled
  deriving DecidableEq

namespace Status

/-- The name of a status. -/
def name : Status → String
  | queued => "queued"
  | running => "running"
  | completed => "completed"
  | failed => "failed"
  | cancelled => "cancelled"

/-- Nothing more happens to the job. -/
def isFinal : Status → Bool
  | queued | running => false
  | completed | failed | cancelled => true

end Status

/-- Why a job has no full result. -/
inductive Trouble where
  /-- Its simulation failed. -/
  | failure (f : Simulation.Failure)
  /-- It could not be served. -/
  | problem (p : Problem)

/-- The wording of a trouble. -/
def Trouble.message : Trouble → String
  | failure f => f.message
  | problem p => p.message

/-- A request and what became of it. -/
structure Job where
  /-- The id and its key. -/
  ticket : Ticket
  /-- How many jobs were submitted before it. -/
  number : Nat
  /-- The request. -/
  request : Fields
  /-- Where the job is. -/
  status : Status := .queued
  /-- The messages of the worker. -/
  messages : List Message := []
  /-- The result of the simulation. -/
  result : Option Simulation.Result := none
  /-- Why there is no full result. -/
  error : Option Trouble := none

namespace Job

/-- The id. -/
def id (job : Job) : Json := job.ticket.id

/-- What the id counts as. -/
def key (job : Job) : Key := job.ticket.key

/-- The job once the worker has it. -/
def start (job : Job) : Job := { job with status := .running }

/-- The job, cancelled while it waited. -/
def cancel (job : Job) : Job :=
  { job with status := .cancelled, error := some (.failure .cancelled) }

/-- The status that the result of a simulation gives a job. -/
def statusOf (result : Simulation.Result) : Status :=
  match result.failure with
  | some .cancelled => .cancelled
  | _ => .completed

/-- The job after a message of the worker. -/
def record (job : Job) (message : Message) : Job :=
  let job := { job with messages := job.messages ++ [message] }
  match message with
  | .started => job
  | .complete result =>
    { job with
      status := statusOf result, result := some result, error := result.failure.map .failure }
  | .error problem => { job with status := .failed, error := some (.problem problem) }

/-- The job as a JSON object. -/
def toJson (job : Job) : Json :=
  .object
    [("job_id", job.id), ("status", .string job.status.name),
     ("messages", .array (job.messages.map Message.toJson)),
     ("result", Json.ofOption Simulation.Result.toJson job.result),
     ("error", Json.ofOption (fun t => .string t.message) job.error)]

end Job

end StrategyGraph.Jobs
