import StrategyGraph.Jobs.Job
import StrategyGraph.Json.Reading
import StrategyGraph.Log

/-!
# The store of jobs

The store knows all jobs by the keys of their ids and keeps a queue of those that wait.

* `Store.submit` enters a job, under the id of its request or one that the store makes up;
  `Store.lookup` finds one and `Store.cancel` cancels one: at once when it waits in the queue, and
  through a flag when the worker has it;
* `Store.next?`, `start`, `record` and `release` are the steps of the worker. From its start on, the
  worker knows a job by its number.
-/

namespace StrategyGraph.Jobs

open Worker (Message)

/-- All jobs. -/
structure Store where
  /-- The ids that the store makes up for requests without one, in the order of their use. Nothing
  is assumed about them here: they come from a random source. -/
  ids : Nat → String
  /-- The jobs, in the order in which their ids were first submitted. -/
  jobs : List Job := []
  /-- The tickets of the jobs that wait, the next one first. -/
  waiting : List Ticket := []
  /-- The ids of jobs that the worker is to stop, as they were given. -/
  stopping : List Ticket := []
  /-- How many ids the store has made up. -/
  issued : Nat := 0
  /-- How many jobs were submitted. -/
  submitted : Nat := 0

/-- Sets a job: in the place of the one with its key, or at the end. -/
def put (job : Job) : List Job → List Job
  | [] => [job]
  | other :: jobs => if other.key = job.key then job :: jobs else other :: put job jobs

namespace Store

/-- A store without jobs, which is to make up these ids. -/
def opened (ids : Nat → String) : Store := { ids }

/-- The ids of the jobs that wait, the next one first. -/
def queue (s : Store) : List Json := s.waiting.map Ticket.id

/-- The ids of jobs that the worker is to stop. -/
def flagged (s : Store) : List Json := s.stopping.map Ticket.id

/-- The job with a key. -/
def job? (s : Store) (key : Key) : Option Job := s.jobs.find? fun job => job.key = key

/-- The job with an id. -/
def find? (s : Store) (id : Json) : Option Job := (Key.of? id).bind s.job?

/-- Changes the job with a number. -/
def update (s : Store) (number : Nat) (change : Job → Job) : Store :=
  { s with jobs := s.jobs.map fun job => if job.number = number then change job else job }

/-- A job with the key waits. -/
def awaits (s : Store) (key : Key) : Bool := s.waiting.any fun t => t.key = key

/-- The worker is to stop the job with a key. -/
def isFlagged (s : Store) (key : Key) : Bool := s.stopping.any fun t => t.key = key

/-- Wants the worker to stop the job of a ticket. -/
def flag (s : Store) (t : Ticket) : Store :=
  if s.isFlagged t.key then s else { s with stopping := s.stopping ++ [t] }

/-- Forgets that the worker is to stop the job with a key. -/
def unflag (s : Store) (key : Key) : Store :=
  { s with stopping := s.stopping.filter fun t => t.key ≠ key }

/-- Takes the first ticket with a key off the queue. -/
def unqueue (s : Store) (key : Key) : Store :=
  { s with waiting := s.waiting.eraseP fun t => t.key = key }

/-! ### Submitting and cancelling -/

/-- The id of a request: its own, or one that the store makes up; with the store after that. -/
def identify (s : Store) (request : Fields) : Json × Store :=
  let own := request.get "job_id"
  if own.isTruthy then (own, s)
  else (.string (s.ids s.issued), { s with issued := s.issued + 1 })

/-- Enters a job at the end of the queue. The job replaces an earlier one with its key. -/
def enter (s : Store) (job : Job) : Store :=
  { s with
    jobs := put job s.jobs, waiting := s.waiting ++ [job.ticket], submitted := s.submitted + 1 }

/-- Enters a job for a request. -/
def submit (s : Store) (request : Json) : Except Fault (Job × Store) := do
  let fields ← request.attributes
  let (id, s) := s.identify fields
  let ticket ← Ticket.require id
  let job : Job := { ticket, number := s.submitted, request := fields }
  pure (job, s.enter job)

/-- The record of a job that was submitted. -/
def submitRecord (job : Job) : Log.Record :=
  Log.info ("[JOBS] Queued backtest job " ++ job.id.text)

/-- The job with an id. -/
def lookup (s : Store) (id : Json) : Except Fault (Option Job) := do
  id.requireKey
  pure (s.find? id)

/-- Cancels a job that waits, or flags one that the worker has. Nothing happens to a job that is not
known or has reached its end. -/
def cancelTicket (s : Store) (t : Ticket) : Bool × Store :=
  match s.job? t.key with
  | none => (false, s)
  | some job =>
    if job.status.isFinal then (false, s)
    else if s.awaits t.key then (true, (s.unqueue t.key).update job.number Job.cancel)
    else (true, s.flag t)

/-- Cancels the job with an id, if the id names one. -/
def cancelKnown (s : Store) (id : Json) : Bool × Store :=
  match Ticket.of? id with
  | none => (false, s)
  | some t => s.cancelTicket t

/-- Cancels the job with an id and tells whether there was anything to cancel. -/
def cancel (s : Store) (id : Json) : Except Fault (Bool × Store) := do
  id.requireKey
  pure (s.cancelKnown id)

/-! ### Steps of the worker -/

/-- The first ticket of the queue, and the store without it. -/
def next? (s : Store) : Option (Ticket × Store) :=
  match s.waiting with
  | [] => none
  | t :: rest => some (t, { s with waiting := rest })

/-- The first id of the queue, and the store without it. -/
def take (s : Store) : Option (Json × Store) := s.next?.map fun next => (next.1.id, next.2)

/-- The worker starts a job. -/
def start (s : Store) (number : Nat) : Store := s.update number Job.start

/-- The worker sends a message about a job. -/
def record (s : Store) (number : Nat) (message : Message) : Store :=
  s.update number fun job => job.record message

/-- The worker is done with a job. -/
def release (s : Store) (key : Key) : Store := s.unflag key

/-- The record of a job that the worker is done with. -/
def releaseRecord (id : Json) (job : Job) : Log.Record :=
  Log.info ("[JOBS] Job " ++ id.text ++ " finished with status " ++ job.status.name)

end Store

end StrategyGraph.Jobs
