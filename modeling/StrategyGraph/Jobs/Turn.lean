import StrategyGraph.Jobs.Store
import StrategyGraph.Worker.Serve

/-!
# Turns of the worker

One worker takes the jobs off the queue one after the other and serves each to its end. Whatever
else happens to the store happens between two of its steps.

* `step` is one step of the worker;
* `finish` serves the rest of a job, and `serve` a whole one; what others do to the store before
  each question whether to stop is given;
* `turns` takes jobs off the queue until it is empty.
-/

namespace StrategyGraph.Jobs

open Worker (Message)

/-- Where the worker is. -/
inductive Stage where
  /-- It has no job. -/
  | idle
  /-- It has taken a job off the queue. -/
  | taken (ticket : Ticket)
  /-- It serves the job with a number. -/
  | serving (ticket : Ticket) (number : Nat) (rest : Routine Message Unit)

section Serving

variable (settings : Settings)

/-- The worker starts the job with a key, if the store knows it: the store after that, the number of
the job, and the routine that serves it. -/
def begin? (s : Store) (key : Key) : Option (Store × Nat × Routine Message Unit) :=
  (s.job? key).map fun job =>
    (s.start job.number, job.number, Worker.serve settings (.object job.request))

/-- The worker is done with a job. -/
def conclude (s : Store) (t : Ticket) (number : Nat) : Logged Store :=
  let s := s.release t.key
  let job := s.jobs.find? fun job => job.number = number
  ⟨s, (job.map (Store.releaseRecord t.id)).toList⟩

/-- One step of the worker. -/
def step (s : Store) (stage : Stage) : Logged (Store × Stage) :=
  match stage with
  | .idle =>
    match s.next? with
    | some (t, s) => pure (s, .taken t)
    | none => pure (s, .idle)
  | .taken t =>
    match begin? settings s t.key with
    | some (s, number, rest) => pure (s, .serving t number rest)
    | none => pure (s, .idle)
  | .serving t number (.say line rest) => ⟨(s, .serving t number rest), [line]⟩
  | .serving t number (.send message rest) => pure (s.record number message, .serving t number rest)
  | .serving t number (.check resume) => pure (s, .serving t number (resume (s.isFlagged t.key)))
  | .serving t number (.done _) => do pure (← conclude s t number, .idle)

/-- Serves the rest of a job. `meanwhile` is what others do to the store before each question
whether to stop, the next of which has number `asked`. -/
def finish (meanwhile : Nat → Store → Store) (t : Ticket) (number asked : Nat) (s : Store) :
    Routine Message Unit → Logged Store
  | .done _ => conclude s t number
  | .say line rest => do
    Logged.say line
    finish meanwhile t number asked s rest
  | .send message rest => finish meanwhile t number asked (s.record number message) rest
  | .check resume =>
    let s := meanwhile asked s
    finish meanwhile t number (asked + 1) s (resume (s.isFlagged t.key))

/-- Serves the job of a ticket, if the store knows it. -/
def serveTicket (meanwhile : Nat → Store → Store) (s : Store) (t : Ticket) : Logged Store :=
  match begin? settings s t.key with
  | some (s, number, rest) => finish meanwhile t number 0 s rest
  | none => pure s

/-- Serves the job with an id, if the id names one. -/
def serve (meanwhile : Nat → Store → Store) (s : Store) (id : Json) : Logged Store :=
  match Ticket.of? id with
  | some t => serveTicket settings meanwhile s t
  | none => pure s

/-- Nobody does anything to the store. -/
def undisturbed (_ : Nat) (s : Store) : Store := s

/-- Someone cancels a job before question number `question`. -/
def cancelling (id : Json) (question asked : Nat) (s : Store) : Store :=
  if asked = question then (s.cancelKnown id).2 else s

/-- Takes one job off the queue and serves it. -/
def turn (meanwhile : Nat → Store → Store) (s : Store) : Logged Store :=
  match s.next? with
  | none => pure s
  | some (t, s) => serveTicket settings meanwhile s t

/-- Takes up to `count` jobs off the queue and serves each. -/
def turns (count : Nat) (s : Store) : Logged Store :=
  match count with
  | 0 => pure s
  | n + 1 => do
    if s.waiting.isEmpty then pure s
    else turns n (← turn settings undisturbed s)

end Serving

end StrategyGraph.Jobs
