import StrategyGraph.Fault
import StrategyGraph.Log

/-!
# Routines

A routine is a long computation that others watch: on its way it leaves log records, sends messages
and asks whether it should stop. What the answer does is up to the routine.

* `Routine.bind` continues a routine, and `Routine.attempt` catches its fault;
* `Routine.run` runs a routine to its end, with given answers to its questions.
-/

namespace StrategyGraph

/-- A computation of an `α` that sends messages of type `μ`. -/
inductive Routine (μ α : Type) where
  /-- The end, with a value or a fault. -/
  | done (outcome : Except Fault α)
  /-- Leaves a log record and goes on. -/
  | say (record : Log.Record) (next : Routine μ α)
  /-- Sends a message and goes on. -/
  | send (message : μ) (next : Routine μ α)
  /-- Asks whether to stop and goes on with the answer. -/
  | check (resume : Bool → Routine μ α)

namespace Routine

variable {μ α β : Type}

/-- Goes on with what the routine comes to, be it a value or a fault. -/
def andThen (r : Routine μ α) (next : Except Fault α → Routine μ β) : Routine μ β :=
  match r with
  | done outcome => next outcome
  | say record rest => say record (rest.andThen next)
  | send message rest => send message (rest.andThen next)
  | check resume => check fun stop => (resume stop).andThen next

/-- Goes on with the value of the routine. -/
def bind (r : Routine μ α) (next : α → Routine μ β) : Routine μ β :=
  r.andThen fun outcome =>
    match outcome with
    | .ok a => next a
    | .error fault => done (.error fault)

/-- The routine with its fault as a value. -/
def attempt (r : Routine μ α) : Routine μ (Except Fault α) :=
  r.andThen fun outcome => done (.ok outcome)

instance : Monad (Routine μ) where
  pure a := done (.ok a)
  bind := bind

instance : MonadLift (Except Fault) (Routine μ) where
  monadLift := done

/-- Asks whether to stop. -/
def stops : Routine μ Bool := check fun stop => done (.ok stop)

/-- Leaves log records. -/
def sayAll (records : List Log.Record) : Routine μ Unit :=
  match records with
  | [] => done (.ok ())
  | record :: rest => say record (sayAll rest)

/-- Sends a message. -/
def sending (message : μ) : Routine μ Unit := send message (done (.ok ()))

/-- What a run of a routine leaves behind. -/
structure Transcript (μ α : Type) where
  /-- The log records. -/
  log : List Log.Record
  /-- The messages. -/
  messages : List μ
  /-- The value or the fault at the end. -/
  outcome : Except Fault α

/-- Runs a routine to its end. `answers` has the answers to its questions, the next of which has
number `asked`. -/
def runFrom (answers : Nat → Bool) (asked : Nat) : Routine μ α → Transcript μ α
  | done outcome => ⟨[], [], outcome⟩
  | say record next =>
    let t := runFrom answers asked next
    { t with log := record :: t.log }
  | send message next =>
    let t := runFrom answers asked next
    { t with messages := message :: t.messages }
  | check resume => runFrom answers (asked + 1) (resume (answers asked))

/-- Runs a routine to its end. -/
def run (answers : Nat → Bool) (r : Routine μ α) : Transcript μ α := runFrom answers 0 r

/-- The answers of someone who lets a routine pass `count` questions and then wants it to stop. -/
def stopAfter (count : Nat) (asked : Nat) : Bool := count ≤ asked

/-- The answers of someone who never wants a routine to stop. -/
def never (_ : Nat) : Bool := false

end Routine

end StrategyGraph
