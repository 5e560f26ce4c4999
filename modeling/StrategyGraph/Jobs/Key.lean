import StrategyGraph.Fault
import StrategyGraph.Json.Basic

/-!
# Keys

Jobs are told apart by what their ids count as: a key. Ids that are equal by value have the same
key, so `1`, `1.0` and `true` name the same job. A NaN is equal to nothing, but a payload has a
single one, which is found because it is the same object: it has a key like any other number.

* `Key.of?` is the key of a value;
* a `Ticket` is an id with its key, and `Ticket.require` the ticket of an id that is given.
-/

namespace StrategyGraph.Jobs

/-- What an id counts as. -/
inductive Key where
  /-- A number; truth values are zero and one. -/
  | number (value : Rat)
  /-- An infinity. -/
  | infinity (negative : Bool)
  /-- A text. -/
  | text (s : String)
  /-- The NaN. -/
  | nan
  deriving DecidableEq

namespace Key

/-- The key of a number. -/
def ofNumber : Number → Key
  | .int n => .number n
  | .float x =>
    if x.isNaN then .nan
    else if x.isInf then .infinity (x < 0.0)
    else
      let p := Binary64.parts x
      let magnitude : Rat := mkRat p.num p.den
      .number (if p.negative then -magnitude else magnitude)

/-- The key of a value; none for a value that names no job. -/
def of? : Json → Option Key
  | .bool b => some (.number (if b then 1 else 0))
  | .number n => some (ofNumber n)
  | .string s => some (.text s)
  | .null | .array _ | .object _ => none

end Key

/-- An id, with the key that it counts as. -/
structure Ticket where
  /-- The id. -/
  id : Json
  /-- Its key. -/
  key : Key

namespace Ticket

/-- The ticket of an id that may name a job. -/
def of? (id : Json) : Option Ticket := (Key.of? id).map fun key => ⟨id, key⟩

/-- The ticket of an id that is given, so not `null`; lists and objects are refused. -/
def require (id : Json) : Except Fault Ticket :=
  match of? id with
  | some t => .ok t
  | none => .error (.unhashable id.typeName)

end Ticket

end StrategyGraph.Jobs
