/-!
# Log records

Computations that are worth following leave log records: a level and a line of text. `Logged` is a
value with the records that its computation left.
-/

namespace StrategyGraph.Log

/-- How much a record matters. -/
inductive Level where
  /-- Something happened. -/
  | info
  /-- Something is not as it should be. -/
  | warning
  /-- Something failed. -/
  | error

/-- The name of a level. -/
def Level.name : Level → String
  | .info => "INFO"
  | .warning => "WARNING"
  | .error => "ERROR"

/-- A line of the log. -/
structure Record where
  /-- How much it matters. -/
  level : Level
  /-- What it says. -/
  text : String

/-- A record that something happened. -/
def info (text : String) : Record := ⟨.info, text⟩

/-- A record that something is not as it should be. -/
def warning (text : String) : Record := ⟨.warning, text⟩

/-- A record that something failed. -/
def error (text : String) : Record := ⟨.error, text⟩

end StrategyGraph.Log

namespace StrategyGraph

/-- A value, and what its computation left in the log. -/
structure Logged (α : Type) where
  /-- The value. -/
  value : α
  /-- The records, the first one first. -/
  log : List Log.Record := []

namespace Logged

/-- Goes on with the value. -/
def bind {α β : Type} (a : Logged α) (next : α → Logged β) : Logged β :=
  let b := next a.value
  ⟨b.value, a.log ++ b.log⟩

instance : Monad Logged where
  pure a := ⟨a, []⟩
  bind := bind

/-- Leaves a record. -/
def say (record : Log.Record) : Logged Unit := ⟨(), [record]⟩

end Logged

end StrategyGraph
