import StrategyGraph.Settings
import StrategyGraph.Simulation.Failure

/-!
# Terms of a simulation

The fee and the initial capital, read from options that may hold any values.

* `Options.ofJson` picks fee and capital from an object, under either spelling of their names;
* `Terms.read` reads them as numbers and checks them.
-/

namespace StrategyGraph.Simulation

/-- Fee and capital as they are given. -/
structure Options where
  /-- The fee of each purchase and each sale, in percent. -/
  feePercent : Json
  /-- The capital at the start. -/
  initialCapital : Json

namespace Options

/-- The first of the fields that is not `null`. -/
def pick (fields : Fields) (names : List String) (default : Number) : Json :=
  ((names.map fields.get).find? fun j => !j.isNull).getD (.number default)

/-- The options that the fields of an object give, under one of the names in each list. -/
def ofFields (settings : Settings) (fields : Fields) (feeNames capitalNames : List String) :
    Options where
  feePercent := pick fields feeNames settings.feePercent
  initialCapital := pick fields capitalNames settings.initialCapital

/-- The options in an object. -/
def ofJson (settings : Settings) (options : Json) : Except Fault Options := do
  let fields ← (options.orElse (.object [])).attributes
  pure (ofFields settings fields ["feePercent", "fee_percent"]
    ["initialCapital", "initial_capital"])

/-- The options in a request. -/
def ofRequest (settings : Settings) (request : Fields) : Options :=
  ofFields settings request ["feePercent"] ["initialCapital"]

end Options

/-- Fee and capital. -/
structure Terms where
  /-- The fee as a fraction. -/
  fee : Float
  /-- The capital at the start. -/
  capital : Float

namespace Terms

/-- Reads a number. An integer beyond all doubles is a fault, any other value that is no number a
failure. -/
def readNumber (j : Json) : Except Fault (Except Failure Float) :=
  match j.toFloat with
  | .ok x => .ok (.ok x)
  | .error .integerTooLarge => .error .integerTooLarge
  | .error _ => .ok (.error .notNumbers)

/-- Checks fee and capital. -/
def check (percent capital : Float) : Except Failure Terms :=
  if !percent.isFinite || percent < 0.0 || 100.0 ≤ percent then .error (.feeOutOfRange percent)
  else if !capital.isFinite || capital ≤ 0.0 then .error (.capitalNotPositive capital)
  else .ok { fee := percent / 100.0, capital }

/-- Reads fee and capital and checks them. -/
def read (options : Options) : ExceptT Failure (Except Fault) Terms := do
  let percent ← ExceptT.mk (readNumber options.feePercent)
  let capital ← ExceptT.mk (readNumber options.initialCapital)
  ExceptT.mk (.ok (check percent capital))

end Terms

end StrategyGraph.Simulation
