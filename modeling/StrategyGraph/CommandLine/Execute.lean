import StrategyGraph.CommandLine.Arguments
import StrategyGraph.CommandLine.Report
import StrategyGraph.Json.Parser
import StrategyGraph.Json.Printer
import StrategyGraph.Price.Synthetic
import StrategyGraph.Simulation.Run

/-!
# Executing a command

A command compiles the graph of a file, runs a simulation over the prices of a file or over
synthetic ones, and prints the result.

* `readFile` reads the JSON text of a file;
* `execute` runs the simulation that the arguments ask for;
* `command` is a whole command: its exit code and what it prints.
-/

namespace StrategyGraph.CommandLine

/-- What a command leaves behind. -/
structure Outcome where
  /-- The exit code: zero for a result without failure. -/
  code : Nat
  /-- What is printed. -/
  output : String := ""
  /-- What is printed as an error. -/
  complaint : String := ""

/-- Reads a file as JSON; `contents` is its text, if it exists. -/
def readFile (path : String) (contents : Option String) : Except Fault Json :=
  match contents with
  | none => .error (.missingFile path)
  | some text =>
    match Json.parse text with
    | .ok j => .ok j
    | .error .malformed => .error .malformedJson
    | .error (.tooLong digits) => .error (.tooManyDigits digits)

/-- The price at which synthetic prices start. -/
def startPrice : Float := 20000.0

/-- The value of an option that a run cannot do without. -/
def needed {α : Type} (flag : Flag) (value : Option α) : Except Fault α :=
  match value with
  | some a => .ok a
  | none => .error (.missingOption flag.spelling)

/-- The seed of synthetic prices. -/
def seedOf (a : Arguments) (entropy : Int) : Except Fault Int :=
  needed .seed (a.seed.orDefault entropy)

/-- The bars of a run. Times do not show in what is printed, so synthetic bars end at time zero. -/
def barsOf (a : Arguments) (files : String → Option String) (entropy : Int) :
    Except Fault (List Bar) :=
  match a.prices with
  | some path => do Bar.normalize (← readFile path (files path))
  | none => do
    let resolution ← needed .resolution a.resolution
    pure (synthetic a.points startPrice (Pace.ofName resolution) (← seedOf a entropy) 0)

/-- An amount as an option of a simulation. One that is not named is no number. -/
def amountOption (amount : Option Number) : Json :=
  match amount with
  | some n => .number n
  | none => .array []

/-- Runs the simulation that the arguments ask for. `files` has the texts of files, and `entropy` is
the seed of synthetic prices that are given none. -/
def execute (settings : Settings) (a : Arguments) (files : String → Option String)
    (entropy : Int) : Routine Empty Outcome := do
  let path ← needed .graph a.graph
  let graph ← readFile path (files path)
  let bars ← barsOf a files entropy
  let fields ← graph.attributes
  let blueprint ←
    compile settings (.payload (fields.get "nodes")) (.payload (fields.get "edges"))
      (fields.get "parameters")
  Routine.sayAll (blueprint.log settings)
  let result ← Simulation.run settings (some blueprint) (.ready bars)
    { feePercent := amountOption a.feePercent, initialCapital := amountOption a.initialCapital }
  pure
    { code := if result.success then 0 else 1
      output := if a.json then result.toJson.indented ++ "\n" else report bars.length result }

/-- The help text. -/
def help : String :=
  Text.Table.lines
    ["usage: nodeflow-backtest [-h] --graph GRAPH [--prices PRICES | --synthetic SYNTHETIC]",
     "                         [--seed SEED] [--resolution RESOLUTION] [--fee FEE]",
     "                         [--capital CAPITAL] [--json] [-v]",
     "",
     "Backtest a visual strategy graph",
     "",
     "options:",
     "  -h, --help             show this help message and exit",
     "  --graph GRAPH          JSON file with nodes/edges",
     "  --prices PRICES        JSON price file ([[ts, price], ...] or bar dicts)",
     "  --synthetic SYNTHETIC  generate N synthetic bars",
     "  --seed SEED            seed for synthetic prices",
     "  --resolution RESOLUTION",
     "                         1d, 1h or 1m",
     "  --fee FEE              fee percent per side",
     "  --capital CAPITAL      capital at the start",
     "  --json                 print the raw result as JSON",
     "  -v, --verbose          show the log",
     ""]

/-- A command, given how its arguments were read. -/
def command (settings : Settings) (arguments : Except Stop Arguments)
    (files : String → Option String) (entropy : Int) : Routine Empty Outcome :=
  match arguments with
  | .ok a => execute settings a files entropy
  | .error .help => pure { code := 0, output := help }
  | .error (.usage error) => pure { code := 2, complaint := error.message }

end StrategyGraph.CommandLine
