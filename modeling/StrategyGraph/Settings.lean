import StrategyGraph.Json.Reading

/-!
# Settings

The knobs of a run and of the server. `Settings.ofEnvironment` reads them from the environment; a
knob that is not set, is blank or cannot be read has its default.
-/

namespace StrategyGraph

/-- The knobs of a run and of the server. -/
structure Settings where
  /-- Log every condition, purchase and sale. -/
  debug : Bool := false
  /-- Fee on the notional of each purchase and each sale, in percent. -/
  feePercent : Number := .float 0.05
  /-- Capital of a run that names none. -/
  initialCapital : Number := .float 1.0
  /-- The fewest bars a simulation accepts. -/
  minBars : Int := 2
  /-- Window of an indicator node without a usable one. -/
  lookback : Int := 30
  /-- Width of an "In a trade" block whose size is not known. -/
  blockWidth : Float := 400.0
  /-- Height of an "In a trade" block whose size is not known. -/
  blockHeight : Float := 500.0
  /-- Seconds between two looks at the job queue. -/
  pollInterval : Float := 0.2
  /-- Web origins that may call the server. -/
  corsOrigins : List String := ["http://localhost:5173", "http://127.0.0.1:5173"]
  /-- The number that the server listens at. -/
  socket : Int := 5000

namespace Settings

/-- The value of a variable, unless it is not set or blank. -/
def given (environment : String → Option String) (name : String) : Option String :=
  (environment name).filter fun raw => Text.strip raw ≠ ""

/-- A variable read as a double. -/
def readFloat (environment : String → Option String) (name : String) (default : Float) : Float :=
  ((given environment name).bind Decimal.readFloat).getD default

/-- A variable read as an integer. -/
def readInt (environment : String → Option String) (name : String) (default : Int) : Int :=
  match (given environment name).map Decimal.readInt with
  | some (.value n) => n
  | _ => default

/-- The texts between commas, without blanks around them; blank ones are left out. -/
def commaSeparated (s : String) : List String :=
  ((s.splitOn ",").map Text.strip).filter (· ≠ "")

/-- The settings that an environment asks for. -/
def ofEnvironment (environment : String → Option String) : Settings where
  debug := environment "NODEFLOW_DEBUG" = some "1"
  feePercent := .float (readFloat environment "NODEFLOW_FEE_PERCENT" 0.05)
  initialCapital := .float (readFloat environment "NODEFLOW_INITIAL_CAPITAL" 1.0)
  minBars := max 1 (readInt environment "NODEFLOW_MIN_BARS" 2)
  pollInterval := readFloat environment "NODEFLOW_JOB_POLL_INTERVAL" 0.2
  corsOrigins :=
    match environment "NODEFLOW_CORS_ORIGINS" with
    | none => ({} : Settings).corsOrigins
    | some raw => commaSeparated raw
  socket := readInt environment "PORT" 5000

/-- The settings as a JSON object, each under the name it is known by. -/
def toJson (s : Settings) : Json :=
  .object
    [("DEBUG", .bool s.debug),
     ("DEFAULT_FEE_PERCENT", .number s.feePercent),
     ("DEFAULT_INITIAL_CAPITAL", .number s.initialCapital),
     ("MIN_BARS", .ofInt s.minBars),
     ("DEFAULT_LOOKBACK", .ofInt s.lookback),
     ("DEFAULT_BLOCK_WIDTH", .ofFloat s.blockWidth),
     ("DEFAULT_BLOCK_HEIGHT", .ofFloat s.blockHeight),
     ("JOB_POLL_INTERVAL", .ofFloat s.pollInterval),
     ("CORS_ORIGINS", Json.strings s.corsOrigins),
     ("PORT", .ofInt s.socket)]

end Settings

end StrategyGraph
