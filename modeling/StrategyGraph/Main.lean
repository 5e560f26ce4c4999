import StrategyGraph.CommandLine.Execute

/-!
# The command line

Reads the environment and the files that a command names, runs the command, and prints what it
leaves behind.
-/

open StrategyGraph CommandLine

/-- The names of the variables that settings are read from. -/
def settingNames : List String :=
  ["NODEFLOW_DEBUG", "NODEFLOW_FEE_PERCENT", "NODEFLOW_INITIAL_CAPITAL", "NODEFLOW_MIN_BARS",
   "NODEFLOW_JOB_POLL_INTERVAL", "NODEFLOW_CORS_ORIGINS", "PORT"]

/-- The settings that the environment asks for. -/
def readSettings : IO Settings := do
  let values ← settingNames.mapM fun name => do pure (name, ← IO.getEnv name)
  pure (Settings.ofEnvironment fun name => (values.lookup name).join)

/-- The text of a file, if it can be read. -/
def readText (path : String) : IO (Option String) := do
  try
    pure (some (← IO.FS.readFile path))
  catch _ => pure none

/-- A number that is hard to guess. -/
def readEntropy : IO Int := do
  let bytes ← IO.getRandomBytes 8
  pure (bytes.toList.foldl (fun n byte => 256 * n + byte.toNat) 0 : Nat)

/-- Prints an error. -/
def complain (text : String) : IO Unit := IO.eprintln ("nodeflow-backtest: error: " ++ text)

/-- Runs a command and prints what it leaves behind; errors and the log go to standard error. -/
def main (args : List String) : IO UInt32 := do
  let settings ← readSettings
  let arguments := Arguments.read settings args
  let paths := (arguments.toOption.map Arguments.files).getD []
  let texts ← paths.mapM fun path => do pure (path, ← readText path)
  let files := fun path => (texts.lookup path).join
  let transcript := (command settings arguments files (← readEntropy)).run Routine.never
  if arguments.toOption.any Arguments.verbose then
    for record in transcript.log do
      IO.eprintln (record.level.name ++ " " ++ record.text)
  match transcript.outcome with
  | .ok outcome =>
    IO.print outcome.output
    if outcome.complaint ≠ "" then complain outcome.complaint
    pure (UInt32.ofNat outcome.code)
  | .error fault =>
    complain fault.message
    pure 1
