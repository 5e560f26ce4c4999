import StrategyGraph.Server.Request

/-!
# Routes

The addresses that the server answers at, and the method of each. The id of a job is one segment of
a path, and not empty.
-/

namespace StrategyGraph.Server

/-- An address of the server. -/
inductive Route where
  /-- The server is running. -/
  | health
  /-- Compiles a graph. -/
  | compile
  /-- Computes an indicator. -/
  | indicators
  /-- Runs a backtest. -/
  | execute
  /-- Submits a job. -/
  | start
  /-- Tells where a job is. -/
  | status (id : String)
  /-- Tells the result of a job. -/
  | results (id : String)
  /-- Cancels a job. -/
  | cancel (id : String)

namespace Route

/-- The route of the segments of a path. -/
def ofSegments? : List String → Option Route
  | ["health"] => some health
  | ["compile"] => some compile
  | ["indicators"] => some indicators
  | ["execute_backtest"] => some execute
  | ["api", "backtest", "start"] => some start
  | ["api", "backtest", name, id] =>
    if id = "" then none
    else
      match name with
      | "status" => some (status id)
      | "results" => some (results id)
      | "cancel" => some (cancel id)
      | _ => none
  | _ => none

/-- The route of a path. -/
def ofPath? (w : Framework) (path : String) : Option Route :=
  match w.segments path with
  | "" :: segments => ofSegments? segments
  | _ => none

/-- The address of what a job is at. -/
def statusPath (id : Json) : String := "/api/backtest/status/" ++ id.text

/-- The address of the result of a job. -/
def resultsPath (id : Json) : String := "/api/backtest/results/" ++ id.text

/-- The method of a route. -/
def method : Route → String
  | health | status _ | results _ => "GET"
  | compile | indicators | execute | start | cancel _ => "POST"

end Route

end StrategyGraph.Server
