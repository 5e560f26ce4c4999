import StrategyGraph.Jobs.Turn
import StrategyGraph.Server.Route

/-!
# Responding

The server compiles graphs, computes indicators, runs backtests at once or as jobs, and tells what
became of its jobs.

* `compiled`, `indicated` and `executed` answer from the request alone;
* `started`, `statusOf`, `resultOf` and `cancelled` answer from the store of jobs;
* `respond` picks among them by path and method.
-/

namespace StrategyGraph.Server

open Jobs (Job Store)

variable (settings : Settings)

/-- The name occurs in a value: as a field, as an item, or inside a text. -/
def mentions (name : String) (j : Json) : Except Fault Bool :=
  match j with
  | .object fields => .ok (Fields.has fields name)
  | .array items => .ok (items.any fun item => item.same (.string name))
  | .string s => .ok (Text.includes s name)
  | j => .error (.notContainer j.typeName)

/-- A response, or one that says what went wrong, with a record of it. -/
def orFailed (what : String) (outcome : Except Fault (Logged Response)) : Logged Response :=
  match outcome with
  | .ok response => response
  | .error fault => ⟨Response.error 500 fault.message, [Log.error ("Error " ++ what)]⟩

/-! ### Answers from the request alone -/

/-- The server is running. -/
def healthy : Response :=
  .ofJson 200
    (.object [("status", .string "ok"), ("message", .string "nodeflow backend is running")])

/-- The blueprint of a graph. -/
def compiled (body : Json) : Logged Response :=
  orFailed "compiling graph" do
    let body := body.orElse (.object [])
    if ← mentions "nodes" body then
      let fields ← body.attributes
      let blueprint ←
        compile settings (.payload (fields.get "nodes")) (.payload (fields.get "edges"))
          (fields.get "parameters")
      pure ⟨.ofJson 200 blueprint.toJson, blueprint.log settings⟩
    else pure (pure (.error 400 "nodes required"))

/-- The fault lies in what was asked for. -/
def isMisasked : Fault → Bool
  | .unknownIndicator _ | .invalidWindow _ | .windowTooSmall _ => true
  | _ => false

/-- A series as JSON. -/
def seriesJson (series : Series Float) : Json := .array (series.map (Json.ofOption .ofFloat))

/-- The series of an indicator. -/
def indicated (body : Json) : Logged Response :=
  orFailed "computing indicator" do
    let fields ← (body.orElse (.object [])).attributes
    let bars ← Bar.normalize (fields.get "prices")
    if bars.isEmpty then pure (pure (.error 400 "prices required"))
    else
      let kind := fields.get "kind"
      let window := (fields.get? "window").getD (.ofInt settings.lookback)
      match Indicator.compute kind window (.ready bars) with
      | .ok series =>
        pure (pure (.ofJson 200 (.object [("kind", kind), ("series", seriesJson series)])))
      | .error fault =>
        if isMisasked fault then pure (pure (.error 400 fault.message)) else throw fault

/-- The last message of a worker that serves the request. -/
def executed (body : Json) : Logged Response :=
  let transcript := Worker.transcript settings body
  match Worker.terminal? transcript.messages with
  | none => ⟨{ status := 500 }, transcript.log⟩
  | some message =>
    let record := Log.info ("/execute_backtest finished with status " ++ message.status)
    ⟨.ofJson (if message.isComplete then 200 else 400) message.toJson,
      transcript.log ++ [record]⟩

/-! ### Answers from the store of jobs -/

/-- The id of a job that was submitted, and the addresses that tell about it. -/
def startedBody (job : Job) : Json :=
  .object
    [("job_id", job.id), ("status_url", .string (Route.statusPath job.id)),
     ("results_url", .string (Route.resultsPath job.id))]

/-- Submits a job. -/
def started (s : Store) (body : Json) : Logged (Response × Store) :=
  match s.submit (body.orElse (.object [])) with
  | .error fault => ⟨(.error 500 fault.message, s), [Log.error "Error starting backtest job"]⟩
  | .ok (job, s) => ⟨(.ofJson 202 (startedBody job), s), [Store.submitRecord job]⟩

/-- No job has the id. -/
def unknownJob : Response := .error 404 "job not found"

/-- Where a job is, with the messages about its progress. -/
def statusBody (id : String) (job : Job) : Json :=
  let progress := job.messages.filter fun m => !m.isTerminal
  .object
    [("job_id", .string id), ("status", .string job.status.name),
     ("messages", .array (progress.map Worker.Message.toJson)),
     ("error", Json.ofOption (fun t => .string t.message) job.error)]

/-- The result of a job. -/
def resultBody (id : String) (job : Job) : Json :=
  .object
    [("job_id", .string id), ("status", .string job.status.name),
     ("result", Json.ofOption Simulation.Result.toJson job.result)]

/-- Tells something about the job with an id. -/
def told (body : String → Job → Json) (s : Store) (id : String) : Response :=
  match s.find? (.string id) with
  | none => unknownJob
  | some job => .ofJson 200 (body id job)

/-- Tells where a job is. -/
def statusOf (s : Store) (id : String) : Response := told statusBody s id

/-- Tells the result of a job. -/
def resultOf (s : Store) (id : String) : Response := told resultBody s id

/-- Cancels a job. -/
def cancelled (s : Store) (id : String) : Response × Store :=
  let (found, s) := s.cancelKnown (.string id)
  if found then
    (.ofJson 202 (.object [("job_id", .string id), ("status", .string "cancelling")]), s)
  else (.error 404 "job not found or already finished", s)

/-! ### All answers -/

/-- The answer at a route. -/
def answer (s : Store) (route : Route) (body : Json) : Logged (Response × Store) :=
  match route with
  | .health => pure (healthy, s)
  | .compile => do pure (← compiled settings body, s)
  | .indicators => do pure (← indicated settings body, s)
  | .execute => do pure (← executed settings body, s)
  | .start => started s body
  | .status id => pure (statusOf s id, s)
  | .results id => pure (resultOf s id, s)
  | .cancel id => pure (cancelled s id)

/-- The answer to a request, and the store after it. Whoever may get a page may ask for its head
alone, and at every address one may ask for the methods. -/
def respond (w : Framework) (s : Store) (r : Request) : Logged (Response × Store) :=
  match Route.ofPath? w r.path with
  | none => pure ({ status := 404 }, s)
  | some route =>
    if r.method = route.method then answer settings s route (w.json r)
    else if r.method = "HEAD" && route.method = "GET" then do
      let (response, s) ← answer settings s route (w.json r)
      pure ({ response with body := none }, s)
    else if r.method = "OPTIONS" then pure ({ status := 200 }, s)
    else pure ({ status := 405 }, s)

end StrategyGraph.Server
