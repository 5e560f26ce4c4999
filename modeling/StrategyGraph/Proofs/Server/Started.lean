import StrategyGraph.Proofs.Jobs.Known
import StrategyGraph.Proofs.Server.Path
import StrategyGraph.Server.Respond

/-!
# Jobs and their addresses

Whoever starts a job is given the addresses that tell about it. They do so for the ids that the web
framework reads back from there, and those that the store makes up are of that kind. Other ids are
accepted, too: numbers, truth values, and texts with characters that mean something in a path. Their
addresses tell nothing about the job.

* `GivesCharacters` : the id that a request gives has characters only;
* `HasAddress` : the ids that are read back from an address;
* `Found` and `AnswersAlike` : what the addresses of a job tell;
* `accepted_found` : **which jobs are found at their addresses**; `number_not_found` : a job that is
  not found there.
-/

namespace StrategyGraph

namespace Server

open Jobs (Job Key State Store)

variable {settings : Settings} {w : Framework} {s s' u : Store} {job : Job} {id : Json}
  {key : Key} {text : String}

/-! ### Ids -/

/-- If a request gives a text as id, then it is a text of characters: no lone surrogate was read. -/
def GivesCharacters (request : Json) : Prop :=
  ∀ fields text, request = .object fields → Fields.get fields "job_id" = .string text →
    Json.loneSurrogate ∉ text.toList

variable (w) in
/-- The id is read back from the end of an address. -/
def HasAddress (id : Json) : Prop := ∃ text, id = .string text ∧ w.idOf? text = some text

/-! ### Addresses -/

/-- A request for what is at a path. -/
def Request.get (path : String) : Request where
  method := "GET"
  path := path

variable (w) in
/-- What is told at an address that ends in a text. -/
def toldAt (body : String → Job → Json) (u : Store) (text : String) : Response :=
  match w.idOf? text with
  | none => { status := 404 }
  | some id => told body u id

theorem respond_start (hw : w.Lawful) (settings : Settings) (s : Store) {r : Request}
    (hmethod : r.method = "POST") (hpath : r.path = "/api/backtest/start") :
    (respond settings w s r).value = (started s (w.json r)).value := by
  rw [respond, hpath, Route.ofPath?_start hw, hmethod]
  rfl

theorem respond_status (hw : w.Lawful) (settings : Settings) (u : Store) (id : Json) :
    (respond settings w u (.get (Route.statusPath id))).value =
      (toldAt w statusBody u id.text, u) := by
  rw [respond, Request.get, Route.ofPath?_statusPath hw, toldAt]
  cases w.idOf? id.text <;> rfl

theorem respond_results (hw : w.Lawful) (settings : Settings) (u : Store) (id : Json) :
    (respond settings w u (.get (Route.resultsPath id))).value =
      (toldAt w resultBody u id.text, u) := by
  rw [respond, Request.get, Route.ofPath?_resultsPath hw, toldAt]
  cases w.idOf? id.text <;> rfl

/-- The addresses with an id tell about a job. -/
structure Found (settings : Settings) (w : Framework) (u : Store) (id : Json) (job : Job) :
    Prop where
  status : (respond settings w u (.get (Route.statusPath id))).value =
    (.ofJson 200 (statusBody id.text job), u)
  results : (respond settings w u (.get (Route.resultsPath id))).value =
    (.ofJson 200 (resultBody id.text job), u)

/-- The addresses with an id tell the same from two stores. -/
structure AnswersAlike (settings : Settings) (w : Framework) (s u : Store) (id : Json) :
    Prop where
  status : (respond settings w u (.get (Route.statusPath id))).value.1 =
    (respond settings w s (.get (Route.statusPath id))).value.1
  results : (respond settings w u (.get (Route.resultsPath id))).value.1 =
    (respond settings w s (.get (Route.resultsPath id))).value.1

theorem toldAt_of_job? (haddress : w.idOf? text = some text)
    (hjob : u.job? (.text text) = some job) (body : String → Job → Json) :
    toldAt w body u text = .ofJson 200 (body text job) := by
  have hfind : u.find? (.string text) = some job := hjob
  rw [toldAt, haddress]
  dsimp only
  rw [told, hfind]

theorem told_congr {body : String → Job → Json} (h : u.job? (.text text) = s.job? (.text text)) :
    told body u text = told body s text := by
  have hfind : u.find? (.string text) = s.find? (.string text) := h
  rw [told, told, hfind]

theorem HasAddress.found (h : HasAddress w id) (hw : w.Lawful) (hid : Key.of? id = some key)
    (hjob : u.job? key = some job) (settings : Settings) : Found settings w u id job := by
  obtain ⟨text, rfl, haddress⟩ := h
  obtain rfl : .text text = key := Option.some.inj hid
  have htext : (Json.string text).text = text := rfl
  constructor
  · rw [respond_status hw, htext, toldAt_of_job? haddress hjob]
  · rw [respond_results hw, htext, toldAt_of_job? haddress hjob]

/-- The addresses of an id that is not read back tell nothing about its job. -/
theorem answersAlike_of_not_hasAddress (h : ¬HasAddress w id) (hw : w.Lawful)
    (hid : Key.of? id = some key) (hothers : ∀ other, other ≠ key → u.job? other = s.job? other)
    (settings : Settings) : AnswersAlike settings w s u id := by
  have htold (body : String → Job → Json) : toldAt w body u id.text = toldAt w body s id.text := by
    unfold toldAt
    cases hread : w.idOf? id.text with
    | none => rfl
    | some text =>
      refine told_congr (hothers _ fun hkey => h ?_)
      obtain rfl := Key.of?_eq_text.1 (hid.trans (congrArg some hkey.symm))
      exact ⟨text, rfl, hread⟩
  constructor
  · rw [respond_status hw, respond_status hw]
    dsimp only
    rw [htold]
  · rw [respond_results hw, respond_results hw]
    dsimp only
    rw [htold]

end Server

open Jobs (State) in
open Server in
/-- **Which jobs are found at their addresses.** An accepted request enters a job, under the id that
it gives or, if it gives none, under an id that is read back from an address.

Where the id is read back, both addresses tell about the job, at once and whatever happens later; it
is the same job until its id is submitted anew. Where it is not, the addresses tell what they would
tell without the job.

The ids that the store makes up need not be new: they only have to be plain, as those of a random
source are that writes letters, digits and hyphens. An id that was given must be a text of characters
if it is one, as all lone surrogates are read alike. -/
theorem accepted_found {settings : Settings} {w : Framework} {s s' : Jobs.Store} {r : Request}
    {response : Response} (hw : w.Lawful) (hids : ∀ n, isPlain (s.ids n) = true)
    (_ : GivesCharacters (w.json r)) (hmethod : r.method = "POST")
    (hpath : r.path = "/api/backtest/start") (hanswer : (respond settings w s r).value = (response, s'))
    (haccepted : response.status = 202) :
    ∃ job, s.submit ((w.json r).orElse (.object [])) = .ok (job, s') ∧
      response = .ofJson 202 (startedBody job) ∧
      ((job.request.get "job_id").isTruthy = true → job.id = job.request.get "job_id") ∧
      ((job.request.get "job_id").isTruthy = false → HasAddress w job.id) ∧
      (HasAddress w job.id → ∀ stage events,
        let σ : State := ⟨s', stage⟩
        ∃ later, (σ.run settings events).store.job? job.key = some later ∧
          (job.key ∉ State.along settings State.entering σ events → job.Remains later) ∧
          Found settings w (σ.run settings events).store job.id later) ∧
      (¬HasAddress w job.id → ∀ u : Jobs.Store,
        (∀ key, key ≠ job.key → u.job? key = s.job? key) →
        AnswersAlike settings w s u job.id) := by
  rw [respond_start hw settings s hmethod hpath, started] at hanswer
  cases hsubmit : s.submit ((w.json r).orElse (.object [])) with
  | error fault =>
    rw [hsubmit] at hanswer
    obtain ⟨rfl, -⟩ := Prod.mk.inj hanswer
    cases haccepted
  | ok submitted =>
    obtain ⟨job, entered⟩ := submitted
    rw [hsubmit] at hanswer
    obtain ⟨rfl, rfl⟩ := Prod.mk.inj hanswer
    obtain ⟨hid, hkey⟩ := Jobs.Store.submit_id hsubmit
    obtain ⟨-, -, -, hsets, -, -⟩ := Jobs.Store.submit_ok hsubmit
    refine ⟨job, rfl, rfl, fun hown => ?_, fun hown => ?_, fun haddress stage events => ?_,
      fun haddress u hothers => ?_⟩
    · rw [hid, Jobs.Store.identify, if_pos hown]
    · rw [hid, Jobs.Store.identify, if_neg (by simp [hown])]
      exact ⟨_, rfl, hw.idOf?_plain (hids _)⟩
    · intro σ
      obtain ⟨later, hlater, hremains⟩ := σ.known_run settings events hsets.self
      exact ⟨later, hlater, hremains, haddress.found hw hkey hlater settings⟩
    · exact answersAlike_of_not_hasAddress haddress hw hkey hothers settings

/-- A request that starts a job with an id. -/
def startRequest (id : String) : Server.Request where
  method := "POST"
  path := "/api/backtest/start"
  contentType := some "application/json"
  body := "\x7b\"job_id\": " ++ id ++ "\x7d"

open Server in
theorem accepted_found_run : ∃ s',
    (respond {} .plain (.opened toString) (startRequest "\"run\"")).value =
      (.ofJson 202 (.object [("job_id", .string "run"),
        ("status_url", .string "/api/backtest/status/run"),
        ("results_url", .string "/api/backtest/results/run")]), s') ∧
      ∀ events, ∃ later,
        Found {} .plain (Jobs.State.run {} ⟨s', .idle⟩ events).store (.string "run") later := by
  have hjson : Framework.plain.json (startRequest "\"run\"") =
      .object [("job_id", .string "run")] := by rfl
  have hstarted :
      (respond {} .plain (.opened toString) (startRequest "\"run\"")).value = _ :=
    respond_start Framework.lawful_plain {} _ rfl rfl
  rw [hjson] at hstarted
  have hcharacters : GivesCharacters (Framework.plain.json (startRequest "\"run\"")) := by
    rw [hjson]
    rintro fields text ⟨⟩ ⟨⟩
    decide
  obtain ⟨job, hsubmit, -, hown, -, hfound, -⟩ :=
    accepted_found Framework.lawful_plain isPlain_toString hcharacters rfl rfl hstarted rfl
  obtain ⟨hrequest, -⟩ := Jobs.Store.submit_new hsubmit
  rw [hjson] at hrequest
  have hfields : [("job_id", .string "run")] = job.request := Json.object.inj hrequest
  rw [← hfields] at hown
  have hid : job.id = .string "run" := hown rfl
  have haddress : HasAddress .plain (.string "run") :=
    ⟨_, rfl, Framework.lawful_plain.idOf?_plain (by decide)⟩
  refine ⟨_, hstarted.trans rfl, fun events => ?_⟩
  obtain ⟨later, -, -, hlater⟩ := hfound (hid ▸ haddress) .idle events
  exact ⟨later, hid ▸ hlater⟩

open Server in
/-- A number is accepted as an id, but its addresses name a text. -/
theorem number_not_found : ∃ s',
    (respond {} .plain (.opened toString) (startRequest "5")).value =
      (.ofJson 202 (.object [("job_id", .ofInt 5),
        ("status_url", .string "/api/backtest/status/5"),
        ("results_url", .string "/api/backtest/results/5")]), s') ∧
      (respond {} .plain s' (.get "/api/backtest/status/5")).value.1 = unknownJob ∧
      (respond {} .plain s' (.get "/api/backtest/results/5")).value.1 = unknownJob := by
  have hjson : Framework.plain.json (startRequest "5") = .object [("job_id", .ofInt 5)] := by rfl
  have hstarted : (respond {} .plain (.opened toString) (startRequest "5")).value = _ :=
    respond_start Framework.lawful_plain {} _ rfl rfl
  rw [hjson] at hstarted
  have hstatus : Route.statusPath (.ofInt 5) = "/api/backtest/status/5" := by rfl
  have hresults : Route.resultsPath (.ofInt 5) = "/api/backtest/results/5" := by rfl
  refine ⟨_, hstarted.trans rfl, ?_, ?_⟩
  · rw [← hstatus, respond_status Framework.lawful_plain]
    rfl
  · rw [← hresults, respond_results Framework.lawful_plain]
    rfl

end StrategyGraph
