import StrategyGraph.Jobs.Turn
import StrategyGraph.Proofs.Jobs.Store

/-!
# What happens to jobs

Jobs are submitted and cancelled while one worker takes them off the queue and serves them. The
worker takes one step at a time (`step`), so that submissions and cancellations may come in between
any two of its steps.

* `State` and `Event` : the store with its worker, and what can happen next; `State.next` and
  `State.run` are what it leads to;
* `State.entering`, `State.starting` and `State.withdrawing` : the job that an event enters, starts
  or takes out of the queue; `State.along` lists such jobs along events;
* `Intervenes` and `Works` : what submissions and cancellations do, and what steps of the worker do;
* `Moves` : the ways that a job may go;
* `Progress` : from one store to another, all jobs go such ways.
-/

namespace StrategyGraph.Jobs

open Worker (Message)

/-! ### Events -/

/-- The store and its worker. -/
structure State where
  /-- The store. -/
  store : Store
  /-- Where the worker is. -/
  stage : Stage := .idle

/-- A store without jobs, and a worker without one. -/
def State.opened (ids : Nat → String) : State := { store := .opened ids }

/-- What may happen next. -/
inductive Event where
  /-- Someone submits a request. -/
  | submit (request : Json)
  /-- Someone cancels the job with an id. -/
  | cancel (id : Json)
  /-- The worker takes a step. -/
  | work

/-- The event is a step of the worker. -/
def Event.isWork : Event → Bool
  | .work => true
  | .submit _ | .cancel _ => false

namespace Stage

/-- The key of the job that the worker has taken off the queue but not started. -/
def taken? : Stage → Option Key
  | .taken t => some t.key
  | .idle | .serving _ _ _ => none

/-- The key of the job that the worker serves. -/
def served? : Stage → Option Key
  | .serving t _ _ => some t.key
  | .idle | .taken _ => none

/-- The key of the job that the worker holds. -/
def held? (stage : Stage) : Option Key := stage.taken?.or stage.served?

theorem held?_eq_some {stage : Stage} {key : Key} :
    stage.held? = some key ↔ stage.taken? = some key ∨ stage.served? = some key := by
  cases stage <;> simp [held?, taken?, served?]

end Stage

namespace State

/-- What an event leads to. A submission or cancellation that is refused changes nothing. -/
def next (settings : Settings) (σ : State) : Event → State
  | .submit request =>
    match σ.store.submit request with
    | .ok (_, s) => { σ with store := s }
    | .error _ => σ
  | .cancel id =>
    match σ.store.cancel id with
    | .ok (_, s) => { σ with store := s }
    | .error _ => σ
  | .work =>
    let (s, stage) := (step settings σ.store σ.stage).value
    ⟨s, stage⟩

/-- What events lead to, one after the other. -/
def run (settings : Settings) (σ : State) (events : List Event) : State :=
  events.foldl (next settings) σ

/-- The key of the job that an event enters. -/
def entering (σ : State) : Event → Option Key
  | .submit request => (σ.store.submit request).toOption.map fun r => r.1.key
  | .cancel _ | .work => none

/-- The key of the job that the worker starts in an event. -/
def starting (σ : State) : Event → Option Key
  | .work => σ.stage.taken?.filter fun key => (σ.store.job? key).isSome
  | .submit _ | .cancel _ => none

/-- The key that an event cancels while it is in the queue. -/
def withdrawing (σ : State) : Event → Option Key
  | .cancel id => (Key.of? id).filter σ.store.awaits
  | .submit _ | .work => none

/-- All that is seen along events, one after the other. -/
def along {α : Type} (settings : Settings) (see : State → Event → Option α) (σ : State) :
    List Event → List α
  | [] => []
  | e :: events => (see σ e).toList ++ along settings see (σ.next settings e) events

/-- The keys of the jobs that are still to be started, the next one first. -/
def pending (σ : State) : List Key := σ.stage.taken?.toList ++ σ.store.waiting.map Ticket.key

variable {settings : Settings} {α : Type} {see : State → Event → Option α}

theorem run_append (σ : State) (before after : List Event) :
    σ.run settings (before ++ after) = (σ.run settings before).run settings after :=
  List.foldl_append

theorem along_append (σ : State) (before after : List Event) :
    along settings see σ (before ++ after) =
      along settings see σ before ++ along settings see (σ.run settings before) after := by
  induction before generalizing σ with
  | nil => rfl
  | cons e before ih => simp [along, ih, run]

theorem mem_along_cons {σ : State} {e : Event} {events : List Event} {a : α} :
    a ∈ along settings see σ (e :: events) ↔
      see σ e = some a ∨ a ∈ along settings see (σ.next settings e) events := by
  rw [along, List.mem_append, Option.mem_toList]

end State

/-! ### Submissions and cancellations -/

/-- What someone else than the worker does to the store in an event. -/
inductive Intervenes (s : Store) : Event → Store → Prop where
  /-- Nothing. -/
  | refused {e : Event} (he : e.isWork = false) : Intervenes s e s
  /-- A job is entered. -/
  | submit {s' : Store} {request : Json} {job : Job} (hsubmit : s.submit request = .ok (job, s')) :
      Intervenes s (.submit request) s'
  /-- A job that does not wait is flagged. -/
  | flag {id : Json} {t : Ticket} {job : Job} (hid : Key.of? id = some t.key)
      (haway : s.awaits t.key = false) (hjob : s.job? t.key = some job)
      (hfinal : job.status.isFinal = false) : Intervenes s (.cancel id) (s.flag t)
  /-- A job is taken out of the queue. -/
  | withdraw {id : Json} {key : Key} {job : Job} (hid : Key.of? id = some key)
      (hawaits : s.awaits key = true) (hjob : s.job? key = some job)
      (hfinal : job.status.isFinal = false) :
      Intervenes s (.cancel id) ((s.unqueue key).update job.number Job.cancel)

namespace State

theorem intervenes (settings : Settings) (σ : State) {e : Event} (he : e.isWork = false) :
    ∃ s, σ.next settings e = { σ with store := s } ∧ Intervenes σ.store e s := by
  cases e with
  | work => cases he
  | submit request =>
    rw [next]
    cases hsubmit : σ.store.submit request with
    | error fault => exact ⟨σ.store, rfl, .refused he⟩
    | ok r => exact ⟨r.2, rfl, .submit hsubmit⟩
  | cancel id =>
    rw [next]
    cases hcancel : σ.store.cancel id with
    | error fault => exact ⟨σ.store, rfl, .refused he⟩
    | ok r =>
      refine ⟨r.2, rfl, ?_⟩
      rcases Store.cancel_cases hcancel with
        hsame | ⟨t, job, hid, haway, hjob, hfinal, hflag⟩ |
          ⟨key, job, hid, hawaits, hjob, hfinal, hwithdrawn⟩
      · rw [hsame]
        exact .refused he
      · rw [hflag]
        exact .flag hid haway hjob hfinal
      · rw [hwithdrawn]
        exact .withdraw hid hawaits hjob hfinal

theorem mem_pending_iff {σ : State} {key : Key} :
    key ∈ σ.pending ↔ σ.stage.taken? = some key ∨ key ∈ σ.store.waiting.map Ticket.key := by
  rw [pending, List.mem_append, Option.mem_toList]

theorem entering_submit {σ : State} {request : Json} {job : Job} {s : Store}
    (h : σ.store.submit request = .ok (job, s)) : σ.entering (.submit request) = some job.key := by
  rw [entering, h]
  rfl

end State

/-! ### Steps of the worker -/

/-- What a step of the worker does. -/
inductive Works (settings : Settings) : State → State → Prop where
  /-- Nothing waits. -/
  | rest {s : Store} (hwaiting : s.waiting = []) : Works settings ⟨s, .idle⟩ ⟨s, .idle⟩
  /-- The next job is taken off the queue. -/
  | take {s : Store} {t : Ticket} {waiting : List Ticket} (hwaiting : s.waiting = t :: waiting) :
      Works settings ⟨s, .idle⟩ ⟨{ s with waiting := waiting }, .taken t⟩
  /-- The job that was taken is started. -/
  | start {s : Store} {t : Ticket} {job : Job} (hjob : s.job? t.key = some job) :
      Works settings ⟨s, .taken t⟩
        ⟨s.start job.number, .serving t job.number (Worker.serve settings (.object job.request))⟩
  /-- The job that was taken is not known. -/
  | drop {s : Store} {t : Ticket} (hjob : s.job? t.key = none) :
      Works settings ⟨s, .taken t⟩ ⟨s, .idle⟩
  /-- A record is left. -/
  | say {s : Store} {t : Ticket} {number : Nat} {record : Log.Record}
      {rest : Routine Message Unit} :
      Works settings ⟨s, .serving t number (.say record rest)⟩ ⟨s, .serving t number rest⟩
  /-- A message is sent. -/
  | send {s : Store} {t : Ticket} {number : Nat} {message : Message}
      {rest : Routine Message Unit} :
      Works settings ⟨s, .serving t number (.send message rest)⟩
        ⟨s.record number message, .serving t number rest⟩
  /-- The job asks whether to stop. -/
  | check {s : Store} {t : Ticket} {number : Nat} {resume : Bool → Routine Message Unit} :
      Works settings ⟨s, .serving t number (.check resume)⟩
        ⟨s, .serving t number (resume (s.isFlagged t.key))⟩
  /-- The job is done. -/
  | release {s : Store} {t : Ticket} {number : Nat} {outcome : Except Fault Unit} :
      Works settings ⟨s, .serving t number (.done outcome)⟩ ⟨s.release t.key, .idle⟩

theorem Event.eq_work {e : Event} (h : e.isWork = true) : e = .work := by
  cases e with
  | submit request | cancel id => cases h
  | work => rfl

theorem State.works (settings : Settings) (σ : State) :
    Works settings σ (σ.next settings .work) := by
  obtain ⟨s, stage⟩ := σ
  cases stage with
  | idle =>
    rw [next, step, Store.next?]
    dsimp only
    cases hwaiting : s.waiting with
    | nil => exact .rest hwaiting
    | cons t waiting => exact .take hwaiting
  | taken t =>
    rw [next, step, begin?]
    dsimp only
    cases hjob : s.job? t.key with
    | none => exact .drop hjob
    | some job => exact .start hjob
  | serving t number rest =>
    cases rest with
    | done outcome => exact .release
    | say record rest => exact .say
    | send message rest => exact .send
    | check resume => exact .check

/-! ### Statuses -/

/-- The ways of a job: it stays where it is, it is started, it comes to an end, or it is cancelled
before it is started. -/
inductive Moves : Status → Status → Prop where
  /-- It stays where it is. -/
  | stays (status : Status) : Moves status status
  /-- It is started. -/
  | starts : Moves .queued .running
  /-- It comes to an end. -/
  | ends {status : Status} (h : status.isFinal = true) : Moves .running status
  /-- It is cancelled in the queue. -/
  | withdraws : Moves .queued .cancelled

theorem Moves.eq_of_isFinal {a b : Status} (h : Moves a b) (ha : a.isFinal = true) : b = a := by
  cases h with
  | stays => rfl
  | starts | ends | withdraws => cases ha

/-- Every job goes one of its ways, and the jobs that are new are queued. -/
structure Progress (s s' : Store) : Prop where
  /-- No job is forgotten, and its status stays or moves. -/
  moves : ∀ key job, s.job? key = some job →
    ∃ job', s'.job? key = some job' ∧ Moves job.status job'.status
  /-- New jobs are queued. -/
  queued : ∀ key job, s.job? key = none → s'.job? key = some job → job.status = .queued

namespace Progress

variable {s s' : Store} {key : Key} {job job' : Job}

theorem of_eq (h : s'.job? = s.job?) : Progress s s' where
  moves _ job hjob := ⟨job, h ▸ hjob, .stays _⟩
  queued _ _ hnone hsome := by simp [h, hnone] at hsome

theorem of_change (hjob : s.job? key = some job) (h : s.Sets s' key job')
    (hmoves : Moves job.status job'.status) : Progress s s' where
  moves other found hfound := by
    by_cases hother : other = key
    · subst hother
      obtain rfl : job = found := Option.some.inj (hjob.symm.trans hfound)
      exact ⟨job', h.self, hmoves⟩
    · exact ⟨found, (h.of_ne hother).trans hfound, .stays _⟩
  queued other found hnone hfound := by
    rcases h.cases hfound with ⟨rfl, -⟩ | ⟨-, hbefore⟩
    · cases hnone.symm.trans hjob
    · cases hnone.symm.trans hbefore

theorem of_new (hnone : s.job? key = none) (h : s.Sets s' key job)
    (hstatus : job.status = .queued) : Progress s s' where
  moves other found hfound := by
    have hother : other ≠ key := by
      rintro rfl
      cases hnone.symm.trans hfound
    exact ⟨found, (h.of_ne hother).trans hfound, .stays _⟩
  queued other found hbefore hfound := by
    rcases h.cases hfound with ⟨-, rfl⟩ | ⟨-, hfound⟩
    · exact hstatus
    · cases hbefore.symm.trans hfound

end Progress

end StrategyGraph.Jobs
