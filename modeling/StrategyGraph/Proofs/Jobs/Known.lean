import StrategyGraph.Proofs.Jobs.Events

/-!
# Jobs are not forgotten

A job that was submitted stays known, and stays the same job until its id is submitted anew.

* `Job.Remains` : a job and what has become of it;
* `State.known_next` : no event makes a job unknown;
* `State.known_run` : **jobs stay known,** whatever happens.
-/

namespace StrategyGraph.Jobs

open Worker (Message)

variable {settings : Settings} {σ : State} {s s' : Store} {key : Key} {job : Job} {e : Event}

/-- The second job is what has become of the first one. -/
structure Job.Remains (job later : Job) : Prop where
  ticket : later.ticket = job.ticket
  number : later.number = job.number
  request : later.request = job.request

namespace Job.Remains

theorem refl (job : Job) : job.Remains job := ⟨rfl, rfl, rfl⟩

theorem trans {middle last : Job} (h : job.Remains middle) (h' : middle.Remains last) :
    job.Remains last :=
  ⟨h'.ticket.trans h.ticket, h'.number.trans h.number, h'.request.trans h.request⟩

theorem start (job : Job) : job.Remains job.start := ⟨rfl, rfl, rfl⟩

theorem cancel (job : Job) : job.Remains job.cancel := ⟨rfl, rfl, rfl⟩

theorem record (job : Job) (message : Message) : job.Remains (job.record message) := by
  refine ⟨?_, job.number_record message, job.request_record message⟩
  cases message <;> rfl

end Job.Remains

/-- The job with a key stays known, and the same. -/
def Store.Keeps (key : Key) (s s' : Store) : Prop :=
  ∀ job, s.job? key = some job → ∃ later, s'.job? key = some later ∧ job.Remains later

namespace Store.Keeps

theorem of_eq (h : s'.job? key = s.job? key) : s.Keeps key s' :=
  fun job hjob => ⟨job, h.trans hjob, .refl job⟩

theorem update {change : Job → Job} (hchange : ∀ job : Job, job.Remains (change job))
    (number : Nat) : s.Keeps key (s.update number change) := by
  intro job hjob
  have hkey : ∀ job, (change job).key = job.key := fun job =>
    congrArg Ticket.key (hchange job).ticket
  refine ⟨if job.number = number then change job else job, ?_, ?_⟩
  · rw [job?_update hkey, hjob, Option.map_some]
  · split
    · exact hchange job
    · exact .refl job

end Store.Keeps

namespace State

/-- Only a submission of its id makes a job another one. -/
theorem keeps_next (settings : Settings) (hnew : σ.entering e ≠ some key) :
    σ.store.Keeps key (σ.next settings e).store := by
  cases he : e.isWork with
  | false =>
    obtain ⟨s, hnext, hintervenes⟩ := σ.intervenes settings he
    rw [hnext]
    cases hintervenes with
    | refused => exact .of_eq rfl
    | submit hsubmit =>
      obtain ⟨-, -, -, hsets, -, -⟩ := Store.submit_ok hsubmit
      rw [entering_submit hsubmit] at hnew
      exact .of_eq (hsets.of_ne fun heq => hnew (congrArg some heq.symm))
    | flag =>
      obtain ⟨stopping, hflag⟩ := σ.store.flag_eq _
      rw [hflag]
      exact .of_eq rfl
    | withdraw => exact Store.Keeps.update (s := σ.store.unqueue _) Job.Remains.cancel _
  | true =>
    obtain rfl := Event.eq_work he
    have hworks := σ.works settings
    generalize σ.next settings .work = σ' at hworks
    cases hworks with
    | rest | take | drop | say | check | release => exact .of_eq rfl
    | start => exact .update Job.Remains.start _
    | send => exact .update (fun job => .record job _) _

theorem known_next (settings : Settings) (e : Event) (hjob : σ.store.job? key = some job) :
    ∃ later, (σ.next settings e).store.job? key = some later ∧
      (σ.entering e ≠ some key → job.Remains later) := by
  by_cases hnew : σ.entering e = some key
  · cases e with
    | cancel id | work => cases hnew
    | submit request =>
      cases hsubmit : σ.store.submit request with
      | error fault => simp [entering, hsubmit, Except.toOption] at hnew
      | ok r =>
        obtain ⟨job', s⟩ := r
        obtain ⟨-, -, -, hsets, -, -⟩ := Store.submit_ok hsubmit
        rw [entering_submit hsubmit] at hnew
        obtain rfl := Option.some.inj hnew
        refine ⟨job', ?_, fun hother => absurd (entering_submit hsubmit) hother⟩
        rw [next, hsubmit]
        exact hsets.self
  · obtain ⟨later, hlater, hremains⟩ := keeps_next settings hnew job hjob
    exact ⟨later, hlater, fun _ => hremains⟩

/-- **Jobs stay known,** and the same until their ids are submitted anew. -/
theorem known_run (settings : Settings) (events : List Event)
    (hjob : σ.store.job? key = some job) :
    ∃ later, (σ.run settings events).store.job? key = some later ∧
      (key ∉ along settings entering σ events → job.Remains later) := by
  induction events generalizing σ job with
  | nil => exact ⟨job, hjob, fun _ => .refl job⟩
  | cons e events ih =>
    obtain ⟨middle, hmiddle, hremains⟩ := known_next settings e hjob
    obtain ⟨later, hlater, hremains'⟩ := ih hmiddle
    refine ⟨later, hlater, fun hnew => ?_⟩
    rw [mem_along_cons, not_or] at hnew
    exact (hremains hnew.1).trans (hremains' hnew.2)

end State

end StrategyGraph.Jobs
