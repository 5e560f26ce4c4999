import StrategyGraph.Proofs.Jobs.Cancelled
import StrategyGraph.Proofs.Worker.Protocol

/-!
# What a job shows

The status of a job, its messages, its result and its error are set one after the other, when the
job is submitted, when it is cancelled and with each message of the worker. Whenever they are looked
at, they fit together.

* `Job.Coherent` : the status of a job tells what else is there;
* `Job.coherent_recordAll` : a job is coherent with all that a worker may have sent of it so far;
* `jobs_coherent` : **all jobs are coherent.**
-/

namespace StrategyGraph

/-- Only a simulation that was stopped says so. -/
theorem Simulation.Failure.eq_cancelled {failure : Failure}
    (h : failure.message = "Simulation cancelled") : failure = .cancelled := by
  have hopening : ∀ {opening rest : String}, opening ++ rest = "Simulation cancelled" →
      opening.toList <+: "Simulation cancelled".toList :=
    fun {_ rest} heq => ⟨rest.toList, heq ▸ String.toList_append.symm⟩
  unfold message at h
  cases failure with
  | cancelled => rfl
  | notNumbers | noBlueprint | noPrices | noEntry => simp at h
  | feeOutOfRange percent | capitalNotPositive capital => exact absurd (hopening h) (by decide)
  | invalidBar index | nonPositivePrice index | unordered index | tooFewBars count least =>
    simp only [String.append_assoc] at h
    exact absurd (hopening h) (by decide)

namespace Jobs

open State (along entering)
open Worker (Message Protocol)

/-- The status of a job tells what else is there. -/
structure Job.Coherent (job : Job) : Prop where
  /-- Nothing was sent of a job in the queue, and nothing has come of it. -/
  queued : job.status = .queued → job.messages = [] ∧ job.result = none ∧ job.error = none
  /-- Of a job that runs, it was sent at most that the simulation has started. -/
  running : job.status = .running → (job.messages = [] ∨ job.messages = [.started]) ∧
    job.result = none ∧ job.error = none
  /-- The last message of a completed job has its result, and its error is that of the result. -/
  completed : job.status = .completed → ∃ result, job.messages.getLast? = some (.complete result) ∧
    job.result = some result ∧
    job.error.map Trouble.message = result.failure.map Simulation.Failure.message ∧
    job.error.map Trouble.message ≠ some "Simulation cancelled"
  /-- The last message of a job that has failed is its error. There is no result. -/
  failed : job.status = .failed → ∃ problem, job.messages.getLast? = some (.error problem) ∧
    job.error.map Trouble.message = some problem.message ∧ job.result = none
  /-- A cancelled job says so. It was cancelled in the queue, and nothing was sent of it, or its last
  message has its result. -/
  cancelled : job.status = .cancelled →
    job.error.map Trouble.message = some "Simulation cancelled" ∧
    (job.messages = [] ∧ job.result = none ∨ ∃ result,
      job.messages.getLast? = some (.complete result) ∧ job.result = some result)

variable {ids : Nat → String} {settings : Settings} {σ : State} {job : Job} {given : List Bool}
  {sent : List Message}

namespace Job

/-- Nothing has become of a job yet. -/
structure IsNew (job : Job) : Prop where
  status : job.status = .queued
  messages : job.messages = []
  result : job.result = none
  error : job.error = none

theorem IsNew.coherent (h : job.IsNew) : job.Coherent where
  queued _ := ⟨h.messages, h.result, h.error⟩
  running hstatus := by cases h.status.symm.trans hstatus
  completed hstatus := by cases h.status.symm.trans hstatus
  failed hstatus := by cases h.status.symm.trans hstatus
  cancelled hstatus := by cases h.status.symm.trans hstatus

theorem IsNew.coherent_cancel (h : job.IsNew) : job.cancel.Coherent where
  queued hstatus := by cases hstatus
  running hstatus := by cases hstatus
  completed hstatus := by cases hstatus
  failed hstatus := by cases hstatus
  cancelled _ := ⟨rfl, .inl ⟨h.messages, h.result⟩⟩

/-- A job that runs is coherent if it was sent at most that the simulation has started. -/
theorem coherent_of_running (hstatus : job.status = .running)
    (hmessages : job.messages = [] ∨ job.messages = [.started]) (hresult : job.result = none)
    (herror : job.error = none) : job.Coherent where
  queued h := by cases hstatus.symm.trans h
  running _ := ⟨hmessages, hresult, herror⟩
  completed h := by cases hstatus.symm.trans h
  failed h := by cases hstatus.symm.trans h
  cancelled h := by cases hstatus.symm.trans h

theorem coherent_complete (job : Job) (result : Simulation.Result) :
    (job.record (.complete result)).Coherent := by
  have hlast : (job.record (.complete result)).messages.getLast? = some (.complete result) := by
    rw [messages_record, List.getLast?_concat]
  have herror : (job.record (.complete result)).error.map Trouble.message =
      result.failure.map Simulation.Failure.message := by
    show (result.failure.map Trouble.failure).map Trouble.message = _
    rw [Option.map_map]
    rfl
  by_cases hcancelled : result.failure = some .cancelled
  · have hstatus : (job.record (.complete result)).status = .cancelled := by
      show statusOf result = .cancelled
      rw [statusOf, hcancelled]
    exact {
      queued h := by cases hstatus.symm.trans h
      running h := by cases hstatus.symm.trans h
      completed h := by cases hstatus.symm.trans h
      failed h := by cases hstatus.symm.trans h
      cancelled _ := ⟨by rw [herror, hcancelled]; rfl, .inr ⟨result, hlast, rfl⟩⟩ }
  · have hstatus : (job.record (.complete result)).status = .completed :=
      statusOf_of_ne hcancelled
    have hother : result.failure.map Simulation.Failure.message ≠ some "Simulation cancelled" := by
      intro hmessage
      obtain ⟨failure, hfailure, hmessage⟩ := Option.map_eq_some_iff.1 hmessage
      exact hcancelled (Simulation.Failure.eq_cancelled hmessage ▸ hfailure)
    exact {
      queued h := by cases hstatus.symm.trans h
      running h := by cases hstatus.symm.trans h
      completed _ := ⟨result, hlast, rfl, herror, herror ▸ hother⟩
      failed h := by cases hstatus.symm.trans h
      cancelled h := by cases hstatus.symm.trans h }

theorem coherent_error (job : Job) (problem : Worker.Problem) (hresult : job.result = none) :
    (job.record (.error problem)).Coherent where
  queued h := by cases h
  running h := by cases h
  completed h := by cases h
  failed _ := ⟨problem, by rw [messages_record, List.getLast?_concat], rfl, hresult⟩
  cancelled h := by cases h

/-- **A job is coherent with all that a worker may have sent of it so far.** -/
theorem IsNew.coherent_recordAll (h : job.IsNew)
    (hsent : sent = [] ∨ sent = [.started] ∨ Protocol sent) :
    (job.start.recordAll sent).Coherent := by
  rcases hsent with rfl | rfl | hprotocol
  · exact coherent_of_running rfl (.inl h.messages) h.result h.error
  · refine coherent_of_running rfl (.inr ?_) h.result h.error
    show job.messages ++ [.started] = [.started]
    rw [h.messages, List.nil_append]
  · cases hprotocol with
    | refused problem => exact coherent_error _ problem h.result
    | ended result => exact coherent_complete _ result
    | broken problem => exact coherent_error _ problem h.result

end Job

theorem Passage.coherent (h : Passage settings job given σ) (hnew : job.IsNew) :
    ∃ found, σ.store.job? job.key = some found ∧ found.Coherent := by
  cases h with
  | taken _ _ hjob => exact ⟨job, hjob, hnew.coherent⟩
  | served _ _ hjob hleads =>
    exact ⟨_, hjob, hnew.coherent_recordAll (Worker.sent_cases hleads)⟩
  | settled haway hleads =>
    exact ⟨_, haway.known, hnew.coherent_recordAll (Worker.sent_cases hleads)⟩

/-- **All jobs are coherent.** Let jobs be submitted under distinct ids, cancelled, and served step
by step, in whatever order. Then the status, the messages, the result and the error of each job that
is known fit together, whatever has happened so far. -/
theorem jobs_coherent (settings : Settings) (events : List Event)
    (h : (along settings entering (.opened ids) events).Nodup) (key : Key) (job : Job)
    (hjob : (State.run settings (.opened ids) events).store.job? key = some job) : job.Coherent := by
  have hentered : key ∈ along settings entering (.opened ids) events := by
    by_contra hnew
    obtain ⟨hfresh, -⟩ := (Fresh.start ids key).run (.start ids _) settings events hnew
    cases hfresh.unknown.symm.trans hjob
  -- The job was entered by a submission, before which nothing was known of its key.
  obtain ⟨before, e, after, rfl, hentering⟩ := State.exists_of_mem_along hentered
  obtain ⟨request, entry, s, rfl, hsubmit, rfl⟩ := State.exists_of_entering hentering
  have honce : Once ids settings entry.key (before ++ .submit request :: after) :=
    List.nodup_iff_count_le_one.1 h entry.key
  obtain ⟨-, hmessages, hresult, herror⟩ := Store.submit_new hsubmit
  obtain ⟨-, -, -, -, -, hqueued⟩ := Store.submit_ok hsubmit
  have hnew : entry.IsNew := ⟨hqueued, hmessages, hresult, herror⟩
  obtain ⟨hwaits, hσ, hafter, -⟩ := Waits.of_submit settings before after hsubmit honce
  -- Since then it has waited, or it was taken by the worker, or it was cancelled in the queue.
  rw [List.append_cons, State.run_append] at hjob
  rcases hwaits.run settings after hσ hafter with
    hstill | ⟨first, second, rfl, -, hmiddle, hpassage⟩ | ⟨haway, -⟩
  · obtain rfl := Option.some.inj (hstill.known.symm.trans hjob)
    exact hnew.coherent
  · rw [State.along_append, List.mem_append, not_or] at hafter
    rw [State.run_append] at hjob
    obtain ⟨found, hfound, hcoherent⟩ :=
      (hpassage.run settings second hmiddle hafter.2).coherent hnew
    obtain rfl := Option.some.inj (hfound.symm.trans hjob)
    exact hcoherent
  · obtain rfl := Option.some.inj (haway.known.symm.trans hjob)
    exact hnew.coherent_cancel

/-- Three requests are submitted, and the second one is cancelled in the queue. The first one buys
once, and the third one has no data. -/
def assorted : List Event :=
  let request := fun id => Event.submit (.object [("job_id", .string id)])
  [.submit (dipRequest "a"), request "b", request "c", .cancel (.string "b")] ++
    List.replicate 13 .work

theorem jobs_coherent_assorted :
    (along {} entering (.opened toString) assorted).Nodup ∧
    ∀ shown ∈ [(Key.text "a", Status.completed), (.text "b", .cancelled), (.text "c", .failed)],
      ∃ job, (State.run {} (.opened toString) assorted).store.job? shown.1 = some job ∧
        job.status = shown.2 ∧ job.Coherent := by
  have hnodup : (along {} entering (.opened toString) assorted).Nodup := by decide +kernel
  refine ⟨hnodup, fun shown hshown => ?_⟩
  have hstatus : ((State.run {} (.opened toString) assorted).store.job? shown.1).map Job.status =
      some shown.2 := by
    revert shown
    decide +kernel
  obtain ⟨job, hjob, hstatus⟩ := Option.map_eq_some_iff.1 hstatus
  exact ⟨job, hjob, hstatus, jobs_coherent {} assorted hnodup shown.1 job hjob⟩

end Jobs

end StrategyGraph
