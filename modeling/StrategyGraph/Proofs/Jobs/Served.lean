import StrategyGraph.Proofs.Jobs.Flag
import StrategyGraph.Proofs.Simulation.Total

/-!
# Jobs come to what the worker replies

A job that nobody cancels comes to what the worker replies to its request, whatever was submitted,
cancelled or served before it, and whatever is submitted or cancelled meanwhile.

* `Passage.replied` : what becomes of a job that is always told to go on;
* `served_as_replied` : **the job comes to the reply.**
-/

namespace StrategyGraph.Jobs

open Worker (Message)

variable {ids : Nat → String} {settings : Settings} {σ : State} {s : Store} {job : Job}
  {request : Json} {given : List Bool}

theorem Job.messages_record (message : Message) :
    (job.record message).messages = job.messages ++ [message] := by
  cases message <;> rfl

theorem Job.statusOf_of_ne {result : Simulation.Result} (h : result.failure ≠ some .cancelled) :
    Job.statusOf result = .completed := by
  unfold statusOf
  split
  · next hfailure => exact absurd hfailure h
  · rfl

/-- A job on its way that was always told to go on, and has come to its end, has come to the
reply. -/
theorem Passage.replied (h : Passage settings job given σ) (hgiven : ∀ stop ∈ given, stop = false)
    (hended : σ.stage.held? ≠ some job.key) (hnew : job.messages = [])
    (hresult : job.result = none) :
    ∃ final message, σ.store.job? job.key = some final ∧
      final.messages = (Worker.transcript settings (.object job.request)).messages ∧
      Worker.reply settings (.object job.request) = some message ∧
      (∀ result, message = .complete result →
        final.status = .completed ∧ final.result = some result ∧
          final.error = result.failure.map .failure) ∧
      (∀ problem, message = .error problem →
        final.status = .failed ∧ final.result = none ∧
          final.error = some (.problem problem)) := by
  obtain ⟨all, outcome, haway, hleads⟩ := h.away hended
  have hmessages := hleads.messages_eq (Routine.answers_never hgiven)
  obtain ⟨sent, last, hlast, hsent, hterminal⟩ :=
    (Worker.serve_reports settings (.object job.request)).exists_last Routine.never 0
  obtain rfl : all = sent ++ [last] := hmessages.symm.trans hlast
  have hfinal : job.start.recordAll (sent ++ [last]) =
      { job.start with messages := sent }.record last := by
    rw [Job.recordAll_report hsent]
    simp [Job.start, hnew]
  have hreply := Worker.reply_eq hmessages hterminal
  refine ⟨_, last, haway.known, ?_, hreply, ?_, ?_⟩
  · rw [hfinal, Job.messages_record]
    exact hmessages.symm
  · rintro result rfl
    rw [hfinal]
    exact ⟨Job.statusOf_of_ne (Worker.reply_not_cancelled hreply), rfl, rfl⟩
  · rintro problem rfl
    rw [hfinal]
    exact ⟨rfl, hresult, rfl⟩

/-- **Jobs come to what the worker replies.** Let a request be submitted, under an id that no other
submission has, and never be cancelled. The worker comes to the end of its job if it is left alone.
When the job has left the queue and the worker is done with it, the messages of the job are those of
serving the request alone, and the last of them is the reply: with a result, the job is completed
with this result and its failure; with a problem, it has failed with this problem. -/
theorem served_as_replied (settings : Settings) (before after : List Event)
    (hsubmit : (State.run settings (.opened ids) before).store.submit request = .ok (job, s))
    (honce : Once ids settings job.key (before ++ .submit request :: after))
    (hnever : ∀ id, .cancel id ∈ after → Key.of? id ≠ some job.key) :
    let σ := State.run settings (.opened ids) (before ++ .submit request :: after)
    (∃ bound, ∀ steps, bound ≤ steps →
      (σ.run settings (List.replicate steps .work)).store.awaits job.key = false ∧
        (σ.run settings (List.replicate steps .work)).stage.held? ≠ some job.key) ∧
    (σ.store.awaits job.key = false → σ.stage.held? ≠ some job.key →
      ∃ final message, σ.store.job? job.key = some final ∧
        final.messages = (Worker.transcript settings request).messages ∧
        Worker.reply settings request = some message ∧
        (∀ result, message = .complete result →
          final.status = .completed ∧ final.result = some result ∧
            final.error = result.failure.map .failure) ∧
        (∀ problem, message = .error problem →
          final.status = .failed ∧ final.result = none ∧
            final.error = some (.problem problem))) := by
  intro σ
  refine ⟨⟨σ.burden settings, fun steps hsteps => ?_⟩, fun hleft hended => ?_⟩
  · obtain ⟨hidle, hwaiting⟩ := State.rests hsteps
    rw [hidle, Store.awaits, hwaiting]
    exact ⟨rfl, fun hheld => by cases hheld⟩
  obtain ⟨rfl, hnew, hresult, -⟩ := Store.submit_new hsubmit
  obtain ⟨hwaits, hsound, hafter, -⟩ := Waits.of_submit settings before after hsubmit honce
  have hσ : σ = (State.run settings (.opened ids)
      (before ++ [.submit (.object job.request)])).run settings after := by
    rw [← State.run_append, ← List.append_cons]
  rw [hσ] at hleft hended ⊢
  rcases hwaits.run settings after hsound hafter with
    hstill | ⟨first, second, rfl, hnone, hsound', hpassage⟩ | ⟨-, id, hid, hkey⟩
  · cases hleft.symm.trans (Store.awaits_iff.2 hstill.waits)
  · have hfalse := answers_false settings (first ++ second) hwaits.unflagged hnever
    rw [State.along_append, hnone] at hfalse
    rw [State.along_append, List.mem_append, not_or] at hafter
    rw [State.run_append] at hended ⊢
    exact (hpassage.run settings second hsound' hafter.2).replied hfalse hended hnew hresult
  · exact absurd hkey (hnever id hid)

/-- A request whose simulation buys once. -/
def dipRequest (id : String) : Json :=
  .object [("job_id", .string id), ("nodes", .array Simulation.dipNodes),
    ("edges", .array Simulation.dipEdges), ("prices", .array [.ofInt 20, .ofInt 10, .ofInt 12])]

/-- The worker has a job when this one is submitted. That one is cancelled, and so is one that waits
behind this one. -/
theorem served_as_replied_busy :
    let request := fun id => Event.submit (.object [("job_id", .string id)])
    let before := [request "b", .work, .cancel (.string "b")]
    let after := [request "c", .cancel (.string "c")] ++ List.replicate 13 .work
    ∃ final result,
      (State.run {} (.opened toString) (before ++ .submit (dipRequest "a") :: after)).store.job?
        (.text "a") = some final ∧
      final.messages = (Worker.transcript {} (dipRequest "a")).messages ∧
      Worker.reply {} (dipRequest "a") = some (.complete result) ∧
      result.trades.length = 1 ∧ final.status = .completed ∧ final.result = some result := by
  intro request before after
  obtain ⟨⟨job, s⟩, hsubmit, hkey⟩ := exists_ok_of_any
    (x := (State.run {} (.opened toString) before).store.submit (dipRequest "a"))
    (p := fun r => r.1.key = .text "a") (by decide +kernel)
  have hkey : job.key = .text "a" := of_decide_eq_true hkey
  have hnever : ∀ id, .cancel id ∈ after → Key.of? id ≠ some job.key := by
    intro id hid
    obtain rfl : id = .string "c" := by simpa [after, request] using hid
    rw [hkey]
    decide
  obtain ⟨-, hall⟩ :=
    served_as_replied {} before after hsubmit (by rw [hkey]; decide +kernel) hnever
  obtain ⟨final, message, hfinal, hmessages, hreply, hcomplete, -⟩ :=
    hall (by rw [hkey]; decide +kernel) (by rw [hkey]; decide +kernel)
  rw [hkey] at hfinal
  have hone : ((Worker.reply {} (dipRequest "a")).bind Message.result?).map
      (fun r => r.trades.length) = some 1 := by decide +kernel
  obtain ⟨result, hresult, htrades⟩ := Option.map_eq_some_iff.1 hone
  rw [hreply, Option.bind_some] at hresult
  obtain rfl := Message.eq_complete hresult
  obtain ⟨hstatus, hresult, -⟩ := hcomplete result rfl
  exact ⟨final, result, hfinal, hmessages, hreply, htrades, hstatus, hresult⟩

end StrategyGraph.Jobs
