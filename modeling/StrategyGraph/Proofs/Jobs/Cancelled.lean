import StrategyGraph.Proofs.Jobs.Apart
import StrategyGraph.Proofs.Jobs.Served

/-!
# Cancelling a job that the worker holds

A job that the worker has taken off the queue is cancelled through a flag, which the job sees when
it asks the next time whether to stop. If it does not ask any more, nothing changes for it; and
nothing changes for any other job.

* `Passage.of_held` : what the worker holds is on its way, and was told to go on some number of
  times and from then on to stop;
* `CancelledAt` : what a cancelled job comes to;
* `cancel_held` : **a job that is cancelled while the worker holds it.**
-/

namespace StrategyGraph.Jobs

open Ledger (endedBefore)
open Routine (stopAfter)
open State (along entering answering)

variable {ids : Nat → String} {settings : Settings} {σ : State} {s : Store} {key : Key} {job : Job}
  {history : List Event}

/-- What happens along events happens in one of them. -/
theorem State.exists_of_mem_along {α : Type} {see : State → Event → Option α} {events : List Event}
    {a : α} (h : a ∈ along settings see σ events) :
    ∃ before e after, events = before ++ e :: after ∧
      see (σ.run settings before) e = some a := by
  induction events generalizing σ with
  | nil => cases h
  | cons e events ih =>
    rcases mem_along_cons.1 h with hnow | hlater
    · exact ⟨[], e, events, rfl, hnow⟩
    · obtain ⟨before, e', after, rfl, hsee⟩ := ih hlater
      exact ⟨e :: before, e', after, rfl, hsee⟩

theorem State.exists_of_entering {e : Event} (h : σ.entering e = some key) :
    ∃ request job s, e = .submit request ∧ σ.store.submit request = .ok (job, s) ∧
      job.key = key := by
  cases e with
  | cancel id | work => cases h
  | submit request =>
    rw [entering] at h
    cases hsubmit : σ.store.submit request with
    | error fault =>
      rw [hsubmit] at h
      cases h
    | ok r =>
      rw [hsubmit] at h
      exact ⟨request, r.1, r.2, rfl, hsubmit, Option.some.inj h⟩

/-- What the worker holds was entered. -/
theorem State.entered_of_held
    (hheld : (State.run settings (.opened ids) history).stage.held? = some key) :
    key ∈ along settings entering (.opened ids) history := by
  by_contra hnew
  obtain ⟨hfresh, -⟩ := (Fresh.start ids key).run (.start ids _) settings history hnew
  rcases Stage.held?_eq_some.1 hheld with htaken | hserved
  · exact hfresh.pending (mem_pending_iff.2 (.inl htaken))
  · exact hfresh.served hserved

/-- **What the worker holds is on its way.** -/
theorem Passage.of_held (honce : Once ids settings key history)
    (hheld : (State.run settings (.opened ids) history).stage.held? = some key) :
    Sound key (State.run settings (.opened ids) history) ∧
      Steady key (along settings (answering key) (.opened ids) history)
        (State.run settings (.opened ids) history) ∧
      ∃ job, job.key = key ∧
        Passage settings job (along settings (answering key) (.opened ids) history)
          (State.run settings (.opened ids) history) := by
  obtain ⟨before, e, between, rfl, hentering⟩ :=
    State.exists_of_mem_along (State.entered_of_held hheld)
  obtain ⟨request, job, s, rfl, hsubmit, rfl⟩ := State.exists_of_entering hentering
  obtain ⟨hwaits, hσ, hbetween, hnone⟩ := Waits.of_submit settings before between hsubmit honce
  rw [List.append_cons, State.run_append] at hheld ⊢
  rw [State.along_append, hnone, List.nil_append]
  have hend := hσ.run settings between hbetween
  rcases hwaits.run settings between hσ hbetween with
    hstill | ⟨first, second, rfl, hfirst, hmiddle, hpassage⟩ | ⟨haway, -⟩
  · exact absurd hstill.waits (hend.not_waiting hheld)
  · rw [State.along_append, List.mem_append, not_or] at hbetween
    rw [State.run_append] at hend
    rw [State.along_append, hfirst, List.nil_append, State.run_append]
    exact ⟨hend, (Steady.start _ _).run hmiddle second hbetween.2, job, rfl,
      hpassage.run settings second hmiddle hbetween.2⟩
  · exact absurd hheld haway.not_held

/-! ### Cancelling what the worker holds -/

/-- The job is cancelled after it has asked a number of times whether to stop. Its result begins
like the one in the reply to its request. -/
structure CancelledAt (settings : Settings) (asked : Nat) (job : Job) : Prop where
  status : job.status = .cancelled
  error : job.error.map Trouble.message = some "Simulation cancelled"
  result : ∃ result, job.result = some result ∧
    ∀ full, Worker.reply settings (.object job.request) = some (.complete full) →
      result.equity = full.equity.take asked ∧ result.trades = endedBefore asked full.trades

theorem answers_stopAfter (going stopping : Nat) :
    Routine.Answers (stopAfter going)
      (List.replicate going false ++ List.replicate stopping true) := by
  intro i stop hi
  rw [List.getElem?_append, List.length_replicate] at hi
  split at hi
  · next hlt =>
    rw [List.getElem?_replicate_of_lt hlt] at hi
    exact (decide_eq_false (Nat.not_le.2 hlt)).trans (Option.some.inj hi)
  · next hge =>
    obtain ⟨-, rfl⟩ := List.mem_replicate.1 (List.mem_of_getElem? hi)
    exact decide_eq_true (Nat.not_lt.1 hge)

/-- A job on its way that was told to stop, and has come to its end, is cancelled. -/
theorem Passage.cancelledAt {going stopping : Nat} (hstopping : 0 < stopping)
    (h : Passage settings job (List.replicate going false ++ List.replicate stopping true) σ)
    (hheld : σ.stage.held? ≠ some job.key) :
    stopping = 1 ∧ ∃ final, σ.store.job? job.key = some final ∧
      CancelledAt settings going final := by
  obtain ⟨all, outcome, haway, hleads⟩ := h.away hheld
  have hmessages := hleads.messages_eq (answers_stopAfter going stopping)
  have hquestions := hleads.questions_eq (answers_stopAfter going stopping)
  rw [List.length_append, List.length_replicate, List.length_replicate] at hquestions
  rcases Worker.serve_stopped settings (.object job.request) going with
    hless | ⟨hcount, sent, result, hlast, hsent, hfailure, hbegins⟩
  · omega
  · obtain rfl : all = sent ++ [.complete result] := hmessages.symm.trans hlast
    have hrequest : (job.start.recordAll (sent ++ [.complete result])).request = job.request :=
      Job.request_recordAll _
    have hfinal := haway.known
    rw [Job.recordAll_report hsent] at hrequest hfinal
    refine ⟨by omega, _, hfinal, ?_, ?_, result, rfl, ?_⟩
    · show Job.statusOf result = .cancelled
      rw [Job.statusOf, hfailure]
    · show (result.failure.map Trouble.failure).map Trouble.message = _
      rw [hfailure]
      rfl
    · rw [hrequest]
      exact hbegins

/-- A job that has come to its end comes to the same, whatever else it would have been
answered. -/
theorem Passage.job?_eq {σ' : State} {given more : List Bool} (h : Passage settings job given σ)
    (h' : Passage settings job (given ++ more) σ') (hended : σ.stage.held? ≠ some job.key)
    (hended' : σ'.stage.held? ≠ some job.key) :
    σ'.store.job? job.key = σ.store.job? job.key := by
  obtain ⟨sent, outcome, haway, hleads⟩ := h.away hended
  obtain ⟨sent', outcome', haway', hleads'⟩ := h'.away hended'
  obtain ⟨answers, hanswers⟩ := Routine.exists_answers (given ++ more)
  have hsent := (hleads.messages_eq hanswers.of_append).symm.trans (hleads'.messages_eq hanswers)
  rw [haway.known, haway'.known, hsent]

theorem Sound.next_cancel (h : Sound key σ) {id : Json}
    (hid : Key.of? id = some key) (hheld : σ.stage.held? = some key)
    (hcancel : σ.store.cancel id = .ok (true, s)) :
    σ.next settings (.cancel id) = { σ with store := σ.store.flag ⟨id, key⟩ } := by
  have haway : σ.store.awaits key = false := by
    rw [← Bool.not_eq_true, Store.awaits_iff]
    exact h.not_waiting hheld
  have hgranted : σ.store.cancelTicket ⟨id, key⟩ = (true, s) :=
    Except.ok.inj ((Store.cancel_of_key hid).symm.trans hcancel)
  have hflag : s = σ.store.flag ⟨id, key⟩ := by
    cases hjob : σ.store.job? key with
    | none => simp [Store.cancelTicket, hjob] at hgranted
    | some job =>
      cases hfinal : job.status.isFinal with
      | true => simp [Store.cancelTicket, hjob, hfinal] at hgranted
      | false => simpa [Store.cancelTicket, hjob, hfinal, haway, eq_comm] using hgranted
  rw [State.next, hcancel]
  dsimp only
  rw [hflag]

/-- **A job that is cancelled while the worker holds it.** Let the worker hold a job whose id no
other submission has, and let a cancellation of it be granted. Then the worker comes to the end of
the job if it takes enough steps. When it has,

* the job is cancelled if it asked after the cancellation whether to stop, and its result consists
  of the bars before that question;
* if it did not, it comes to the same as without the cancellation, whatever happens else;
* its flag is gone;
* all other jobs come to the same as without the cancellation, if the same is submitted and
  cancelled until the worker comes to the end of the job, and the same happens after that. -/
theorem cancel_held (settings : Settings) (history : List Event) {id : Json}
    (honce : Once ids settings key history) (hid : Key.of? id = some key)
    (hheld : (State.run settings (.opened ids) history).stage.held? = some key)
    (hjob : (State.run settings (.opened ids) history).store.job? key = some job)
    (hcancel : (State.run settings (.opened ids) history).store.cancel id = .ok (true, s)) :
    let σ := State.run settings (.opened ids) history
    let called := σ.next settings (.cancel id)
    (∃ steps, ∀ rest, Once ids settings key (history ++ rest) →
      steps ≤ (rest.filter Event.isWork).length → (σ.run settings rest).stage.held? ≠ some key) ∧
    ∀ rest, Once ids settings key (history ++ .cancel id :: rest) →
      (called.run settings rest).stage.held? ≠ some key →
      ∃ final, (called.run settings rest).store.job? key = some final ∧
        final.request = job.request ∧
        (along settings (answering key) called rest ≠ [] →
          CancelledAt settings (along settings (answering key) (.opened ids) history).length
            final) ∧
        (along settings (answering key) called rest = [] →
          ∀ rest', Once ids settings key (history ++ rest') →
            (σ.run settings rest').stage.held? ≠ some key →
            (σ.run settings rest').store.job? key = some final) ∧
        (called.run settings rest).store.isFlagged key = false ∧
        ∀ during after during', rest = during ++ after → called.Finishes settings key during →
          σ.Finishes settings key during' → Event.calls during' = Event.calls during →
          Once ids settings key (history ++ (during' ++ after)) →
          ∀ other, other ≠ key → (called.run settings rest).store.job? other =
            (σ.run settings (during' ++ after)).store.job? other := by
  intro σ called
  have hentered := State.entered_of_held hheld
  obtain ⟨hσ, hsteady, entry, rfl, hpassage⟩ := Passage.of_held honce hheld
  refine ⟨⟨σ.stage.load (σ.store.effort settings), fun rest hrest hload => ?_⟩,
    fun rest hrest hended => ?_⟩
  · exact hpassage.ends hσ rest (hrest.not_mem hentered) hload
  have hnew : entry.key ∉ along settings entering called rest := hrest.not_mem hentered
  have hcalled : called = { σ with store := σ.store.flag ⟨id, entry.key⟩ } :=
    hσ.next_cancel hid hheld hcancel
  have hcancelling : σ.entering (.cancel id) ≠ some entry.key := fun hentering => by cases hentering
  have hτ : Sound entry.key called := hσ.next_of_ne settings hcancelling
  have hon : Passage settings entry (along settings (answering entry.key) (.opened ids) history)
      called := by
    have hnext := hpassage.next hσ (.cancel id) hcancelling
    rwa [State.answering, Option.toList_none, List.append_nil] at hnext
  have hheld' : called.stage.held? = some entry.key := hcalled ▸ hheld
  have hdoomed : Doomed entry.key called :=
    ⟨hτ.not_waiting hheld', fun _ => hcalled ▸ Store.isFlagged_flag.2 (.inr rfl)⟩
  have hpast := hon.run settings rest hτ hnew
  obtain ⟨sent, outcome, haway, hleads⟩ := hpast.away hended
  refine ⟨_, haway.known, ?_, fun hasks => ?_, fun hasks rest' hrest' hended' => ?_,
    haway.unflagged, ?_⟩
  · rw [hpast.request_eq haway.known, hpassage.request_eq hjob]
  · have hstops := List.eq_replicate_of_mem (hdoomed.answers hτ rest hnew)
    obtain ⟨going, stopping, hbefore, -⟩ := hsteady
    rw [hstops, hbefore, List.append_assoc, List.replicate_append_replicate] at hpast
    have hpos := List.length_pos_iff.2 hasks
    obtain ⟨hone, final, hfinal, hcancelled⟩ := hpast.cancelledAt (by omega) hended
    obtain rfl : stopping = 0 := by omega
    rw [hbefore, List.length_append, List.length_replicate, List.length_replicate]
    cases haway.known.symm.trans hfinal
    exact hcancelled
  · -- The answers before the cancellation are all that the job is given.
    rw [hasks, List.append_nil] at hpast
    have hpast' := hpassage.run settings rest' hσ (hrest'.not_mem hentered)
    exact (hpast.job?_eq hpast' hended hended').trans haway.known
  · rintro during after during' rfl hfinishes hfinishes' hcalls hrest' other hother
    have hnew' := hrest'.not_mem hentered
    rw [State.along_append, List.mem_append, not_or] at hnew hnew'
    have hbase : σ.store.Apart entry.key called.store := by
      rw [hcalled]
      exact (Store.Apart.refl (hσ.not_waiting hheld)).flag_right rfl
    have hapart := State.Apart.of_finishes hbase hσ hτ hheld hheld' hfinishes' hfinishes hcalls
      hnew'.1 hnew.1
    rw [State.run_append, State.run_append]
    exact (hapart.run settings after hnew'.2).store.jobs other hother

/-- A job that buys once is cancelled before its second bar, and another one waits. The first one
comes to the beginning of the reply, and the second one to the same as without the cancellation. -/
theorem cancel_held_dip :
    let history :=
      [.submit (dipRequest "a"), .submit (.object [("job_id", .string "b")])] ++
        List.replicate 5 Event.work
    let σ := State.run {} (.opened toString) history
    let called := σ.next {} (.cancel (.string "a"))
    let other := List.replicate 4 Event.work
    ∃ final full result,
      (called.run {} (List.replicate 4 .work ++ other)).store.job? (.text "a") = some final ∧
      final.status = .cancelled ∧ final.result = some result ∧
      Worker.reply {} (dipRequest "a") = some (.complete full) ∧
      full.equity.length = 3 ∧ result.equity = full.equity.take 1 ∧
      (called.run {} (List.replicate 4 .work ++ other)).store.job? (.text "b") =
        (σ.run {} (List.replicate 5 .work ++ other)).store.job? (.text "b") := by
  intro history σ called other
  have hknown : (σ.store.job? (.text "a")).map (fun job => Json.object job.request) =
      some (dipRequest "a") := by rfl
  obtain ⟨job, hjob, hrequest⟩ := Option.map_eq_some_iff.1 hknown
  obtain ⟨⟨granted, s⟩, hcancel, hgranted⟩ := exists_ok_of_any
    (x := σ.store.cancel (.string "a")) (p := Prod.fst) (by decide +kernel)
  obtain rfl : granted = true := hgranted
  obtain ⟨-, hall⟩ := cancel_held {} history (by decide +kernel) (by rfl) (by decide +kernel) hjob
    hcancel
  obtain ⟨final, hfinal, hsame, hcancelled, -, -, hothers⟩ :=
    hall (List.replicate 4 .work ++ other) (by decide +kernel) (by decide +kernel)
  obtain ⟨hstatus, -, result, hresult, hbegins⟩ := hcancelled (by decide +kernel)
  have hasked : (along {} (answering (.text "a")) (.opened toString) history).length = 1 := by
    decide +kernel
  have hthree : ((Worker.reply {} (dipRequest "a")).bind Worker.Message.result?).map
      (fun r => r.equity.length) = some 3 := by decide +kernel
  obtain ⟨full, hfull, hlength⟩ := Option.map_eq_some_iff.1 hthree
  obtain ⟨message, hreply, hmessage⟩ := Option.bind_eq_some_iff.1 hfull
  obtain rfl := Worker.Message.eq_complete hmessage
  rw [hsame, hrequest, hasked] at hbegins
  refine ⟨final, full, result, hfinal, hstatus, hresult, hreply, hlength, (hbegins full hreply).1,
    ?_⟩
  exact hothers _ other (List.replicate 5 .work) rfl (by decide +kernel) (by decide +kernel)
    (by rfl) (by decide +kernel) _ (by decide)

end StrategyGraph.Jobs
