import StrategyGraph.Proofs.Jobs.Events
import StrategyGraph.Proofs.Worker.Report

/-!
# The life of a job

In whatever order jobs are submitted, cancelled and served, no job is lost, none is served twice,
and none is served after it was cancelled in the queue.

* `Accounted` : where the jobs of a state are;
* `Tracked` : the invariant, which ties the jobs, the queue, the flags and the worker to what has
  happened before. `Tracked.next` is its step and `Tracked.run` its run;
* `lifecycle` : **the life of all jobs.**
-/

namespace StrategyGraph.Jobs

open Worker (Message Reports)

/-! ### The invariant -/

/-- What the worker serves was started. The job runs until its last message is sent. -/
def Serves (started : List Key) (s : Store) : Stage → Prop
  | .idle | .taken _ => True
  | .serving t number rest =>
    t.key ∈ started ∧ ∃ job, s.job? t.key = some job ∧ job.number = number ∧
      (job.status = .running ∧ Reports rest ∨ job.status.isFinal = true ∧ rest = .done (.ok ()))

/-- A state after jobs with some keys were entered, some of them started and some withdrawn from the
queue. -/
structure Tracked (entered started withdrawn : List Key) (σ : State) : Prop where
  /-- The keys are distinct. -/
  nodup : entered.Nodup
  /-- All submissions are counted. -/
  submitted : σ.store.submitted = entered.length
  /-- What was entered is known. -/
  known : ∀ key ∈ entered, ∃ job, σ.store.job? key = some job
  /-- Jobs are numbered in the order in which they were entered. -/
  numbered : ∀ key job, σ.store.job? key = some job → entered[job.number]? = some key
  /-- What was started and what is still to be started stands in this order, too. -/
  order : (started ++ σ.pending).Sublist entered
  /-- What was withdrawn was not started and will not be. -/
  withdrawn : ∀ key ∈ withdrawn, key ∈ entered ∧ key ∉ started ++ σ.pending
  /-- What is still to be started is queued. -/
  queued : ∀ key job, σ.store.job? key = some job → key ∈ σ.pending → job.status = .queued
  /-- The worker serves what was started. -/
  serves : Serves started σ.store σ.stage
  /-- All else has come to its end. -/
  settled : ∀ key job, σ.store.job? key = some job → key ∉ σ.pending →
    σ.stage.served? ≠ some key → job.status.isFinal = true
  /-- Only what the worker holds is flagged. -/
  flagged : ∀ t ∈ σ.store.stopping, σ.stage.held? = some t.key

namespace Tracked

variable {entered started withdrawn : List Key} {σ : State} {s : Store} {stage : Stage}
  {key : Key} {job job' : Job} {change : Job → Job} {t : Ticket} {number : Nat}
  {rest : Routine Message Unit} {settings : Settings}

theorem start (ids : Nat → String) : Tracked [] [] [] (.opened ids) where
  nodup := .nil
  submitted := rfl
  known := by simp
  numbered _ _ h := by cases h
  order := .refl _
  withdrawn := by simp
  queued _ _ h := by cases h
  serves := trivial
  settled _ _ h := by cases h
  flagged := by simp [State.opened, Store.opened]

section

variable (h : Tracked entered started withdrawn σ)
include h

theorem nodup_pending : (started ++ σ.pending).Nodup := h.nodup.sublist h.order

theorem not_mem_started (hkey : key ∈ σ.pending) : key ∉ started := fun hstarted =>
  (List.nodup_append.1 h.nodup_pending).2.2 key hstarted key hkey rfl

theorem entered_of_pending (hkey : key ∈ σ.pending) : key ∈ entered :=
  h.order.subset (List.mem_append_right _ hkey)

theorem store_numbered : σ.store.Numbered where
  below key job hjob := h.submitted ▸ (List.getElem?_eq_some_iff.1 (h.numbered key job hjob)).1
  distinct key key' job job' hjob hjob' heq := by
    have hkey := h.numbered key job hjob
    rw [heq, h.numbered key' job' hjob'] at hkey
    exact (Option.some.inj hkey).symm

theorem sets_update (hjob : σ.store.job? key = some job)
    (hchange : ∀ job, (change job).key = job.key) :
    σ.store.Sets (σ.store.update job.number change) key (change job) :=
  h.store_numbered.sets_update hjob hchange

/-! A job that changes without its number is as known as before. -/

theorem known_of_sets (hsets : σ.store.Sets s key job') :
    ∀ other ∈ entered, ∃ found, s.job? other = some found := by
  intro other hentered
  by_cases hother : other = key
  · exact ⟨job', hother ▸ hsets.self⟩
  · obtain ⟨found, hfound⟩ := h.known other hentered
    exact ⟨found, (hsets.of_ne hother).trans hfound⟩

theorem numbered_of_sets (hjob : σ.store.job? key = some job) (hsets : σ.store.Sets s key job')
    (hnumber : job'.number = job.number) :
    ∀ other found, s.job? other = some found → entered[found.number]? = some other := by
  intro other found hfound
  rcases hsets.cases hfound with ⟨rfl, rfl⟩ | ⟨-, hbefore⟩
  · exact hnumber ▸ h.numbered other job hjob
  · exact h.numbered other found hbefore

/-- Setting a job that the worker does not serve leaves what it serves. -/
theorem serves_of_sets (hsets : σ.store.Sets s key job') (hkey : key ∉ started) :
    Serves started s σ.stage := by
  obtain ⟨store, stage⟩ := σ
  cases stage with
  | idle | taken t => trivial
  | serving t number rest =>
    obtain ⟨hstarted, found, hfound, hserved⟩ := h.serves
    have hother : t.key ≠ key := fun heq => hkey (heq ▸ hstarted)
    exact ⟨hstarted, found, (hsets.of_ne hother).trans hfound, hserved⟩

/-! ### Submitting and cancelling -/

theorem submit {request : Json} (hsubmit : σ.store.submit request = .ok (job, s))
    (hnodup : (entered ++ [job.key]).Nodup) :
    Tracked (entered ++ [job.key]) started withdrawn { σ with store := s } ∧
      Progress σ.store s := by
  obtain ⟨hwaiting, hstopping, hsubmitted, hsets, hnumber, hstatus⟩ := Store.submit_ok hsubmit
  have hnew : job.key ∉ entered := fun hkey =>
    (List.nodup_append.1 hnodup).2.2 _ hkey _ (List.mem_singleton_self _) rfl
  have hnone : σ.store.job? job.key = none := by
    cases hfound : σ.store.job? job.key with
    | none => rfl
    | some found => exact absurd (List.mem_of_getElem? (h.numbered _ _ hfound)) hnew
  have hpending : State.pending { σ with store := s } = σ.pending ++ [job.key] := by
    simp only [State.pending, hwaiting, List.map_append, List.append_assoc]
    rfl
  have hpast : ∀ key ∈ entered, key ∉ started ++ σ.pending →
      key ∉ started ++ (σ.pending ++ [job.key]) := by
    intro key hentered hpast
    rw [← List.append_assoc, List.mem_append, not_or]
    exact ⟨hpast, fun heq => hnew (List.mem_singleton.1 heq ▸ hentered)⟩
  refine ⟨?_, .of_new hnone hsets hstatus⟩
  refine
    { nodup := hnodup, submitted := ?_, known := ?_, numbered := ?_, order := ?_, withdrawn := ?_
      queued := ?_, serves := ?_, settled := ?_, flagged := hstopping ▸ h.flagged }
  · simp [hsubmitted, h.submitted]
  · intro key hkey
    rcases List.mem_append.1 hkey with hentered | hkey
    · exact h.known_of_sets hsets key hentered
    · exact ⟨job, List.mem_singleton.1 hkey ▸ hsets.self⟩
  · intro key found hfound
    rcases hsets.cases hfound with ⟨rfl, rfl⟩ | ⟨-, hbefore⟩
    · rw [hnumber, h.submitted, List.getElem?_concat_length]
    · have hkey := h.numbered key found hbefore
      rw [List.getElem?_append_left (List.getElem?_eq_some_iff.1 hkey).1, hkey]
  · rw [hpending, ← List.append_assoc]
    exact h.order.append (.refl _)
  · intro key hkey
    obtain ⟨hentered, hkey⟩ := h.withdrawn key hkey
    exact ⟨List.mem_append_left _ hentered, hpending ▸ hpast key hentered hkey⟩
  · intro key found hfound hkey
    rcases hsets.cases hfound with ⟨-, rfl⟩ | ⟨hother, hbefore⟩
    · exact hstatus
    · exact h.queued key found hbefore (by simpa [hpending, hother] using hkey)
  · refine h.serves_of_sets hsets fun hstarted => hnew ?_
    exact h.order.subset (List.mem_append_left _ hstarted)
  · intro key found hfound hkey hserved
    rw [hpending, List.mem_append, List.mem_singleton, not_or] at hkey
    rcases hsets.cases hfound with ⟨heq, -⟩ | ⟨-, hbefore⟩
    · exact absurd heq hkey.2
    · exact h.settled key found hbefore hkey.1 hserved

/-- A job that waits is withdrawn: it leaves the queue and comes to its end. -/
theorem withdraw (hjob : σ.store.job? t.key = some job)
    (hawaits : t.key ∈ σ.store.waiting.map Ticket.key) :
    Tracked entered started (withdrawn ++ [t.key])
        { σ with store := (σ.store.unqueue t.key).update job.number Job.cancel } ∧
      Progress σ.store ((σ.store.unqueue t.key).update job.number Job.cancel) := by
  -- No key is pending twice: the worker has not taken this one, and nothing of it stays behind.
  have hkey : t.key ∈ σ.pending := List.mem_append_right _ hawaits
  have hsets : σ.store.Sets ((σ.store.unqueue t.key).update job.number Job.cancel) t.key
      job.cancel := h.sets_update hjob fun _ => rfl
  have hdistinct : σ.pending.Nodup := (List.nodup_append.1 h.nodup_pending).2.1
  have hpending : State.pending
      { σ with store := (σ.store.unqueue t.key).update job.number Job.cancel } =
        σ.pending.erase t.key := by
    have htaken : t.key ∉ σ.stage.taken?.toList := fun htaken =>
      (List.nodup_append.1 hdistinct).2.2 _ htaken _ hawaits rfl
    rw [State.pending, State.pending, List.erase_append_right _ htaken, ← Store.waiting_unqueue]
    rfl
  have hmem : ∀ other, other ∈ σ.pending.erase t.key ↔ other ≠ t.key ∧ other ∈ σ.pending :=
    fun other => hdistinct.mem_erase_iff
  refine ⟨?_, .of_change hjob hsets (h.queued t.key job hjob hkey ▸ .withdraws)⟩
  refine
    { nodup := h.nodup, submitted := h.submitted, known := h.known_of_sets hsets
      numbered := h.numbered_of_sets hjob hsets rfl, order := ?_, withdrawn := ?_, queued := ?_
      serves := h.serves_of_sets hsets (h.not_mem_started hkey), settled := ?_
      flagged := h.flagged }
  · rw [hpending]
    exact ((List.Sublist.refl started).append List.erase_sublist).trans h.order
  · intro key hwithdrawn
    rw [hpending, List.mem_append, hmem]
    rcases List.mem_append.1 hwithdrawn with hbefore | hnow
    · obtain ⟨hentered, hpast⟩ := h.withdrawn key hbefore
      rw [List.mem_append, not_or] at hpast
      exact ⟨hentered, by simp [hpast]⟩
    · obtain rfl := List.mem_singleton.1 hnow
      exact ⟨h.entered_of_pending hkey, by simp [h.not_mem_started hkey]⟩
  · intro key found hfound hwaits
    rw [hpending, hmem] at hwaits
    exact h.queued key found ((hsets.of_ne hwaits.1).symm.trans hfound) hwaits.2
  · intro key found hfound hwaits hserved
    rw [hpending, hmem] at hwaits
    rcases hsets.cases hfound with ⟨-, rfl⟩ | ⟨hother, hbefore⟩
    · rfl
    · exact h.settled key found hbefore (fun hkey => hwaits ⟨hother, hkey⟩) hserved

/-- A job that has not come to its end and does not wait is held by the worker. -/
theorem held (hjob : σ.store.job? key = some job) (hfinal : job.status.isFinal = false)
    (hawaits : key ∉ σ.store.waiting.map Ticket.key) : σ.stage.held? = some key := by
  rw [Stage.held?_eq_some]
  by_cases hkey : key ∈ σ.pending
  · exact .inl (by simpa [State.pending, hawaits] using hkey)
  · refine .inr (Decidable.byContradiction fun hserved => ?_)
    rw [h.settled key job hjob hkey hserved] at hfinal
    cases hfinal

theorem flag (hheld : σ.stage.held? = some t.key) :
    Tracked entered started withdrawn { σ with store := σ.store.flag t } ∧
      Progress σ.store (σ.store.flag t) := by
  unfold Store.flag
  split
  · exact ⟨h, .of_eq rfl⟩
  · refine ⟨{ h with flagged := fun u hu => ?_ }, .of_eq rfl⟩
    rcases List.mem_append.1 hu with hu | hu
    · exact h.flagged u hu
    · rw [List.mem_singleton.1 hu, hheld]

theorem cancelTicket (t : Ticket) :
    Tracked entered started (withdrawn ++ ((some t.key).filter σ.store.awaits).toList)
        { σ with store := (σ.store.cancelTicket t).2 } ∧
      Progress σ.store (σ.store.cancelTicket t).2 := by
  cases hawaits : σ.store.awaits t.key with
  | true =>
    -- What waits is queued, so a cancellation is not refused because the job is at its end.
    have hwaiting := Store.awaits_iff.1 hawaits
    have hkey : t.key ∈ σ.pending := List.mem_append_right _ hwaiting
    obtain ⟨job, hjob⟩ := h.known t.key (h.entered_of_pending hkey)
    have hstatus := h.queued t.key job hjob hkey
    rw [Option.filter_some_pos hawaits, Store.cancelTicket_of_awaits hjob (hstatus ▸ rfl) hawaits]
    exact h.withdraw hjob hwaiting
  | false =>
    have hwaiting : t.key ∉ σ.store.waiting.map Ticket.key := fun hwaiting => by
      simp [Store.awaits_iff.2 hwaiting] at hawaits
    rw [Option.filter_some_neg (by simpa using hawaits), Option.toList_none, List.append_nil]
    rcases Store.cancelTicket_of_not_awaits hawaits with hsame | ⟨job, hjob, hfinal, hflag⟩
    · rw [hsame]
      exact ⟨h, .of_eq rfl⟩
    · rw [hflag]
      exact h.flag (h.held hjob hfinal hwaiting)

end

/-! ### Steps of the worker -/

theorem take (h : Tracked entered started withdrawn ⟨s, .idle⟩) {waiting : List Ticket}
    (hwaiting : s.waiting = t :: waiting) :
    Tracked entered started withdrawn ⟨{ s with waiting := waiting }, .taken t⟩ := by
  have hpending : State.pending ⟨{ s with waiting := waiting }, .taken t⟩ =
      State.pending ⟨s, .idle⟩ := by
    simp [State.pending, Stage.taken?, hwaiting]
  refine
    { h with
      order := hpending ▸ h.order, withdrawn := hpending ▸ h.withdrawn
      queued := hpending ▸ h.queued, settled := hpending ▸ h.settled
      flagged := fun u hu => ?_ }
  cases h.flagged u hu

theorem begin (h : Tracked entered started withdrawn ⟨s, .taken t⟩)
    (hjob : s.job? t.key = some job) (hreports : Reports rest) :
    Tracked entered (started ++ [t.key]) withdrawn
        ⟨s.start job.number, .serving t job.number rest⟩ ∧
      Progress s (s.start job.number) := by
  have hsets : s.Sets (s.start job.number) t.key job.start := h.sets_update hjob fun _ => rfl
  -- The key goes over from the pending ones to the started ones, whose order stays the same.
  have hpending : State.pending ⟨s, .taken t⟩ = t.key :: s.waiting.map Ticket.key := rfl
  have hall : started ++ [t.key] ++ s.waiting.map Ticket.key =
      started ++ State.pending ⟨s, .taken t⟩ := by
    rw [hpending, List.append_assoc, List.singleton_append]
  have hdistinct := (List.nodup_append.1 h.nodup_pending).2.1
  rw [hpending, List.nodup_cons] at hdistinct
  refine ⟨?_, .of_change hjob hsets (h.queued t.key job hjob List.mem_cons_self ▸ .starts)⟩
  refine
    { nodup := h.nodup, submitted := h.submitted, known := h.known_of_sets hsets
      numbered := h.numbered_of_sets hjob hsets rfl, order := ?_, withdrawn := ?_, queued := ?_
      serves := ?_, settled := ?_, flagged := h.flagged }
  · exact hall ▸ h.order
  · intro key hkey
    obtain ⟨hentered, hpast⟩ := h.withdrawn key hkey
    exact ⟨hentered, hall ▸ hpast⟩
  · intro key found hfound hkey
    have hother : key ≠ t.key := fun heq => hdistinct.1 (heq ▸ hkey)
    exact h.queued key found ((hsets.of_ne hother).symm.trans hfound) (List.mem_cons_of_mem _ hkey)
  · exact ⟨List.mem_append_right _ (List.mem_singleton_self _), job.start, hsets.self, rfl,
      .inl ⟨rfl, hreports⟩⟩
  · intro key found hfound hkey hserved
    have hother : key ≠ t.key := fun heq => hserved (heq ▸ rfl)
    refine h.settled key found ((hsets.of_ne hother).symm.trans hfound) ?_ (by simp [Stage.served?])
    exact List.not_mem_cons_of_ne_of_not_mem hother hkey

theorem goOn (h : Tracked entered started withdrawn ⟨s, .serving t number rest⟩)
    {rest' : Routine Message Unit} (hrest : rest ≠ .done (.ok ()))
    (hreports : Reports rest → Reports rest') :
    Tracked entered started withdrawn ⟨s, .serving t number rest'⟩ := by
  obtain ⟨hstarted, job, hjob, hnumber, ⟨hrunning, hrest'⟩ | ⟨-, hdone⟩⟩ := h.serves
  · exact { h with serves := ⟨hstarted, job, hjob, hnumber, .inl ⟨hrunning, hreports hrest'⟩⟩ }
  · exact absurd hdone hrest

theorem send {message : Message}
    (h : Tracked entered started withdrawn ⟨s, .serving t number (.send message rest)⟩) :
    Tracked entered started withdrawn ⟨s.record number message, .serving t number rest⟩ ∧
      Progress s (s.record number message) := by
  -- There is a message to send, so the last one was not sent yet and the job is running.
  obtain ⟨hstarted, job, hjob, rfl, hserved⟩ := h.serves
  obtain ⟨hrunning, hreports⟩ := hserved.resolve_right fun hover => by cases hover.2
  have hsets : s.Sets (s.record job.number message) t.key (job.record message) :=
    h.sets_update hjob fun job => job.key_record message
  have hstatus : (job.record message).status = .running ∧ Reports rest ∨
      (job.record message).status.isFinal = true ∧ rest = .done (.ok ()) := by
    cases hreports with
    | send hmessage hrest => exact .inl ⟨(job.status_record hmessage).trans hrunning, hrest⟩
    | last hmessage => exact .inr ⟨job.isFinal_record hmessage, rfl⟩
  have hmoves : Moves job.status (job.record message).status := by
    rw [hrunning]
    rcases hstatus with ⟨hstatus, -⟩ | ⟨hstatus, -⟩
    · exact hstatus ▸ .stays _
    · exact .ends hstatus
  refine ⟨?_, .of_change hjob hsets hmoves⟩
  refine
    { h with
      known := h.known_of_sets hsets
      numbered := h.numbered_of_sets hjob hsets (job.number_record message), queued := ?_
      serves := ⟨hstarted, job.record message, hsets.self, job.number_record message, hstatus⟩
      settled := ?_ }
  · intro key found hfound hkey
    have hother : key ≠ t.key := fun heq => h.not_mem_started hkey (heq ▸ hstarted)
    exact h.queued key found ((hsets.of_ne hother).symm.trans hfound) hkey
  · intro key found hfound hkey hserved
    have hother : key ≠ t.key := fun heq => hserved (heq ▸ rfl)
    exact h.settled key found ((hsets.of_ne hother).symm.trans hfound) hkey hserved

theorem release (h : Tracked entered started withdrawn ⟨s, .serving t number (.done (.ok ()))⟩) :
    Tracked entered started withdrawn ⟨s.release t.key, .idle⟩ := by
  -- A routine that still has to report does not end here, so the job is at its end.
  obtain ⟨-, job, hjob, -, ⟨-, hreports⟩ | ⟨hfinal, -⟩⟩ := h.serves
  · cases hreports
  refine { h with serves := trivial, settled := ?_, flagged := ?_ }
  · intro key found hfound hkey _
    by_cases heq : key = t.key
    · subst heq
      cases hjob.symm.trans hfound
      exact hfinal
    · exact h.settled key found hfound hkey fun hserved => heq (Option.some.inj hserved).symm
  · intro u hu
    obtain ⟨hbefore, hother⟩ := Store.mem_unflag.1 hu
    exact absurd (Option.some.inj (h.flagged u hbefore)).symm hother

theorem work (h : Tracked entered started withdrawn σ) :
    Tracked entered (started ++ (σ.starting .work).toList) withdrawn (σ.next settings .work) ∧
      Progress σ.store (σ.next settings .work).store := by
  have hnone : σ.stage.taken? = none → started ++ (σ.starting .work).toList = started := fun h => by
    rw [State.starting, h, Option.filter_none, Option.toList_none, List.append_nil]
  have hworks := σ.works settings
  generalize σ.next settings .work = σ' at hworks
  cases hworks with
  | rest => exact ⟨(hnone rfl).symm ▸ h, .of_eq rfl⟩
  | take hwaiting => exact ⟨(hnone rfl).symm ▸ h.take hwaiting, .of_eq rfl⟩
  | @start s t job hjob =>
    have hstarting : State.starting ⟨s, .taken t⟩ .work = some t.key := by
      simp [State.starting, Stage.taken?, hjob]
    rw [hstarting]
    exact h.begin hjob (Worker.serve_reports settings _)
  | drop hunknown =>
    obtain ⟨job, hjob⟩ := h.known _ (h.entered_of_pending List.mem_cons_self)
    cases hunknown.symm.trans hjob
  | say =>
    refine ⟨(hnone rfl).symm ▸ h.goOn (fun hdone => by cases hdone) fun hreports => ?_, .of_eq rfl⟩
    cases hreports with
    | say hrest => exact hrest
  | check =>
    refine ⟨(hnone rfl).symm ▸ h.goOn (fun hdone => by cases hdone) fun hreports => ?_, .of_eq rfl⟩
    cases hreports with
    | check hrest => exact hrest _
  | send => exact (hnone rfl).symm ▸ h.send
  | release =>
    obtain ⟨-, job, -, -, ⟨-, hreports⟩ | ⟨-, hdone⟩⟩ := h.serves
    · cases hreports
    · cases hdone
      exact ⟨(hnone rfl).symm ▸ h.release, .of_eq rfl⟩

/-! ### Runs -/

/-- **The invariant is kept by every event**, and all jobs go one of their ways. -/
theorem next (h : Tracked entered started withdrawn σ) (settings : Settings) (e : Event)
    (hnodup : (entered ++ (σ.entering e).toList).Nodup) :
    Tracked (entered ++ (σ.entering e).toList) (started ++ (σ.starting e).toList)
        (withdrawn ++ (σ.withdrawing e).toList) (σ.next settings e) ∧
      Progress σ.store (σ.next settings e).store := by
  cases e with
  | submit request =>
    cases hsubmit : σ.store.submit request with
    | error fault =>
      simpa [State.entering, State.starting, State.withdrawing, State.next, hsubmit,
        Except.toOption] using And.intro h (Progress.of_eq rfl)
    | ok r =>
      obtain ⟨job, s⟩ := r
      rw [State.entering_submit hsubmit] at hnodup ⊢
      simpa [State.starting, State.withdrawing, State.next, hsubmit] using h.submit hsubmit hnodup
  | cancel id =>
    have hentering : σ.entering (.cancel id) = none := rfl
    have hstarting : σ.starting (.cancel id) = none := rfl
    rw [hentering, hstarting, Option.toList_none, List.append_nil, List.append_nil, State.next]
    cases hkey : Key.of? id with
    | none =>
      have hwithdrawing : σ.withdrawing (.cancel id) = none := by
        rw [State.withdrawing, hkey, Option.filter_none]
      rw [hwithdrawing, Option.toList_none, List.append_nil]
      split
      · next hcancel =>
        cases Store.cancel_of_no_key hkey hcancel
        exact ⟨h, .of_eq rfl⟩
      · exact ⟨h, .of_eq rfl⟩
    | some key =>
      have hwithdrawing : σ.withdrawing (.cancel id) = (some key).filter σ.store.awaits := by
        rw [State.withdrawing, hkey]
      rw [hwithdrawing, Store.cancel_of_key hkey]
      exact h.cancelTicket ⟨id, key⟩
  | work =>
    simpa [State.entering, State.withdrawing] using h.work

/-- Along all events, a job that has come to its end stays there. -/
theorem run_isFinal (h : Tracked entered started withdrawn σ) (events : List Event)
    (hnodup : (entered ++ State.along settings State.entering σ events).Nodup)
    (hjob : σ.store.job? key = some job) (hfinal : job.status.isFinal = true) :
    ∃ job', (σ.run settings events).store.job? key = some job' ∧ job'.status = job.status := by
  induction events generalizing entered started withdrawn σ job with
  | nil => exact ⟨job, hjob, rfl⟩
  | cons e events ih =>
    rw [State.along, ← List.append_assoc] at hnodup
    obtain ⟨htracked, hprogress⟩ := h.next settings e (List.nodup_append.1 hnodup).1
    obtain ⟨found, hfound, hmoves⟩ := hprogress.moves key job hjob
    have hstatus := hmoves.eq_of_isFinal hfinal
    obtain ⟨job', hjob', hsame⟩ := ih htracked hnodup hfound (hstatus ▸ hfinal)
    exact ⟨job', hjob', hsame.trans hstatus⟩

/-- **The invariant is kept along all events.** -/
theorem run (h : Tracked entered started withdrawn σ) (events : List Event)
    (hnodup : (entered ++ State.along settings State.entering σ events).Nodup) :
    Tracked (entered ++ State.along settings State.entering σ events)
      (started ++ State.along settings State.starting σ events)
      (withdrawn ++ State.along settings State.withdrawing σ events) (σ.run settings events) := by
  induction events generalizing entered started withdrawn σ with
  | nil => simpa [State.along, State.run] using h
  | cons e events ih =>
    simp only [State.along, ← List.append_assoc] at hnodup ⊢
    exact ih (h.next settings e (List.nodup_append.1 hnodup).1).1 hnodup

end Tracked

/-! ### The life of all jobs -/

/-- Where the jobs of a state are, after jobs with some keys were entered. -/
structure Accounted (entered : List Key) (σ : State) : Prop where
  /-- The jobs that were entered are known, and no others. -/
  known : ∀ key, (σ.store.job? key).isSome ↔ key ∈ entered
  /-- Each is in the queue, held by the worker, or at its end. -/
  placed : ∀ key job, σ.store.job? key = some job →
    σ.store.awaits key = true ∨ σ.stage.held? = some key ∨ job.status.isFinal = true
  /-- Only the job that the worker holds is flagged. -/
  flagged : ∀ t ∈ σ.store.stopping, σ.stage.held? = some t.key
  /-- Without a job for the worker, nothing is flagged. -/
  unflagged : σ.stage = .idle → σ.store.stopping = []

theorem Tracked.accounted {entered started withdrawn : List Key} {σ : State}
    (h : Tracked entered started withdrawn σ) : Accounted entered σ where
  known key := by
    constructor
    · intro hknown
      obtain ⟨job, hjob⟩ := Option.isSome_iff_exists.1 hknown
      exact List.mem_of_getElem? (h.numbered key job hjob)
    · intro hentered
      exact Option.isSome_iff_exists.2 (h.known key hentered)
  placed key job hjob := by
    cases hfinal : job.status.isFinal with
    | true => exact .inr (.inr rfl)
    | false =>
      by_cases hawaits : key ∈ σ.store.waiting.map Ticket.key
      · exact .inl (Store.awaits_iff.2 hawaits)
      · exact .inr (.inl (h.held hjob hfinal hawaits))
  flagged := h.flagged
  unflagged hidle := by
    refine List.eq_nil_iff_forall_not_mem.2 fun t ht => ?_
    have hheld := h.flagged t ht
    rw [hidle] at hheld
    cases hheld

open State (along entering starting withdrawing)

/-- **The life of all jobs.** Let jobs be submitted under distinct ids, cancelled, and served step
by step, in whatever order.

In every event, each job stays where it is, or goes from the queue to the worker, from there to its
end, or is cancelled in the queue; a job that has come to its end stays there. Jobs start in the
order in which they were submitted, each at most once, and none that was cancelled in the queue. At
every moment, each job is in the queue, held by the worker or at its end, and no job is flagged but
the one that the worker holds. -/
theorem lifecycle (ids : Nat → String) (settings : Settings) (events : List Event)
    (h : (along settings entering (.opened ids) events).Nodup) :
    let start := State.opened ids
    (∀ before e after, events = before ++ e :: after →
      Progress (start.run settings before).store
        ((start.run settings before).next settings e).store) ∧
    (∀ before after, events = before ++ after → ∀ key job,
      (start.run settings before).store.job? key = some job → job.status.isFinal = true →
      ∃ job', (start.run settings events).store.job? key = some job' ∧ job'.status = job.status) ∧
    (along settings starting start events).Sublist (along settings entering start events) ∧
    (along settings starting start events).Nodup ∧
    (∀ key ∈ along settings withdrawing start events, key ∉ along settings starting start events) ∧
    ∀ before after, events = before ++ after →
      Accounted (along settings entering start before) (start.run settings before) := by
  intro start
  have htracked : ∀ before after, events = before ++ after →
      Tracked (along settings entering start before) (along settings starting start before)
        (along settings withdrawing start before) (start.run settings before) := by
    rintro before after rfl
    rw [State.along_append] at h
    exact (Tracked.start ids).run before (List.nodup_append.1 h).1
  have hall := htracked events [] (List.append_nil events).symm
  refine ⟨?_, ?_, ?_, ?_, ?_, fun before after hevents => (htracked before after hevents).accounted⟩
  · rintro before e after rfl
    rw [State.along_append, State.along, ← List.append_assoc] at h
    exact ((htracked before (e :: after) rfl).next settings e (List.nodup_append.1 h).1).2
  · rintro before after rfl key job hjob hfinal
    rw [State.along_append] at h
    rw [State.run_append]
    exact (htracked before after rfl).run_isFinal after h hjob hfinal
  · exact (List.sublist_append_left _ _).trans hall.order
  · exact (List.nodup_append.1 hall.nodup_pending).1
  · intro key hkey hstarted
    exact (hall.withdrawn key hkey).2 (List.mem_append_left _ hstarted)

/-- Two requests are submitted. The second one is cancelled in the queue, and the first one when the
worker has taken it. -/
def contested : List Event :=
  let request := fun id => Event.submit (.object [("job_id", .string id)])
  [request "a", request "b", .cancel (.string "b"), .work, .cancel (.string "a"), .work, .work, .work]

theorem lifecycle_contested :
    along {} entering (.opened toString) contested = [.text "a", .text "b"] ∧
    along {} starting (.opened toString) contested = [.text "a"] ∧
    along {} withdrawing (.opened toString) contested = [.text "b"] ∧
    (State.run {} (.opened toString) contested).store.waiting.isEmpty ∧
    Accounted [.text "a", .text "b"] (State.run {} (.opened toString) contested) := by
  have hentering : along {} entering (.opened toString) contested = [.text "a", .text "b"] := by rfl
  obtain ⟨-, -, -, -, -, haccounted⟩ := lifecycle toString {} contested (hentering ▸ by decide)
  exact ⟨hentering, by rfl, by rfl, by rfl, hentering ▸ haccounted contested [] rfl⟩

end StrategyGraph.Jobs
