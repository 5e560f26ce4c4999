import StrategyGraph.Proofs.Jobs.Effort
import StrategyGraph.Proofs.Jobs.Sound
import StrategyGraph.Proofs.Worker.Outcome

/-!
# The passage of a job

What becomes of one job, from its submission to its end, while others are submitted, cancelled and
served around it.

* `State.answering` : the answer that a job is given in an event when it asks whether to stop;
* `Fresh`, `Waits`, `Passage` and `Away` : nothing is known of the job; it waits; it is on its way
  through the worker; it has come to its end. On its way, its record is what the messages sent so
  far make of it, and what is still to be sent is what its routine goes on with;
* `Waits.of_submit` : a job that was just submitted waits. `Waits.run` : a job that waits does so,
  goes on its way, or is cancelled; and `Passage.run` : a job on its way stays on its way;
* `Passage.ends` : the worker comes to the end of a job if it takes enough steps.
-/

namespace StrategyGraph.Jobs

open Worker (Message)

/-- The job after messages of the worker, one after the other. -/
def Job.recordAll (job : Job) (messages : List Message) : Job := messages.foldl Job.record job

/-- The answer that the job with a key is given in an event, if it asks whether to stop. -/
def State.answering (key : Key) (σ : State) : Event → Option Bool
  | .work =>
    match σ.stage with
    | .serving t _ (.check _) => if t.key = key then some (σ.store.isFlagged key) else none
    | _ => none
  | .submit _ | .cancel _ => none

/-- Nothing is known of a job with the key. -/
structure Fresh (key : Key) (σ : State) : Prop where
  unknown : σ.store.job? key = none
  pending : key ∉ σ.pending
  served : σ.stage.served? ≠ some key
  unflagged : σ.store.isFlagged key = false

/-- The job waits, as it was submitted. -/
structure Waits (job : Job) (σ : State) : Prop where
  known : σ.store.job? job.key = some job
  waits : job.key ∈ σ.store.waiting.map Ticket.key
  unflagged : σ.store.isFlagged job.key = false

/-- The job with a key has come to its end. -/
structure Away (key : Key) (job : Job) (σ : State) : Prop where
  known : σ.store.job? key = some job
  ended : job.status.isFinal = true
  pending : key ∉ σ.pending
  served : σ.stage.served? ≠ some key
  unflagged : σ.store.isFlagged key = false

/-- The worker has taken the job off the queue, and has given it these answers. -/
inductive Passage (settings : Settings) (job : Job) : List Bool → State → Prop where
  /-- The worker has taken it. -/
  | taken {σ : State} {t : Ticket} (hstage : σ.stage = .taken t) (hkey : t.key = job.key)
      (hjob : σ.store.job? job.key = some job) : Passage settings job [] σ
  /-- The worker serves it. -/
  | served {σ : State} {t : Ticket} {sent : List Message} {given : List Bool}
      {rest : Routine Message Unit} (hstage : σ.stage = .serving t job.number rest)
      (hkey : t.key = job.key) (hjob : σ.store.job? job.key = some (job.start.recordAll sent))
      (hleads : (Worker.serve settings (.object job.request)).Leads sent given rest) :
      Passage settings job given σ
  /-- The worker is done with it. -/
  | settled {σ : State} {sent : List Message} {given : List Bool} {outcome : Except Fault Unit}
      (haway : Away job.key (job.start.recordAll sent) σ)
      (hleads : (Worker.serve settings (.object job.request)).Leads sent given (.done outcome)) :
      Passage settings job given σ

variable {ids : Nat → String} {settings : Settings} {σ : State} {key : Key} {s : Store}
  {request : Json}
  {job found : Job} {given : List Bool} {sent : List Message} {last : Message} {e : Event}

namespace Job

theorem number_recordAll (messages : List Message) :
    (job.recordAll messages).number = job.number := by
  induction messages generalizing job with
  | nil => rfl
  | cons message messages ih => exact ih.trans (job.number_record message)

theorem request_recordAll (messages : List Message) :
    (job.recordAll messages).request = job.request := by
  induction messages generalizing job with
  | nil => rfl
  | cons message messages ih => exact ih.trans (job.request_record message)

theorem recordAll_concat (messages : List Message) (message : Message) :
    job.recordAll (messages ++ [message]) = (job.recordAll messages).record message :=
  List.foldl_append

theorem recordAll_report (hsent : ∀ message ∈ sent, message.isTerminal = false) :
    job.recordAll (sent ++ [last]) =
      { job with messages := job.messages ++ sent }.record last := by
  rw [recordAll_concat]
  congr 1
  induction sent generalizing job with
  | nil => simp [recordAll]
  | cons message sent ih =>
    rw [List.forall_mem_cons] at hsent
    cases message with
    | started =>
      refine (ih hsent.2).trans ?_
      simp [record]
    | complete result => cases hsent.1
    | error problem => cases hsent.1

theorem isFinal_recordAll {outcome : Except Fault Unit}
    (hleads : (Worker.serve settings request).Leads sent given (.done outcome)) :
    (job.recordAll sent).status.isFinal = true := by
  obtain ⟨answers, hanswers⟩ := Routine.exists_answers given
  obtain ⟨before, last, hlast, -, hterminal⟩ :=
    (Worker.serve_reports settings request).exists_last answers 0
  obtain rfl : sent = before ++ [last] := (hleads.messages_eq hanswers).symm.trans hlast
  rw [recordAll_concat]
  exact isFinal_record hterminal

end Job

namespace State

theorem answering_eq_none (h : σ.stage.served? ≠ some key) : σ.answering key e = none := by
  obtain ⟨s, stage⟩ := σ
  cases e with
  | submit request | cancel id => rfl
  | work =>
    cases stage with
    | idle | taken t => rfl
    | serving t number rest =>
      have hother : t.key ≠ key := fun heq => h (congrArg some heq)
      cases rest with
      | done outcome | say record rest | send message rest => rfl
      | check resume => exact if_neg hother

/-- A job that is not flagged stays so, unless it could be cancelled while it does not wait. -/
theorem unflagged_next (h : σ.store.isFlagged key = false)
    (hcancel : ∀ job, σ.store.job? key = some job → job.status.isFinal = false →
      σ.store.awaits key = true) : (σ.next settings e).store.isFlagged key = false := by
  rw [← Bool.not_eq_true]
  intro hflagged
  rcases isFlagged_of_next hflagged with hbefore | ⟨-, job, -, -, haway, hjob, hfinal⟩
  · rw [h] at hbefore
    cases hbefore
  · rw [hcancel job hjob hfinal] at haway
    cases haway

end State

/-! ### Jobs that are not known -/

theorem Fresh.start (ids : Nat → String) (key : Key) : Fresh key (.opened ids) :=
  ⟨rfl, by simp [State.opened, Store.opened, State.pending, Stage.taken?],
    by simp [State.opened, Stage.served?], rfl⟩

theorem Fresh.next (h : Fresh key σ) (hσ : Sound key σ) (settings : Settings) (e : Event)
    (hnew : σ.entering e ≠ some key) : Fresh key (σ.next settings e) := by
  have hpending := h.pending
  rw [State.mem_pending_iff, not_or] at hpending
  have hflag : (σ.next settings e).store.isFlagged key = false :=
    State.unflagged_next h.unflagged fun job hjob => by cases hjob.symm.trans h.unknown
  cases he : e.isWork with
  | false =>
    obtain ⟨hstage, hjob, haway⟩ := hσ.aside settings he hnew hpending.2
    refine ⟨hjob.trans h.unknown, ?_, hstage ▸ h.served, hflag⟩
    rw [State.mem_pending_iff, not_or, hstage]
    exact ⟨hpending.1, haway⟩
  | true =>
    obtain rfl := Event.eq_work he
    have hheld : σ.stage.held? ≠ some key := by
      rw [Ne, Stage.held?_eq_some, not_or]
      exact ⟨hpending.1, h.served⟩
    exact ⟨(hσ.job?_work settings hheld).trans h.unknown,
      fun hmem => h.pending (State.pending_work hmem),
      fun hserved => hheld (State.served_work hserved), hflag⟩

theorem Fresh.run (h : Fresh key σ) (hσ : Sound key σ) (settings : Settings) (events : List Event)
    (hnew : key ∉ State.along settings State.entering σ events) :
    Fresh key (σ.run settings events) ∧
      State.along settings (State.answering key) σ events = [] := by
  induction events generalizing σ with
  | nil => exact ⟨h, rfl⟩
  | cons e events ih =>
    rw [State.mem_along_cons, not_or] at hnew
    have hσ' := hσ.next_of_ne settings hnew.1
    obtain ⟨hfresh, hnone⟩ := ih (h.next hσ settings e hnew.1) hσ' hnew.2
    refine ⟨hfresh, ?_⟩
    rw [State.along, State.answering_eq_none h.served, hnone]
    rfl

theorem Fresh.submit (h : Fresh job.key σ) (settings : Settings)
    (hsubmit : σ.store.submit request = .ok (job, s)) :
    Waits job (σ.next settings (.submit request)) := by
  have hflag : (σ.next settings (.submit request)).store.isFlagged job.key = false :=
    State.unflagged_next h.unflagged fun job hjob => by cases hjob.symm.trans h.unknown
  obtain ⟨hwaiting, -, -, hsets, -⟩ := Store.submit_ok hsubmit
  have hnext : (σ.next settings (.submit request)).store = s := by rw [State.next, hsubmit]
  refine ⟨hnext ▸ hsets.self, ?_, hflag⟩
  rw [hnext, hwaiting, List.map_append]
  exact List.mem_append_right _ (List.mem_singleton_self _)

/-! ### Jobs at their end -/

theorem Away.not_held (h : Away key found σ) : σ.stage.held? ≠ some key := by
  rw [Ne, Stage.held?_eq_some, not_or]
  exact ⟨fun htaken => h.pending (State.mem_pending_iff.2 (.inl htaken)), h.served⟩

theorem Away.next (h : Away key found σ) (hσ : Sound key σ) (settings : Settings) (e : Event)
    (hnew : σ.entering e ≠ some key) : Away key found (σ.next settings e) := by
  have hpending := h.pending
  rw [State.mem_pending_iff, not_or] at hpending
  have hflag : (σ.next settings e).store.isFlagged key = false := by
    refine State.unflagged_next h.unflagged fun job hjob hfinal => ?_
    obtain rfl := Option.some.inj (h.known.symm.trans hjob)
    rw [h.ended] at hfinal
    cases hfinal
  cases he : e.isWork with
  | false =>
    obtain ⟨hstage, hjob, haway⟩ := hσ.aside settings he hnew hpending.2
    refine ⟨hjob.trans h.known, h.ended, ?_, hstage ▸ h.served, hflag⟩
    rw [State.mem_pending_iff, not_or, hstage]
    exact ⟨hpending.1, haway⟩
  | true =>
    obtain rfl := Event.eq_work he
    exact ⟨(hσ.job?_work settings h.not_held).trans h.known, h.ended,
      fun hmem => h.pending (State.pending_work hmem),
      fun hserved => h.not_held (State.served_work hserved), hflag⟩

/-! ### Jobs that wait -/

/-- Submissions and cancellations leave a job that waits where it is, or cancel it. -/
theorem Waits.intervene (h : Waits job σ) (hσ : Sound job.key σ) (settings : Settings)
    (he : e.isWork = false) (hnew : σ.entering e ≠ some job.key) :
    Waits job (σ.next settings e) ∨
      Away job.key job.cancel (σ.next settings e) ∧
        ∃ id, e = .cancel id ∧ Key.of? id = some job.key := by
  have hstage := hσ.not_held h.waits
  rw [Ne, Stage.held?_eq_some, not_or] at hstage
  have hflag : (σ.next settings e).store.isFlagged job.key = false :=
    State.unflagged_next h.unflagged fun _ _ _ => Store.awaits_iff.2 h.waits
  obtain ⟨s, hnext, hintervenes⟩ := σ.intervenes settings he
  rw [hnext] at hflag ⊢
  cases hintervenes with
  | refused => exact .inl h
  | submit hsubmit =>
    rw [State.entering_submit hsubmit] at hnew
    obtain ⟨hwaiting, -, -, hsets, -⟩ := Store.submit_ok hsubmit
    refine .inl ⟨(hsets.of_ne fun heq => hnew (congrArg some heq.symm)).trans h.known, ?_, hflag⟩
    dsimp only
    rw [hwaiting, List.map_append]
    exact List.mem_append_left _ h.waits
  | @flag _ t =>
    obtain ⟨stopping, hstopping⟩ := σ.store.flag_eq t
    rw [hstopping] at hflag ⊢
    exact .inl ⟨h.known, h.waits, hflag⟩
  | @withdraw id other found hid hawaits hfound =>
    have hsets : σ.store.Sets ((σ.store.unqueue other).update found.number Job.cancel) other
        found.cancel := hσ.numbered.sets_update hfound fun _ => rfl
    have hwaiting : ((σ.store.unqueue other).update found.number Job.cancel).waiting.map
        Ticket.key = (σ.store.waiting.map Ticket.key).erase other := Store.waiting_unqueue
    by_cases hother : job.key = other
    · subst hother
      obtain rfl : job = found := Option.some.inj (h.known.symm.trans hfound)
      -- The job waited once, so that it does not wait any more.
      have honce : (σ.store.waiting.map Ticket.key).count job.key ≤ 1 :=
        Nat.le_trans ((List.sublist_append_right ..).count_le _) hσ.once
      refine .inr ⟨⟨hsets.self, rfl, ?_, hstage.2, hflag⟩, id, rfl, hid⟩
      rw [State.mem_pending_iff, not_or, hwaiting]
      refine ⟨hstage.1, fun hmem => ?_⟩
      have hcount := List.count_pos_iff.2 hmem
      rw [List.count_erase_self] at hcount
      omega
    · refine .inl ⟨(hsets.of_ne hother).trans h.known, ?_, hflag⟩
      rw [hwaiting]
      exact (List.mem_erase_of_ne hother).2 h.waits

theorem Waits.work (h : Waits job σ) (hσ : Sound job.key σ) (settings : Settings) :
    Waits job (σ.next settings .work) ∨ Passage settings job [] (σ.next settings .work) := by
  have hflag : (σ.next settings .work).store.isFlagged job.key = false :=
    State.unflagged_next h.unflagged fun _ _ _ => Store.awaits_iff.2 h.waits
  have hjob := (hσ.job?_work settings (hσ.not_held h.waits)).trans h.known
  have hworks := σ.works settings
  generalize σ.next settings .work = σ' at hworks hjob hflag
  cases hworks with
  | rest | start | drop | say | send | check | release => exact .inl ⟨hjob, h.waits, hflag⟩
  | @take s t waiting hwaiting =>
    by_cases hkey : t.key = job.key
    · exact .inr (.taken rfl hkey hjob)
    · have hwaits := h.waits
      rw [hwaiting, List.map_cons, List.mem_cons] at hwaits
      exact .inl ⟨hjob, hwaits.resolve_left (Ne.symm hkey), hflag⟩

/-- What may come of a job that waits: it waits, it is taken by the worker, or it is cancelled. -/
theorem Waits.next (h : Waits job σ) (hσ : Sound job.key σ) (settings : Settings) (e : Event)
    (hnew : σ.entering e ≠ some job.key) :
    σ.answering job.key e = none ∧
      (Waits job (σ.next settings e) ∨ Passage settings job [] (σ.next settings e) ∨
        Away job.key job.cancel (σ.next settings e) ∧
          ∃ id, e = .cancel id ∧ Key.of? id = some job.key) := by
  have hserved : σ.stage.served? ≠ some job.key := fun hserved =>
    hσ.not_held h.waits (Stage.held?_eq_some.2 (.inr hserved))
  refine ⟨State.answering_eq_none hserved, ?_⟩
  cases he : e.isWork with
  | false => exact (h.intervene hσ settings he hnew).imp_right .inr
  | true =>
    obtain rfl := Event.eq_work he
    exact (h.work hσ settings).imp_right .inl

/-! ### Jobs on their way -/

theorem Passage.request_eq (h : Passage settings job given σ)
    (hfound : σ.store.job? job.key = some found) : found.request = job.request := by
  cases h with
  | taken _ _ hjob =>
    cases hfound.symm.trans hjob
    rfl
  | served _ _ hjob =>
    cases hfound.symm.trans hjob
    exact Job.request_recordAll _
  | settled haway =>
    cases hfound.symm.trans haway.known
    exact Job.request_recordAll _

theorem Passage.intervene (h : Passage settings job given σ) (hσ : Sound job.key σ)
    (he : e.isWork = false) (hnew : σ.entering e ≠ some job.key) :
    Passage settings job given (σ.next settings e) := by
  cases h with
  | taken hstage hkey hjob =>
    have hheld : σ.stage.held? = some job.key := by rw [hstage, ← hkey]; rfl
    obtain ⟨hstage', hjob', -⟩ := hσ.aside settings he hnew (hσ.not_waiting hheld)
    exact .taken (hstage'.trans hstage) hkey (hjob'.trans hjob)
  | served hstage hkey hjob hleads =>
    have hheld : σ.stage.held? = some job.key := by rw [hstage, ← hkey]; rfl
    obtain ⟨hstage', hjob', -⟩ := hσ.aside settings he hnew (hσ.not_waiting hheld)
    exact .served (hstage'.trans hstage) hkey (hjob'.trans hjob) hleads
  | settled haway hleads => exact .settled (haway.next hσ settings e hnew) hleads

theorem Passage.work (h : Passage settings job given σ) (hσ : Sound job.key σ) :
    Passage settings job (given ++ (σ.answering job.key .work).toList) (σ.next settings .work) := by
  cases h with
  | settled haway hleads =>
    rw [State.answering_eq_none haway.served, Option.toList_none, List.append_nil]
    exact .settled (haway.next hσ settings .work fun hnew => by cases hnew) hleads
  | @taken _ t hstage hkey hjob =>
    obtain ⟨s, stage⟩ := σ
    obtain rfl : stage = .taken t := hstage
    have hworks := State.works settings ⟨s, .taken t⟩
    change Passage settings job [] _
    generalize State.next settings ⟨s, .taken t⟩ .work = σ' at hworks
    have hjob' : s.job? t.key = some job := hkey ▸ hjob
    cases hworks with
    | drop hnone => cases hnone.symm.trans hjob'
    | start hfound =>
      obtain rfl := Option.some.inj (hjob'.symm.trans hfound)
      have hsets : s.Sets (s.start job.number) job.key (job.start.recordAll []) :=
        hσ.numbered.sets_update hjob fun _ => rfl
      exact .served rfl hkey hsets.self .start
  | @served _ t sent given rest hstage hkey hjob hleads =>
    -- What the worker does is what the rest of the routine begins with.
    obtain ⟨s, stage⟩ := σ
    obtain rfl : stage = .serving t job.number rest := hstage
    have hworks := State.works settings ⟨s, .serving t job.number rest⟩
    generalize State.next settings ⟨s, .serving t job.number rest⟩ .work = σ' at hworks
    cases hworks with
    | @say _ _ _ _ rest =>
      have hnext : Passage settings job given ⟨s, .serving t job.number rest⟩ :=
        .served rfl hkey hjob hleads.say
      simpa [State.answering] using hnext
    | @send _ _ _ message rest =>
      have hsets : s.Sets (s.record (job.start.recordAll sent).number message) job.key
          ((job.start.recordAll sent).record message) :=
        hσ.numbered.sets_update hjob fun job => job.key_record message
      rw [Job.number_recordAll, ← Job.recordAll_concat] at hsets
      have hnext : Passage settings job given
          ⟨s.record job.number message, .serving t job.number rest⟩ :=
        .served rfl hkey hsets.self hleads.send
      simpa [State.answering] using hnext
    | @check _ _ _ resume =>
      have hnext : Passage settings job (given ++ [s.isFlagged job.key])
          ⟨s, .serving t job.number (resume (s.isFlagged job.key))⟩ :=
        .served rfl hkey hjob (hleads.check _)
      simpa [State.answering, hkey] using hnext
    | release =>
      have hwaiting : job.key ∉ s.waiting.map Ticket.key := hσ.not_waiting (congrArg some hkey)
      have hflag : (s.release t.key).isFlagged job.key = false := by
        rw [← Bool.not_eq_true, Store.release, Store.isFlagged_unflag, hkey]
        exact fun hflagged => hflagged.2 rfl
      have hnext : Passage settings job given ⟨s.release t.key, .idle⟩ :=
        .settled ⟨hjob, Job.isFinal_recordAll hleads, hwaiting, (fun hserved => by cases hserved),
          hflag⟩ hleads
      simpa [State.answering] using hnext

/-- **A job on its way stays on its way**, and each answer that it is given is one more of its
answers. -/
theorem Passage.next (h : Passage settings job given σ) (hσ : Sound job.key σ) (e : Event)
    (hnew : σ.entering e ≠ some job.key) :
    Passage settings job (given ++ (σ.answering job.key e).toList) (σ.next settings e) := by
  cases e with
  | submit request | cancel id =>
    rw [State.answering, Option.toList_none, List.append_nil]
    exact h.intervene hσ rfl hnew
  | work => exact h.work hσ

/-! ### Any number of events -/

section

variable (settings : Settings) (events : List Event)

theorem Away.run (h : Away key found σ) (hσ : Sound key σ)
    (hnew : key ∉ State.along settings State.entering σ events) :
    Away key found (σ.run settings events) := by
  induction events generalizing σ with
  | nil => exact h
  | cons e events ih =>
    rw [State.mem_along_cons, not_or] at hnew
    have hσ' := hσ.next_of_ne settings hnew.1
    exact ih (h.next hσ settings e hnew.1) hσ' hnew.2

variable (hσ : Sound job.key σ) (hnew : job.key ∉ State.along settings State.entering σ events)
include hσ hnew

/-- **A job on its way stays on its way**, whatever happens around it. -/
theorem Passage.run (h : Passage settings job given σ) :
    Passage settings job (given ++ State.along settings (State.answering job.key) σ events)
      (σ.run settings events) := by
  induction events generalizing σ given with
  | nil => exact (List.append_nil given).symm ▸ h
  | cons e events ih =>
    rw [State.mem_along_cons, not_or] at hnew
    rw [State.along, ← List.append_assoc]
    have hσ' := hσ.next_of_ne settings hnew.1
    exact ih hσ' hnew.2 (h.next hσ e hnew.1)

/-- **A job that waits does so, goes on its way, or is cancelled.** -/
theorem Waits.run (h : Waits job σ) :
    Waits job (σ.run settings events) ∨
      (∃ first second, events = first ++ second ∧
        State.along settings (State.answering job.key) σ first = [] ∧
        Sound job.key (σ.run settings first) ∧ Passage settings job [] (σ.run settings first)) ∨
      Away job.key job.cancel (σ.run settings events) ∧
        ∃ id, .cancel id ∈ events ∧ Key.of? id = some job.key := by
  induction events generalizing σ with
  | nil => exact .inl h
  | cons e events ih =>
    rw [State.mem_along_cons, not_or] at hnew
    have hσ' := hσ.next_of_ne settings hnew.1
    obtain ⟨hnone, hnext⟩ := h.next hσ settings e hnew.1
    rcases hnext with hwaits | hpassage | ⟨haway, id, rfl, hid⟩
    · rcases ih hσ' hnew.2 hwaits with
        hstill | ⟨first, second, rfl, halong, hrest⟩ | ⟨haway, id, hmem, hid⟩
      · exact .inl hstill
      · refine .inr (.inl ⟨e :: first, second, rfl, ?_, hrest⟩)
        rw [State.along, hnone, halong]
        rfl
      · exact .inr (.inr ⟨haway, id, List.mem_cons_of_mem _ hmem, hid⟩)
    · -- The worker takes the job in this event, so that its answers are those of the rest.
      refine .inr (.inl ⟨[e], events, rfl, ?_, hσ', hpassage⟩)
      rw [State.along, hnone]
      rfl
    · exact .inr (.inr ⟨haway.run settings events hσ' hnew.2, id, List.mem_cons_self, hid⟩)

end

/-- **A job that was just submitted waits**, and nothing was answered under its key yet, if no other
submission has its id. -/
theorem Waits.of_submit (settings : Settings) (before after : List Event)
    (hsubmit : (State.run settings (.opened ids) before).store.submit request = .ok (job, s))
    (honce : Once ids settings job.key (before ++ .submit request :: after)) :
    let σ := State.run settings (.opened ids) (before ++ [.submit request])
    Waits job σ ∧ Sound job.key σ ∧ job.key ∉ State.along settings State.entering σ after ∧
      State.along settings (State.answering job.key) (.opened ids) (before ++ [.submit request]) =
        [] := by
  obtain ⟨hbefore, hafter⟩ := honce.of_entering (State.entering_submit hsubmit)
  have hσ := (Sound.start ids job.key).run settings before hbefore
  obtain ⟨hfresh, hnone⟩ := (Fresh.start ids job.key).run (.start ids _) settings before hbefore
  rw [State.run_append, State.along_append, hnone]
  exact ⟨hfresh.submit settings hsubmit,
    hσ.next settings (.submit request) fun _ => ⟨hfresh.pending, hfresh.served⟩, hafter, rfl⟩

/-! ### The end of a job -/

/-- A job on its way is held by the worker or away from it. -/
theorem Passage.away (h : Passage settings job given σ) (hheld : σ.stage.held? ≠ some job.key) :
    ∃ sent outcome, Away job.key (job.start.recordAll sent) σ ∧
      (Worker.serve settings (.object job.request)).Leads sent given (.done outcome) := by
  cases h with
  | taken hstage hkey => exact absurd (by rw [hstage, ← hkey]; rfl) hheld
  | served hstage hkey => exact absurd (by rw [hstage, ← hkey]; rfl) hheld
  | @settled _ sent _ outcome haway hleads => exact ⟨sent, outcome, haway, hleads⟩

theorem Passage.effort_eq (h : Passage settings job given σ) :
    σ.store.effort settings job.key = (Worker.serve settings (.object job.request)).depth := by
  have hfound : ∃ found, σ.store.job? job.key = some found := by
    cases h with
    | taken _ _ hjob | served _ _ hjob => exact ⟨_, hjob⟩
    | settled haway => exact ⟨_, haway.known⟩
  obtain ⟨found, hfound⟩ := hfound
  rw [Store.effort, hfound, Option.map_some, Option.getD_some, h.request_eq hfound]

/-- **The worker comes to the end of every job**, if it takes enough steps. -/
theorem Passage.ends (h : Passage settings job given σ) (hσ : Sound job.key σ)
    (events : List Event) (hnew : job.key ∉ State.along settings State.entering σ events)
    (hload : σ.stage.load (σ.store.effort settings) ≤ (events.filter Event.isWork).length) :
    (σ.run settings events).stage.held? ≠ some job.key := by
  induction events generalizing σ given with
  | nil =>
    intro hheld
    have hless := σ.load_work settings hheld
    rw [List.filter_nil, List.length_nil] at hload
    omega
  | cons e events ih =>
    by_cases hheld : σ.stage.held? = some job.key
    · rw [State.mem_along_cons, not_or] at hnew
      have hnext := h.next hσ e hnew.1
      refine ih hnext (hσ.next_of_ne settings hnew.1) hnew.2 ?_
      cases he : e.isWork with
      | false =>
        obtain ⟨s, hs, -⟩ := σ.intervenes settings he
        rw [List.filter_cons_of_neg (by simp [he])] at hload
        rw [hs] at hnext ⊢
        rw [Stage.load_congr hheld (hnext.effort_eq.trans h.effort_eq.symm)]
        exact hload
      | true =>
        have hless := σ.load_work settings hheld
        rw [List.filter_cons_of_pos he, List.length_cons] at hload
        obtain rfl := Event.eq_work he
        rw [σ.effort_work]
        omega
    · obtain ⟨sent, outcome, haway, -⟩ := h.away hheld
      exact (haway.run settings (e :: events) hσ hnew).not_held

end StrategyGraph.Jobs
