import StrategyGraph.Proofs.Jobs.Passage

/-!
# What happens apart from one job

What becomes of the other jobs does not depend on what becomes of one of them.

* `Store.Apart` : two stores differ at most in the job with a key and in its flag. Submissions and
  cancellations keep that (`Store.Apart.run`), and so do steps of the worker that holds the job
  (`Sound.apart_work`);
* `State.Finishes` : events that bring the worker to the end of a job, and no further. Up to then
  the other jobs see only the submissions and cancellations (`State.Finishes.apart`);
* `State.Apart` : two states that differ at most in a job that the worker does not hold; all events
  keep that (`State.Apart.run`).
-/

namespace StrategyGraph.Jobs

variable {settings : Settings} {σ σ' : State} {s s' s'' : Store} {key other : Key} {job : Job}
  {e : Event} {t : Ticket}

/-- The stores differ at most in the job with a key and in its flag. The job does not wait. -/
structure Store.Apart (key : Key) (s s' : Store) : Prop where
  waiting : s'.waiting = s.waiting
  submitted : s'.submitted = s.submitted
  ids : s'.ids = s.ids
  issued : s'.issued = s.issued
  jobs : ∀ other, other ≠ key → s'.job? other = s.job? other
  flagged : ∀ other, other ≠ key → s'.isFlagged other = s.isFlagged other
  away : key ∉ s.waiting.map Ticket.key

namespace Store.Apart

theorem refl (haway : key ∉ s.waiting.map Ticket.key) : s.Apart key s :=
  ⟨rfl, rfl, rfl, rfl, fun _ _ => rfl, fun _ _ => rfl, haway⟩

variable (h : s.Apart key s')
include h

theorem symm : s'.Apart key s :=
  ⟨h.waiting.symm, h.submitted.symm, h.ids.symm, h.issued.symm,
    fun other ho => (h.jobs other ho).symm, fun other ho => (h.flagged other ho).symm,
    h.waiting ▸ h.away⟩

theorem trans (h' : s'.Apart key s'') : s.Apart key s'' :=
  ⟨h'.waiting.trans h.waiting, h'.submitted.trans h.submitted, h'.ids.trans h.ids,
    h'.issued.trans h.issued, fun other ho => (h'.jobs other ho).trans (h.jobs other ho),
    fun other ho => (h'.flagged other ho).trans (h.flagged other ho), h.away⟩

theorem awaits_eq (other : Key) : s'.awaits other = s.awaits other := by
  rw [awaits, awaits, h.waiting]

/-! ### What is done to both -/

theorem update {change : Job → Job} (hchange : ∀ job, (change job).key = job.key) (number : Nat) :
    (s.update number change).Apart key (s'.update number change) :=
  { h with
    jobs := fun other ho => by rw [job?_update hchange, job?_update hchange, h.jobs other ho] }

theorem unqueue (other : Key) : (s.unqueue other).Apart key (s'.unqueue other) :=
  { h with
    waiting := by simp only [Store.unqueue, h.waiting]
    away := by
      rw [waiting_unqueue]
      exact fun hmem => h.away (List.mem_of_mem_erase hmem) }

theorem flag (t : Ticket) : (s.flag t).Apart key (s'.flag t) := by
  obtain ⟨stopping, hstopping⟩ := s.flag_eq t
  obtain ⟨stopping', hstopping'⟩ := s'.flag_eq t
  have hflagged : ∀ other, other ≠ key → (s'.flag t).isFlagged other = (s.flag t).isFlagged other :=
    fun other ho => Bool.eq_iff_iff.2 (by
      rw [isFlagged_flag, isFlagged_flag, h.flagged other ho])
  rw [hstopping, hstopping'] at hflagged ⊢
  exact { h with flagged := hflagged }

theorem enter (hother : job.key ≠ key) : (s.enter job).Apart key (s'.enter job) :=
  { h with
    waiting := by simp only [Store.enter, h.waiting]
    submitted := congrArg (· + 1) h.submitted
    jobs := fun third ho => by rw [sets_enter third, sets_enter third, h.jobs third ho]
    away := by
      have hwaiting : (s.enter job).waiting = s.waiting ++ [job.ticket] := rfl
      rw [hwaiting, List.map_append, List.mem_append, not_or]
      exact ⟨h.away, fun hmem => hother (List.mem_singleton.1 hmem).symm⟩ }

theorem unflag (other : Key) : (s.unflag other).Apart key (s'.unflag other) :=
  { h with
    flagged := fun third ho => Bool.eq_iff_iff.2 (by
      rw [isFlagged_unflag, isFlagged_unflag, h.flagged third ho]) }

/-- The flag of the job does not matter. -/
theorem flag_right (hkey : t.key = key) : s.Apart key (s'.flag t) := by
  obtain ⟨stopping, hstopping⟩ := s'.flag_eq t
  have hflagged : ∀ other, other ≠ key → (s'.flag t).isFlagged other = s.isFlagged other := by
    intro other ho
    have hne : t.key ≠ other := fun heq => ho (heq.symm.trans hkey)
    rw [Bool.eq_iff_iff, isFlagged_flag, h.flagged other ho, or_iff_left hne]
  rw [hstopping] at hflagged ⊢
  exact { h with flagged := hflagged }

theorem submit (request : Json) :
    Agree Eq (fun r r' => r'.1 = r.1 ∧ (r.1.key ≠ key → r.2.Apart key r'.2)) (s.submit request)
      (s'.submit request) := by
  refine (Agree.same request.attributes).bind ?_
  rintro fields _ rfl
  have hidentify : (s'.identify fields).1 = (s.identify fields).1 ∧
      (s.identify fields).2.Apart key (s'.identify fields).2 := by
    unfold identify
    dsimp only
    split
    · exact ⟨rfl, h⟩
    · exact ⟨by rw [h.ids, h.issued], { h with issued := congrArg (· + 1) h.issued }⟩
  generalize s.identify fields = r at hidentify
  generalize s'.identify fields = r' at hidentify
  obtain ⟨id, given⟩ := r
  obtain ⟨id', given'⟩ := r'
  obtain ⟨rfl, hgiven⟩ := hidentify
  refine (Agree.same (Ticket.require id')).bind ?_
  rintro ticket _ rfl
  refine .ok ?_
  dsimp only
  rw [hgiven.submitted]
  exact ⟨rfl, fun hother => hgiven.enter hother⟩

theorem cancelTicket (t : Ticket) :
    (s.cancelTicket t).2.Apart key (s'.cancelTicket t).2 := by
  by_cases hkey : t.key = key
  · -- The job does not wait, so that a cancellation changes no more of it than its flag.
    have haway : s.awaits t.key = false := by
      rw [← Bool.not_eq_true, awaits_iff, hkey]
      exact h.away
    have haway' : s'.awaits t.key = false := (h.awaits_eq t.key).trans haway
    have hright : s.Apart key (s'.cancelTicket t).2 := by
      rcases cancelTicket_of_not_awaits haway' with hsame | ⟨-, -, -, hflag⟩
      · rw [hsame]
        exact h
      · rw [hflag]
        exact h.flag_right hkey
    rcases cancelTicket_of_not_awaits haway with hsame | ⟨-, -, -, hflag⟩
    · rw [hsame]
      exact hright
    · rw [hflag]
      exact (hright.symm.flag_right hkey).symm
  · rw [Store.cancelTicket, Store.cancelTicket, h.jobs t.key hkey, h.awaits_eq]
    cases s.job? t.key with
    | none => exact h
    | some job =>
      dsimp only
      split
      · exact h
      · split
        · have hcancel : ∀ job : Job, job.cancel.key = job.key := fun _ => rfl
          exact (h.unqueue t.key).update hcancel job.number
        · exact h.flag t

end Store.Apart

/-! ### Submissions and cancellations -/

theorem Store.Apart.next (h : σ.store.Apart key σ'.store) (settings : Settings)
    (he : e.isWork = false) (hnew : σ.entering e ≠ some key) :
    (σ.next settings e).store.Apart key (σ'.next settings e).store ∧
      σ'.entering e = σ.entering e := by
  cases e with
  | work => cases he
  | submit request =>
    have hagree := h.submit request
    rw [State.entering] at hnew
    rw [State.next, State.next, State.entering, State.entering]
    generalize σ.store.submit request = r at hagree hnew ⊢
    generalize σ'.store.submit request = r' at hagree ⊢
    cases hagree with
    | error => exact ⟨h, rfl⟩
    | ok hsame =>
      obtain ⟨hjob, hapart⟩ := hsame
      exact ⟨hapart fun heq => hnew (congrArg some heq),
        congrArg (fun job : Job => some job.key) hjob⟩
  | cancel id =>
    rw [State.next, State.next, Store.cancel, Store.cancel]
    cases id.requireKey with
    | error fault => exact ⟨h, rfl⟩
    | ok _ =>
      refine ⟨?_, rfl⟩
      change (σ.store.cancelKnown id).2.Apart key (σ'.store.cancelKnown id).2
      unfold Store.cancelKnown
      cases Ticket.of? id with
      | none => exact h
      | some t => exact h.cancelTicket t

/-- Submissions and cancellations keep two stores apart, as long as they do not enter the job. -/
theorem Store.Apart.run (h : σ.store.Apart key σ'.store) (settings : Settings) {calls : List Event}
    (hcalls : ∀ e ∈ calls, e.isWork = false)
    (hnew : key ∉ State.along settings State.entering σ calls) :
    (σ.run settings calls).store.Apart key (σ'.run settings calls).store ∧
      State.along settings State.entering σ' calls =
        State.along settings State.entering σ calls := by
  induction calls generalizing σ σ' with
  | nil => exact ⟨h, rfl⟩
  | cons e calls ih =>
    rw [List.forall_mem_cons] at hcalls
    rw [State.mem_along_cons, not_or] at hnew
    obtain ⟨hnext, hentering⟩ := h.next settings hcalls.1 hnew.1
    obtain ⟨hrun, halong⟩ := ih hnext hcalls.2 hnew.2
    exact ⟨hrun, by rw [State.along, State.along, hentering, halong]⟩

/-! ### The turn of the job -/

theorem Sound.apart_work (h : Sound key σ) (settings : Settings)
    (hheld : σ.stage.held? = some key) : σ.store.Apart key (σ.next settings .work).store := by
  have hjobs : ∀ other, other ≠ key →
      (σ.next settings .work).store.job? other = σ.store.job? other := fun other ho =>
    h.job?_work settings fun hother => ho (Option.some.inj (hother.symm.trans hheld))
  have haway := h.not_waiting hheld
  have hworks := σ.works settings
  generalize σ.next settings .work = σ' at hworks hjobs
  cases hworks with
  | rest | take => cases hheld
  | start | drop | say | send | check =>
    exact ⟨rfl, rfl, rfl, rfl, hjobs, fun _ _ => rfl, haway⟩
  | release =>
    obtain rfl := Option.some.inj hheld
    refine ⟨rfl, rfl, rfl, rfl, hjobs, fun other ho => ?_, haway⟩
    rw [Bool.eq_iff_iff, Store.release, Store.isFlagged_unflag, and_iff_left ho]

/-- The events bring the worker to the end of the job that it holds, and no further. -/
def State.Finishes (settings : Settings) (key : Key) (σ : State) : List Event → Prop
  | [] => σ.stage.held? ≠ some key
  | e :: events => σ.stage.held? = some key ∧ Finishes settings key (σ.next settings e) events

instance State.decidableFinishes (settings : Settings) (key : Key) :
    (σ : State) → (events : List Event) → Decidable (σ.Finishes settings key events)
  | σ, [] => inferInstanceAs (Decidable (σ.stage.held? ≠ some key))
  | σ, e :: events =>
    have := decidableFinishes settings key (σ.next settings e) events
    inferInstanceAs (Decidable (σ.stage.held? = some key ∧
      (σ.next settings e).Finishes settings key events))

/-- The submissions and cancellations among events. -/
def Event.calls (events : List Event) : List Event := events.filter fun e => !e.isWork

theorem Event.isWork_of_mem_calls {events : List Event} :
    ∀ e ∈ Event.calls events, e.isWork = false := fun e he => by
  simpa using (List.mem_filter.1 he).2

/-- Until the worker comes to the end of the job, the other jobs see only the submissions and
cancellations. -/
theorem State.Finishes.apart {events : List Event} (h : σ.Finishes settings key events)
    (hσ : Sound key σ) (haway : key ∉ σ.store.waiting.map Ticket.key)
    (hnew : key ∉ along settings entering σ events) :
    (σ.run settings (Event.calls events)).store.Apart key (σ.run settings events).store ∧
      key ∉ along settings entering σ (Event.calls events) := by
  induction events generalizing σ with
  | nil => exact ⟨.refl haway, by simp [Event.calls, along]⟩
  | cons e events ih =>
    obtain ⟨hheld, hfinishes⟩ := h
    rw [mem_along_cons, not_or] at hnew
    have hσ' := hσ.next_of_ne settings hnew.1
    cases he : e.isWork with
    | false =>
      obtain ⟨-, -, haway'⟩ := hσ.aside settings he hnew.1 haway
      obtain ⟨hapart, hcalls⟩ := ih hfinishes hσ' haway' hnew.2
      have hcons : Event.calls (e :: events) = e :: Event.calls events :=
        List.filter_cons_of_pos (by simp [he])
      rw [hcons, mem_along_cons, not_or]
      exact ⟨hapart, hnew.1, hcalls⟩
    | true =>
      obtain rfl := Event.eq_work he
      have hwork := hσ.apart_work settings hheld
      obtain ⟨hapart, hcalls⟩ := ih hfinishes hσ' hwork.symm.away hnew.2
      have hcons : Event.calls (.work :: events) = Event.calls events :=
        List.filter_cons_of_neg (by simp [he])
      -- The step concerns nothing but the job, so the others do not miss it.
      obtain ⟨hrun, halong⟩ := hwork.symm.run settings Event.isWork_of_mem_calls hcalls
      rw [hcons]
      exact ⟨hrun.symm.trans hapart, halong ▸ hcalls⟩

theorem State.Finishes.stage {events : List Event} (h : σ.Finishes settings key events)
    (hheld : σ.stage.held? = some key) : (σ.run settings events).stage = .idle := by
  induction events generalizing σ with
  | nil => exact absurd hheld h
  | cons e events ih =>
    obtain ⟨-, hfinishes⟩ := h
    by_cases hnext : (σ.next settings e).stage.held? = some key
    · exact ih hfinishes hnext
    · cases events with
      | cons e' events => exact absurd hfinishes.1 hnext
      | nil =>
        cases he : e.isWork with
        | false =>
          obtain ⟨s, hsame, -⟩ := σ.intervenes settings he
          rw [hsame] at hnext
          exact absurd hheld hnext
        | true =>
          obtain rfl := Event.eq_work he
          have hworks := σ.works settings
          change (σ.next settings .work).stage = .idle
          generalize σ.next settings .work = σ' at hworks hnext
          cases hworks with
          | rest | drop | release => rfl
          | take => cases hheld
          | start | say | send | check => exact absurd hheld hnext

/-! ### After the turn -/

/-- The states differ at most in a job that does not wait and that the worker does not hold. -/
structure State.Apart (key : Key) (σ σ' : State) : Prop where
  store : σ.store.Apart key σ'.store
  stage : σ'.stage = σ.stage
  idle : σ.stage.held? ≠ some key

theorem State.Apart.work (h : σ.Apart key σ') (settings : Settings) :
    (σ.next settings .work).Apart key (σ'.next settings .work) := by
  obtain ⟨s', stage'⟩ := σ'
  obtain ⟨hstore, hstage, hidle⟩ := h
  obtain rfl : stage' = σ.stage := hstage
  have hworks := σ.works settings
  have hworks' := State.works settings ⟨s', σ.stage⟩
  generalize σ.next settings .work = τ at hworks
  generalize State.next settings ⟨s', σ.stage⟩ .work = τ' at hworks'
  -- Both workers do the same, as they are at the same stage.
  cases hworks with
  | rest hwaiting =>
    cases hworks' with
    | rest => exact ⟨hstore, rfl, hidle⟩
    | take hwaiting' => cases hwaiting'.symm.trans (hstore.waiting.trans hwaiting)
  | @take s t waiting hwaiting =>
    have haway := hstore.away
    rw [hwaiting, List.map_cons, List.mem_cons, not_or] at haway
    cases hworks' with
    | rest hwaiting' => cases hwaiting'.symm.trans (hstore.waiting.trans hwaiting)
    | take hwaiting' =>
      cases hwaiting'.symm.trans (hstore.waiting.trans hwaiting)
      exact ⟨{ hstore with waiting := rfl, away := haway.2 }, rfl,
        fun hheld => haway.1 (Option.some.inj hheld).symm⟩
  | @start s t job hjob =>
    have hjob' : s'.job? t.key = some job :=
      (hstore.jobs t.key fun heq => hidle (congrArg some heq)).trans hjob
    cases hworks' with
    | drop hnone => cases hnone.symm.trans hjob'
    | start hfound =>
      cases hfound.symm.trans hjob'
      have hstart : ∀ job : Job, job.start.key = job.key := fun _ => rfl
      exact ⟨hstore.update hstart job.number, rfl, hidle⟩
  | @drop s t hnone =>
    have hnone' : s'.job? t.key = none :=
      (hstore.jobs t.key fun heq => hidle (congrArg some heq)).trans hnone
    cases hworks' with
    | start hfound => cases hfound.symm.trans hnone'
    | drop => exact ⟨hstore, rfl, fun hheld => by cases hheld⟩
  | say =>
    cases hworks'
    exact ⟨hstore, rfl, hidle⟩
  | @send _ _ number message =>
    cases hworks'
    exact ⟨hstore.update (fun job => job.key_record message) number, rfl, hidle⟩
  | @check s t number resume =>
    cases hworks'
    refine ⟨hstore, ?_, hidle⟩
    have hflagged : s'.isFlagged t.key = s.isFlagged t.key :=
      hstore.flagged t.key fun heq => hidle (congrArg some heq)
    simp only [hflagged]
  | @release _ t =>
    cases hworks'
    exact ⟨hstore.unflag t.key, rfl, fun hheld => by cases hheld⟩

theorem State.Apart.next (h : σ.Apart key σ') (settings : Settings) (e : Event)
    (hnew : σ.entering e ≠ some key) : (σ.next settings e).Apart key (σ'.next settings e) := by
  cases he : e.isWork with
  | false =>
    obtain ⟨s, hs, -⟩ := σ.intervenes settings he
    obtain ⟨s', hs', -⟩ := σ'.intervenes settings he
    have hstore := (h.store.next settings he hnew).1
    rw [hs, hs'] at hstore ⊢
    exact ⟨hstore, h.stage, h.idle⟩
  | true =>
    obtain rfl := Event.eq_work he
    exact h.work settings

theorem State.Apart.run (h : σ.Apart key σ') (settings : Settings) (events : List Event)
    (hnew : key ∉ State.along settings State.entering σ events) :
    (σ.run settings events).Apart key (σ'.run settings events) := by
  induction events generalizing σ σ' with
  | nil => exact h
  | cons e events ih =>
    rw [mem_along_cons, not_or] at hnew
    exact ih (h.next settings e hnew.1) hnew.2

/-- **Turns that see the same submissions and cancellations lead to the same**, but for their
job. -/
theorem State.Apart.of_finishes {during during' : List Event} (h : σ.store.Apart key σ'.store)
    (hσ : Sound key σ) (hσ' : Sound key σ') (hheld : σ.stage.held? = some key)
    (hheld' : σ'.stage.held? = some key) (hfinishes : σ.Finishes settings key during)
    (hfinishes' : σ'.Finishes settings key during')
    (hcalls : Event.calls during = Event.calls during')
    (hnew : key ∉ along settings entering σ during)
    (hnew' : key ∉ along settings entering σ' during') :
    (σ.run settings during).Apart key (σ'.run settings during') := by
  obtain ⟨hapart, halong⟩ := hfinishes.apart hσ (hσ.not_waiting hheld) hnew
  obtain ⟨hapart', -⟩ := hfinishes'.apart hσ' (hσ'.not_waiting hheld') hnew'
  obtain ⟨hrun, -⟩ := h.run settings Event.isWork_of_mem_calls halong
  have hidle := hfinishes.stage hheld
  refine ⟨hapart.symm.trans (hrun.trans (hcalls ▸ hapart')), ?_, ?_⟩
  · rw [hidle, hfinishes'.stage hheld']
  · rw [hidle]
    exact fun hheld => by cases hheld

end StrategyGraph.Jobs
