import StrategyGraph.Proofs.Jobs.Events

/-!
# One job among others

When no other job is submitted under its key, a job is entered, started and served once, whatever
ids the other jobs have.

* `Once` : at most one submission has a key, along events from the start;
* `Sound` : the invariant, for one key. `Sound.next` is its step, and `Sound.run` follows from it;
* `Sound.aside` and `Sound.job?_work` : what submissions, cancellations and steps of the worker
  leave as it is;
* `State.isFlagged_of_next` : how a job is flagged.
-/

namespace StrategyGraph.Jobs

open Worker (Message)

/-- What the worker serves has a number that no job under another key has. -/
def Owned (s : Store) : Stage → Prop
  | .idle | .taken _ => True
  | .serving t number _ =>
    number < s.submitted ∧ ∀ key job, s.job? key = some job → job.number = number → key = t.key

/-- The job with a key is at one place at most, and the worker knows what it serves. -/
structure Sound (key : Key) (σ : State) : Prop where
  /-- Jobs are told apart by their numbers. -/
  numbered : σ.store.Numbered
  /-- The worker serves what it has started. -/
  owned : Owned σ.store σ.stage
  /-- The job is still to be started once at most. -/
  once : σ.pending.count key ≤ 1
  /-- What is served is not to be started any more. -/
  served : σ.stage.served? = some key → key ∉ σ.pending

/-- Along events from the start, at most one submission has the id with a key. -/
def Once (ids : Nat → String) (settings : Settings) (key : Key) (events : List Event) : Prop :=
  (State.along settings State.entering (.opened ids) events).count key ≤ 1

instance (ids : Nat → String) (settings : Settings) (key : Key) (events : List Event) :
    Decidable (Once ids settings key events) :=
  inferInstanceAs (Decidable (_ ≤ 1))

variable {ids : Nat → String} {settings : Settings} {σ : State} {s s' : Store} {stage : Stage}
  {key other : Key} {job : Job} {e : Event} {number : Nat} {change : Job → Job}
  {before after : List Event}

theorem Once.not_mem (h : Once ids settings key (before ++ after))
    (hentered : key ∈ State.along settings State.entering (.opened ids) before) :
    key ∉ State.along settings State.entering (State.run settings (.opened ids) before) after := by
  have hcount := List.count_pos_iff.2 hentered
  rw [Once, State.along_append, List.count_append] at h
  exact List.count_eq_zero.1 (by omega)

theorem Once.of_entering (h : Once ids settings key (before ++ e :: after))
    (hentering : (State.run settings (.opened ids) before).entering e = some key) :
    key ∉ State.along settings State.entering (.opened ids) before ∧
      key ∉ State.along settings State.entering
        ((State.run settings (.opened ids) before).next settings e) after := by
  rw [Once, State.along_append, State.along, hentering, List.count_append, List.count_append,
    Option.toList_some, List.count_singleton_self] at h
  exact ⟨List.count_eq_zero.1 (by omega), List.count_eq_zero.1 (by omega)⟩

/-! ### Places -/

namespace Owned

theorem update (h : Owned s stage) (hkey : ∀ job, (change job).key = job.key)
    (hnumber : ∀ job, (change job).number = job.number) :
    Owned (s.update number change) stage := by
  cases stage with
  | idle | taken t => trivial
  | serving t served rest =>
    refine ⟨h.1, fun key job hjob hsame => ?_⟩
    obtain ⟨found, hfound, heq⟩ := Store.exists_of_job?_update hkey hnumber hjob
    exact h.2 key found hfound (heq.trans hsame)

theorem submit (h : Owned s stage) {request : Json} (hsubmit : s.submit request = .ok (job, s')) :
    Owned s' stage := by
  obtain ⟨-, -, hsubmitted, hsets, hnumber, -⟩ := Store.submit_ok hsubmit
  cases stage with
  | idle | taken t => trivial
  | serving t served rest =>
    obtain ⟨hbelow, howned⟩ := h
    refine ⟨by omega, fun key found hfound hsame => ?_⟩
    rcases hsets.cases hfound with ⟨-, rfl⟩ | ⟨-, hbefore⟩
    · omega
    · exact howned key found hbefore hsame

end Owned

namespace Sound

theorem start (ids : Nat → String) (key : Key) : Sound key (.opened ids) :=
  ⟨.opened ids, trivial, Nat.zero_le _, fun hserved => by cases hserved⟩

variable (h : Sound key σ)
include h

theorem not_waiting (hheld : σ.stage.held? = some key) :
    key ∉ σ.store.waiting.map Ticket.key := by
  intro hwaiting
  rcases Stage.held?_eq_some.1 hheld with htaken | hserved
  · have honce := h.once
    rw [State.pending, htaken, Option.toList_some, List.singleton_append,
      List.count_cons_self] at honce
    exact absurd (List.count_pos_iff.2 hwaiting) (by omega)
  · exact h.served hserved (State.mem_pending_iff.2 (.inr hwaiting))

theorem not_held (hwaiting : key ∈ σ.store.waiting.map Ticket.key) :
    σ.stage.held? ≠ some key := fun hheld => h.not_waiting hheld hwaiting

/-! ### Submissions and cancellations -/

/-- Submissions and cancellations keep the invariant, if the job is entered only while it is
nowhere. -/
theorem intervene (he : e.isWork = false)
    (hnew : σ.entering e = some key → key ∉ σ.pending ∧ σ.stage.served? ≠ some key) :
    Sound key (σ.next settings e) := by
  obtain ⟨s, hnext, hintervenes⟩ := σ.intervenes settings he
  rw [hnext]
  cases hintervenes with
  | refused => exact h
  | @submit s request job hsubmit =>
    obtain ⟨hwaiting, -⟩ := Store.submit_ok hsubmit
    rw [State.entering_submit hsubmit] at hnew
    have hpending : State.pending { σ with store := s } = σ.pending ++ [job.key] := by
      simp only [State.pending, hwaiting, List.map_append, List.append_assoc]
      rfl
    refine ⟨h.numbered.submit hsubmit, h.owned.submit hsubmit, ?_, fun hserved => ?_⟩
    · rw [hpending, List.count_append]
      -- The job was at no place if it is the one that is entered.
      by_cases hkey : job.key = key
      · rw [List.count_eq_zero.2 (hnew (congrArg some hkey)).1, hkey]
        simp
      · rw [List.count_singleton, if_neg (by simpa using hkey)]
        exact h.once
    · rw [hpending, List.mem_append, List.mem_singleton, not_or]
      exact ⟨h.served hserved, fun hkey => (hnew (congrArg some hkey.symm)).2 hserved⟩
  | @flag _ t =>
    obtain ⟨stopping, hstopping⟩ := σ.store.flag_eq t
    rw [hstopping]
    exact ⟨h.numbered.of_eq rfl rfl, h.owned, h.once, h.served⟩
  | @withdraw _ other job =>
    have hpending : (State.pending
        { σ with store := (σ.store.unqueue other).update job.number Job.cancel }).Sublist
          σ.pending := by
      rw [State.pending, State.pending]
      refine (List.Sublist.refl _).append ?_
      change ((σ.store.unqueue other).waiting.map Ticket.key).Sublist _
      rw [Store.waiting_unqueue]
      exact List.erase_sublist
    have hunqueue : (σ.store.unqueue other).Numbered := h.numbered.of_eq rfl rfl
    refine ⟨hunqueue.update (fun _ => rfl) fun _ => rfl, ?_, ?_, fun hserved hmem => ?_⟩
    · exact Owned.update (s := σ.store.unqueue other) h.owned (fun _ => rfl) fun _ => rfl
    · exact Nat.le_trans (hpending.count_le key) h.once
    · exact h.served hserved (hpending.subset hmem)

/-- Submissions and cancellations leave a job that does not wait, if they do not enter it. -/
theorem aside (settings : Settings) (he : e.isWork = false) (hnew : σ.entering e ≠ some key)
    (haway : key ∉ σ.store.waiting.map Ticket.key) :
    (σ.next settings e).stage = σ.stage ∧
      (σ.next settings e).store.job? key = σ.store.job? key ∧
      key ∉ (σ.next settings e).store.waiting.map Ticket.key := by
  obtain ⟨s, hnext, hintervenes⟩ := σ.intervenes settings he
  rw [hnext]
  refine ⟨rfl, ?_⟩
  dsimp only
  cases hintervenes with
  | refused => exact ⟨rfl, haway⟩
  | @submit _ request job hsubmit =>
    obtain ⟨hwaiting, -, -, hsets, -⟩ := Store.submit_ok hsubmit
    rw [State.entering_submit hsubmit] at hnew
    have hother : key ≠ job.key := fun heq => hnew (congrArg some heq.symm)
    refine ⟨hsets.of_ne hother, ?_⟩
    rw [hwaiting, List.map_append, List.mem_append, not_or]
    exact ⟨haway, fun hmem => hother (List.mem_singleton.1 hmem)⟩
  | @flag _ t =>
    obtain ⟨stopping, hstopping⟩ := σ.store.flag_eq t
    rw [hstopping]
    exact ⟨rfl, haway⟩
  | @withdraw _ other job _ hawaits hjob =>
    have hother : key ≠ other := fun heq => haway (heq ▸ Store.awaits_iff.1 hawaits)
    have hsets : σ.store.Sets ((σ.store.unqueue other).update job.number Job.cancel) other
        job.cancel := h.numbered.sets_update hjob fun _ => rfl
    refine ⟨hsets.of_ne hother, ?_⟩
    change key ∉ (σ.store.unqueue other).waiting.map Ticket.key
    rw [Store.waiting_unqueue]
    exact fun hmem => haway (List.mem_of_mem_erase hmem)

/-! ### Steps of the worker -/

theorem work : Sound key (σ.next settings .work) := by
  have hworks := σ.works settings
  generalize σ.next settings .work = σ' at hworks
  cases hworks with
  | rest => exact h
  | @take s t waiting hwaiting =>
    have hpending : State.pending ⟨{ s with waiting := waiting }, .taken t⟩ =
        State.pending ⟨s, .idle⟩ := by
      simp [State.pending, Stage.taken?, hwaiting]
    exact ⟨h.numbered.of_eq rfl rfl, trivial, hpending ▸ h.once, fun hserved => by cases hserved⟩
  | @start s t job hjob =>
    have honce : (t.key :: s.waiting.map Ticket.key).count key ≤ 1 := h.once
    rw [List.count_cons] at honce
    refine ⟨h.numbered.update (fun _ => rfl) fun _ => rfl, ?_, ?_, fun hserved hmem => ?_⟩
    · have howned : Owned s (.serving t job.number (Worker.serve settings (.object job.request))) :=
        ⟨h.numbered.below _ _ hjob, fun _ _ hfound => h.numbered.distinct _ _ _ _ hfound hjob⟩
      exact howned.update (fun _ => rfl) fun _ => rfl
    · exact Nat.le_trans (Nat.le_add_right ..) honce
    · -- The key that is started now was pending once, so it is not pending any more.
      obtain rfl : t.key = key := Option.some.inj hserved
      have hcount := List.count_pos_iff.2 (show t.key ∈ s.waiting.map Ticket.key from hmem)
      simp only [BEq.rfl, ↓reduceIte] at honce
      omega
  | @drop s t =>
    have honce : (t.key :: s.waiting.map Ticket.key).count key ≤ 1 := h.once
    rw [List.count_cons] at honce
    exact ⟨h.numbered, trivial, Nat.le_trans (Nat.le_add_right ..) honce,
      fun hserved => by cases hserved⟩
  | say => exact ⟨h.numbered, h.owned, h.once, h.served⟩
  | check => exact ⟨h.numbered, h.owned, h.once, h.served⟩
  | @send s t number message rest =>
    have hkey : ∀ job : Job, (job.record message).key = job.key := fun job =>
      job.key_record message
    have hnumber : ∀ job : Job, (job.record message).number = job.number := fun job =>
      job.number_record message
    have howned : Owned s (.serving t number rest) := h.owned
    exact ⟨h.numbered.update hkey hnumber, howned.update hkey hnumber, h.once, h.served⟩
  | release =>
    exact ⟨h.numbered.of_eq rfl rfl, trivial, h.once, fun hserved => by cases hserved⟩

theorem job?_work (settings : Settings) (hheld : σ.stage.held? ≠ some other) :
    (σ.next settings .work).store.job? other = σ.store.job? other := by
  have hworks := σ.works settings
  generalize σ.next settings .work = σ' at hworks
  cases hworks with
  | rest | take | drop | say | check | release => rfl
  | @start s t job hjob =>
    have hsets : s.Sets (s.start job.number) t.key job.start :=
      h.numbered.sets_update hjob fun _ => rfl
    exact hsets.of_ne fun heq => hheld (heq ▸ rfl)
  | @send s t number message rest =>
    have hupdate : (s.record number message).job? other = _ :=
      Store.job?_update fun job => job.key_record message
    refine hupdate.trans ?_
    cases hfound : s.job? other with
    | none => rfl
    | some found =>
      have hnumber : found.number ≠ number := fun hnumber =>
        hheld (congrArg some (h.owned.2 other found hfound hnumber).symm)
      rw [Option.map_some, if_neg hnumber]

end Sound

/-! ### Any event -/

/-- **The invariant is kept by every event**, if the job is entered only while it is nowhere. -/
theorem Sound.next (h : Sound key σ) (settings : Settings) (e : Event)
    (hnew : σ.entering e = some key → key ∉ σ.pending ∧ σ.stage.served? ≠ some key) :
    Sound key (σ.next settings e) := by
  cases he : e.isWork with
  | false => exact h.intervene he hnew
  | true =>
    obtain rfl := Event.eq_work he
    exact h.work

theorem Sound.next_of_ne (h : Sound key σ) (settings : Settings) (hnew : σ.entering e ≠ some key) :
    Sound key (σ.next settings e) :=
  h.next settings e fun hentering => absurd hentering hnew

/-- **The invariant is kept along all events** that do not enter the job. -/
theorem Sound.run (h : Sound key σ) (settings : Settings) (events : List Event)
    (hnew : key ∉ State.along settings State.entering σ events) :
    Sound key (σ.run settings events) := by
  induction events generalizing σ with
  | nil => exact h
  | cons e events ih =>
    rw [State.mem_along_cons, not_or] at hnew
    exact ih (h.next_of_ne settings hnew.1) hnew.2

namespace State

/-- The worker puts no job back. -/
theorem pending_work (h : key ∈ (σ.next settings .work).pending) : key ∈ σ.pending := by
  have hworks := σ.works settings
  generalize σ.next settings .work = σ' at hworks h
  cases hworks with
  | rest | say | send | check | release => exact h
  | take hwaiting =>
    rw [mem_pending_iff] at h ⊢
    refine .inr ?_
    simpa [Stage.taken?, hwaiting, eq_comm] using h
  | start | drop => exact List.mem_cons_of_mem _ h

/-- The worker serves only what it held. -/
theorem served_work (h : (σ.next settings .work).stage.served? = some key) :
    σ.stage.held? = some key := by
  have hworks := σ.works settings
  generalize σ.next settings .work = σ' at hworks h
  cases hworks with
  | rest | take | drop | release => cases h
  | start | say | send | check => exact h

/-- Only a cancellation flags a job, and only one that is known, has not come to its end and does
not wait. -/
theorem isFlagged_of_next (h : (σ.next settings e).store.isFlagged key = true) :
    σ.store.isFlagged key = true ∨
      ∃ id job, e = .cancel id ∧ Key.of? id = some key ∧ σ.store.awaits key = false ∧
        σ.store.job? key = some job ∧ job.status.isFinal = false := by
  cases he : e.isWork with
  | false =>
    obtain ⟨s, hnext, hintervenes⟩ := σ.intervenes settings he
    rw [hnext] at h
    cases hintervenes with
    | refused | withdraw => exact .inl h
    | submit hsubmit =>
      obtain ⟨-, hstopping, -⟩ := Store.submit_ok hsubmit
      simp only [Store.isFlagged, hstopping] at h
      exact .inl h
    | @flag id t job hid haway hjob hfinal =>
      refine (Store.isFlagged_flag.1 h).imp_right ?_
      rintro rfl
      exact ⟨id, job, rfl, hid, haway, hjob, hfinal⟩
  | true =>
    obtain rfl := Event.eq_work he
    have hworks := σ.works settings
    generalize σ.next settings .work = σ' at hworks h
    cases hworks with
    | rest | take | start | drop | say | send | check => exact .inl h
    | release => exact .inl (Store.isFlagged_unflag.1 h).1

/-- Only the worker forgets a flag. -/
theorem isFlagged_next (he : e.isWork = false) (h : σ.store.isFlagged key = true) :
    (σ.next settings e).store.isFlagged key = true := by
  obtain ⟨s, hnext, hintervenes⟩ := σ.intervenes settings he
  rw [hnext]
  cases hintervenes with
  | refused | withdraw => exact h
  | submit hsubmit =>
    obtain ⟨-, hstopping, -⟩ := Store.submit_ok hsubmit
    simp only [Store.isFlagged, hstopping]
    exact h
  | flag => exact Store.isFlagged_flag.2 (.inl h)

end State

end StrategyGraph.Jobs
