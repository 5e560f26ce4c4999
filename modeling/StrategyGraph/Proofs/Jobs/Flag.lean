import StrategyGraph.Proofs.Jobs.Passage

/-!
# What a job is answered

A job that asks whether to stop is told whether it is flagged.

* `answers_false` : a job that is not flagged and that nobody cancels is always told to go on;
* `Doomed` : a job that is flagged for as long as the worker holds it, so that it is always told to
  stop (`Doomed.answers`);
* `Steady` : a job is told to go on some number of times, and from then on to stop.
-/

namespace StrategyGraph.Jobs

variable {settings : Settings} {σ : State} {key : Key} {given : List Bool} {e : Event} {stop : Bool}

namespace State

/-- A job is told whether it is flagged. -/
theorem answering_eq_some (h : σ.answering key e = some stop) :
    stop = σ.store.isFlagged key ∧ σ.stage.held? = some key := by
  have hserved : σ.stage.served? = some key := Decidable.byContradiction fun hserved => by
    cases h.symm.trans (answering_eq_none hserved)
  refine ⟨?_, Stage.held?_eq_some.2 (.inr hserved)⟩
  obtain ⟨s, stage⟩ := σ
  cases e with
  | submit request | cancel id => cases h
  | work =>
    cases stage with
    | idle | taken t => cases h
    | serving t number rest =>
      obtain rfl : t.key = key := Option.some.inj hserved
      cases rest with
      | done outcome | say record rest | send message rest => cases h
      | check resume => exact (Option.some.inj ((if_pos rfl).symm.trans h)).symm

end State

/-- A job that is not flagged and that nobody cancels is always told to go on. -/
theorem answers_false (settings : Settings) (events : List Event)
    (h : σ.store.isFlagged key = false)
    (hnever : ∀ id, .cancel id ∈ events → Key.of? id ≠ some key) :
    ∀ stop ∈ State.along settings (State.answering key) σ events, stop = false := by
  induction events generalizing σ with
  | nil => simp [State.along]
  | cons e events ih =>
    intro stop hstop
    rcases State.mem_along_cons.1 hstop with hnow | hlater
    · exact (State.answering_eq_some hnow).1.trans h
    · refine ih ?_ (fun id hid => hnever id (List.mem_cons_of_mem _ hid)) stop hlater
      rw [← Bool.not_eq_true]
      intro hflagged
      rcases State.isFlagged_of_next hflagged with hbefore | ⟨id, -, rfl, hid, -⟩
      · rw [h] at hbefore
        cases hbefore
      · exact hnever id List.mem_cons_self hid

/-! ### Jobs that are to stop -/

/-- The job with a key does not wait, and it is flagged if the worker holds it. -/
structure Doomed (key : Key) (σ : State) : Prop where
  waiting : key ∉ σ.store.waiting.map Ticket.key
  flagged : σ.stage.held? = some key → σ.store.isFlagged key = true

/-- The worker forgets a flag only when it is done with the job. -/
theorem Doomed.next (h : Doomed key σ) (hσ : Sound key σ) (e : Event)
    (hnew : σ.entering e ≠ some key) : Doomed key (σ.next settings e) := by
  cases he : e.isWork with
  | false =>
    obtain ⟨hstage, -, hwaiting⟩ := hσ.aside settings he hnew h.waiting
    exact ⟨hwaiting, fun hheld => State.isFlagged_next he (h.flagged (hstage ▸ hheld))⟩
  | true =>
    obtain rfl := Event.eq_work he
    have hworks := σ.works settings
    generalize σ.next settings .work = σ' at hworks
    cases hworks with
    | rest | say | send | check | start => exact ⟨h.waiting, h.flagged⟩
    | drop | release => exact ⟨h.waiting, fun hheld => by cases hheld⟩
    | take hwaiting =>
      have haway := h.waiting
      rw [hwaiting, List.map_cons, List.mem_cons, not_or] at haway
      exact ⟨haway.2, fun hheld => absurd (Option.some.inj hheld).symm haway.1⟩

theorem Doomed.answers (h : Doomed key σ) (hσ : Sound key σ) (events : List Event)
    (hnew : key ∉ State.along settings State.entering σ events) :
    ∀ stop ∈ State.along settings (State.answering key) σ events, stop = true := by
  induction events generalizing σ with
  | nil => simp [State.along]
  | cons e events ih =>
    intro stop hstop
    rw [State.mem_along_cons, not_or] at hnew
    rcases State.mem_along_cons.1 hstop with hnow | hlater
    · obtain ⟨rfl, hheld⟩ := State.answering_eq_some hnow
      exact h.flagged hheld
    · exact ih (h.next hσ e hnew.1) (hσ.next_of_ne settings hnew.1) hnew.2 stop hlater

/-! ### Jobs that are told to go on, and then to stop -/

/-- A job was told to go on some number of times, and from then on to stop. -/
def Steady (key : Key) (given : List Bool) (σ : State) : Prop :=
  ∃ going stopping, given = List.replicate going false ++ List.replicate stopping true ∧
    (0 < stopping → Doomed key σ)

theorem Steady.start (key : Key) (σ : State) : Steady key [] σ :=
  ⟨0, 0, rfl, fun hpos => absurd hpos (Nat.lt_irrefl 0)⟩

theorem Steady.next (h : Steady key given σ) (hσ : Sound key σ) (e : Event)
    (hnew : σ.entering e ≠ some key) :
    Steady key (given ++ (σ.answering key e).toList) (σ.next settings e) := by
  obtain ⟨going, stopping, rfl, hdoomed⟩ := h
  cases hanswer : σ.answering key e with
  | none =>
    rw [Option.toList_none, List.append_nil]
    exact ⟨going, stopping, rfl, fun hpos => (hdoomed hpos).next hσ e hnew⟩
  | some stop =>
    -- The answer is the flag, and a flag stays as long as the worker holds the job.
    obtain ⟨hstop, hheld⟩ := State.answering_eq_some hanswer
    rw [Option.toList_some, List.append_assoc]
    cases stop with
    | true =>
      have hnow : Doomed key σ := ⟨hσ.not_waiting hheld, fun _ => hstop.symm⟩
      refine ⟨going, stopping + 1, ?_, fun _ => hnow.next hσ e hnew⟩
      rw [List.replicate_succ']
    | false =>
      -- A job that was told to stop is flagged.
      obtain rfl : stopping = 0 := Nat.eq_zero_of_not_pos fun hpos => by
        cases hstop.trans ((hdoomed hpos).flagged hheld)
      refine ⟨going + 1, 0, ?_, fun hpos => absurd hpos (Nat.lt_irrefl 0)⟩
      simp [List.replicate_succ']

/-- **A job is told to go on some number of times, and from then on to stop.** -/
theorem Steady.run (h : Steady key given σ) (hσ : Sound key σ) (events : List Event)
    (hnew : key ∉ State.along settings State.entering σ events) :
    Steady key (given ++ State.along settings (State.answering key) σ events)
      (σ.run settings events) := by
  induction events generalizing σ given with
  | nil => exact (List.append_nil given).symm ▸ h
  | cons e events ih =>
    rw [State.mem_along_cons, not_or] at hnew
    rw [State.along, ← List.append_assoc]
    exact ih (h.next hσ e hnew.1) (hσ.next_of_ne settings hnew.1) hnew.2

end StrategyGraph.Jobs
