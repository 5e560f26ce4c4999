import StrategyGraph.Routine

/-!
# What routines come to

The outcome of a run of a routine depends on the answers to its questions alone.

* `Routine.outcome_bind` : the outcome of a routine that goes on is that of its first part, followed
  by that of the rest, whose questions are numbered on from the first part's;
* `Routine.Quiet` routines ask nothing, so that they come to the same with all answers
  (`Routine.Quiet.outcome_eq`);
* `Routine.Sends` : whatever the answers, a routine sends only messages with a property.
-/

namespace StrategyGraph

namespace Routine

variable {μ α β : Type}

/-- The number of questions that a run asks. -/
def questions (answers : Nat → Bool) (asked : Nat) : Routine μ α → Nat
  | done _ => 0
  | say _ next => questions answers asked next
  | send _ next => questions answers asked next
  | check resume => questions answers (asked + 1) (resume (answers asked)) + 1

/-- The routine asks nothing. -/
inductive Quiet : Routine μ α → Prop where
  | done (outcome : Except Fault α) : Quiet (done outcome)
  | say (record : Log.Record) {next : Routine μ α} (h : Quiet next) : Quiet (say record next)
  | send (message : μ) {next : Routine μ α} (h : Quiet next) : Quiet (send message next)

/-- The routine sends only messages with the property. -/
inductive Sends (p : μ → Prop) : Routine μ α → Prop where
  | done (outcome : Except Fault α) : Sends p (done outcome)
  | say (record : Log.Record) {next : Routine μ α} (h : Sends p next) : Sends p (say record next)
  | send {message : μ} (hp : p message) {next : Routine μ α} (h : Sends p next) :
      Sends p (send message next)
  | check {resume : Bool → Routine μ α} (h : ∀ stop, Sends p (resume stop)) :
      Sends p (check resume)

variable {answers : Nat → Bool} {asked : Nat}

/-! ### Outcomes -/

/-- A routine that goes on leaves behind what its first part does, and then what the rest does. -/
theorem runFrom_andThen (r : Routine μ α) (next : Except Fault α → Routine μ β) :
    runFrom answers asked (r.andThen next) =
      let first := runFrom answers asked r
      let rest := runFrom answers (asked + questions answers asked r) (next first.outcome)
      ⟨first.log ++ rest.log, first.messages ++ rest.messages, rest.outcome⟩ := by
  induction r generalizing asked with
  | done outcome => rfl
  | say record rest ih =>
    rw [andThen, runFrom, ih]
    rfl
  | send message rest ih =>
    rw [andThen, runFrom, ih]
    rfl
  | check resume ih =>
    simp only [andThen, runFrom, questions]
    rw [ih, show asked + (questions answers (asked + 1) (resume (answers asked)) + 1) =
      asked + 1 + questions answers (asked + 1) (resume (answers asked)) by omega]

theorem outcome_andThen (r : Routine μ α) (next : Except Fault α → Routine μ β) :
    (runFrom answers asked (r.andThen next)).outcome =
      (runFrom answers (asked + questions answers asked r)
        (next (runFrom answers asked r).outcome)).outcome := by
  rw [runFrom_andThen]

theorem messages_andThen (r : Routine μ α) (next : Except Fault α → Routine μ β) :
    (runFrom answers asked (r.andThen next)).messages =
      (runFrom answers asked r).messages ++
        (runFrom answers (asked + questions answers asked r)
          (next (runFrom answers asked r).outcome)).messages := by
  rw [runFrom_andThen]

theorem questions_andThen (r : Routine μ α) (next : Except Fault α → Routine μ β) :
    questions answers asked (r.andThen next) =
      questions answers asked r +
        questions answers (asked + questions answers asked r)
          (next (runFrom answers asked r).outcome) := by
  induction r generalizing asked with
  | done outcome => exact (Nat.zero_add _).symm
  | say record rest ih => exact ih
  | send message rest ih => exact ih
  | check resume ih =>
    simp only [andThen, runFrom, questions]
    rw [ih, show asked + (questions answers (asked + 1) (resume (answers asked)) + 1) =
      asked + 1 + questions answers (asked + 1) (resume (answers asked)) by omega]
    omega

theorem outcome_bind (r : Routine μ α) (next : α → Routine μ β) :
    (runFrom answers asked (r >>= next)).outcome =
      (runFrom answers asked r).outcome >>= fun a =>
        (runFrom answers (asked + questions answers asked r) (next a)).outcome := by
  refine (outcome_andThen r _).trans ?_
  cases (runFrom answers asked r).outcome with
  | ok a => rfl
  | error fault => rfl

theorem questions_bind (r : Routine μ α) (next : α → Routine μ β) :
    questions answers asked (r >>= next) =
      questions answers asked r +
        match (runFrom answers asked r).outcome with
        | .ok a => questions answers (asked + questions answers asked r) (next a)
        | .error _ => 0 := by
  refine (questions_andThen r _).trans ?_
  cases (runFrom answers asked r).outcome with
  | ok a => rfl
  | error fault => rfl

theorem exists_of_outcome_bind {r : Routine μ α} {next : α → Routine μ β} {b : β}
    (h : (runFrom answers asked (r >>= next)).outcome = .ok b) :
    ∃ a later, (runFrom answers asked r).outcome = .ok a ∧
      (runFrom answers later (next a)).outcome = .ok b := by
  rw [outcome_bind] at h
  cases hr : (runFrom answers asked r).outcome with
  | ok a =>
    rw [hr] at h
    exact ⟨a, _, rfl, h⟩
  | error fault =>
    rw [hr] at h
    cases h

@[simp]
theorem outcome_pure (a : α) : (runFrom answers asked (pure a : Routine μ α)).outcome = .ok a := rfl

@[simp]
theorem outcome_stops : (runFrom answers asked (stops : Routine μ Bool)).outcome =
    .ok (answers asked) := rfl

@[simp]
theorem questions_stops : questions answers asked (stops : Routine μ Bool) = 1 := rfl

theorem lift_ok_bind (a : α) (next : α → Routine μ β) :
    (liftM (.ok a : Except Fault α) : Routine μ α) >>= next = next a := rfl

/-! ### Quiet routines -/

namespace Quiet

theorem questions_eq_zero {r : Routine μ α} (h : r.Quiet) : questions answers asked r = 0 := by
  induction h with
  | done outcome => rfl
  | say record _ ih => exact ih
  | send message _ ih => exact ih

/-- All answers lead to the same outcome. -/
theorem outcome_eq {r : Routine μ α} (h : r.Quiet) :
    (runFrom answers asked r).outcome = (r.run never).outcome := by
  unfold run
  induction h with
  | done outcome => rfl
  | say record _ ih => exact ih
  | send message _ ih => exact ih

theorem lift (outcome : Except Fault α) : (liftM outcome : Routine μ α).Quiet := .done outcome

theorem pure (a : α) : (Pure.pure a : Routine μ α).Quiet := .done (.ok a)

theorem bind {r : Routine μ α} {next : α → Routine μ β} (hr : r.Quiet)
    (hnext : ∀ a, (next a).Quiet) : (r >>= next).Quiet := by
  induction hr with
  | done outcome =>
    cases outcome with
    | ok a => exact hnext a
    | error fault => exact .done (.error fault)
  | say record _ ih => exact .say record ih
  | send message _ ih => exact .send message ih

theorem sayAll (records : List Log.Record) : (Routine.sayAll records : Routine μ Unit).Quiet := by
  induction records with
  | nil => exact .done (.ok ())
  | cons record records ih => exact .say record ih

/-- A quiet routine leaves the numbers of later questions as they are. -/
theorem outcome_bind {r : Routine μ α} {next : α → Routine μ β} (h : r.Quiet) :
    (runFrom answers asked (r >>= next)).outcome =
      (r.run never).outcome >>= fun a => (runFrom answers asked (next a)).outcome := by
  rw [Routine.outcome_bind, h.outcome_eq, h.questions_eq_zero, Nat.add_zero]

end Quiet

@[simp]
theorem outcome_sayAll_bind (records : List Log.Record) (next : Unit → Routine μ α) :
    (runFrom answers asked (sayAll records >>= next)).outcome =
      (runFrom answers asked (next ())).outcome := by
  induction records with
  | nil => rfl
  | cons record records ih => exact ih

/-! ### Messages -/

@[simp]
theorem messages_sayAll_bind (records : List Log.Record) (next : Unit → Routine μ α) :
    (runFrom answers asked (sayAll records >>= next)).messages =
      (runFrom answers asked (next ())).messages := by
  induction records with
  | nil => rfl
  | cons record records ih => exact ih

theorem attempt_bind (r : Routine μ α) (next : Except Fault α → Routine μ β) :
    r.attempt >>= next = r.andThen next := by
  induction r with
  | done outcome => rfl
  | say record rest ih => exact congrArg (say record) ih
  | send message rest ih => exact congrArg (send message) ih
  | check resume ih => exact congrArg check (funext ih)

namespace Sends

variable {p : μ → Prop}

theorem andThen {r : Routine μ α} {next : Except Fault α → Routine μ β} (hr : r.Sends p)
    (hnext : ∀ outcome, (next outcome).Sends p) : (r.andThen next).Sends p := by
  induction hr with
  | done outcome => exact hnext outcome
  | say record _ ih => exact .say record ih
  | send hp _ ih => exact .send hp ih
  | check _ ih => exact .check ih

theorem bind {r : Routine μ α} {next : α → Routine μ β} (hr : r.Sends p)
    (hnext : ∀ a, (next a).Sends p) : (r >>= next).Sends p := by
  refine hr.andThen fun outcome => ?_
  cases outcome with
  | ok a => exact hnext a
  | error fault => exact .done (.error fault)

theorem lift (outcome : Except Fault α) : (liftM outcome : Routine μ α).Sends p := .done outcome

theorem mem_messages {r : Routine μ α} (h : r.Sends p) :
    ∀ message ∈ (runFrom answers asked r).messages, p message := by
  induction h generalizing asked with
  | done outcome => simp [runFrom]
  | say record _ ih => exact ih
  | send hp _ ih => exact List.forall_mem_cons.2 ⟨hp, ih⟩
  | check _ ih => exact ih _

theorem pure (a : α) : (Pure.pure a : Routine μ α).Sends p := .done (.ok a)

theorem stops : (Routine.stops : Routine μ Bool).Sends p := .check fun stop => .done (.ok stop)

theorem sayAll (records : List Log.Record) : (Routine.sayAll records : Routine μ Unit).Sends p := by
  induction records with
  | nil => exact .done (.ok ())
  | cons record records ih => exact .say record ih

end Sends

end Routine

end StrategyGraph
