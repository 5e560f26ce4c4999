import StrategyGraph.Proofs.Routine

/-!
# The course of a routine

* `Routine.Leads` : a routine has sent some messages, was given some answers, and goes on with a
  rest. Whoever gives the answers one by one comes to the same as a run that has them at hand
  (`Leads.messages_eq`, `Leads.questions_eq`);
* `Routine.depth` : the longest way to the end of a routine;
* `Routine.Heeds` : a routine that is stopped asks nothing more and comes to a value with a
  property.
-/

namespace StrategyGraph

namespace Routine

variable {μ α β : Type}

/-! ### On the way -/

/-- The routine has sent messages, was given answers, and goes on with the rest. -/
inductive Leads (r : Routine μ α) : List μ → List Bool → Routine μ α → Prop where
  | start : Leads r [] [] r
  | say {sent : List μ} {given : List Bool} {record : Log.Record} {rest : Routine μ α}
      (h : Leads r sent given (say record rest)) : Leads r sent given rest
  | send {sent : List μ} {given : List Bool} {message : μ} {rest : Routine μ α}
      (h : Leads r sent given (send message rest)) : Leads r (sent ++ [message]) given rest
  | check {sent : List μ} {given : List Bool} {resume : Bool → Routine μ α} (stop : Bool)
      (h : Leads r sent given (check resume)) : Leads r sent (given ++ [stop]) (resume stop)

/-- The first answers are those that were given. -/
def Answers (answers : Nat → Bool) (given : List Bool) : Prop :=
  ∀ i stop, given[i]? = some stop → answers i = stop

variable {answers : Nat → Bool} {r rest : Routine μ α} {sent : List μ} {given more : List Bool}
  {outcome : Except Fault α}

theorem Answers.of_append (h : Answers answers (given ++ more)) : Answers answers given :=
  fun i stop hi => h i stop (by
    rw [List.getElem?_append_left (List.getElem?_eq_some_iff.1 hi).1, hi])

/-- There is someone who gives the answers. -/
theorem exists_answers (given : List Bool) : ∃ answers, Answers answers given :=
  ⟨fun i => given[i]?.getD false, fun i stop hi => by simp [hi]⟩

theorem answers_never (h : ∀ stop ∈ given, stop = false) : Answers never given :=
  fun _ stop hi => (h stop (List.mem_of_getElem? hi)).symm

namespace Leads

/-- What a routine leaves behind is what it has left on its way, and then what the rest does. -/
theorem runFrom_eq (h : Leads r sent given rest) (hanswers : Answers answers given) :
    (r.run answers).messages = sent ++ (runFrom answers given.length rest).messages ∧
      questions answers 0 r = given.length + questions answers given.length rest := by
  induction h with
  | start => exact ⟨rfl, (Nat.zero_add _).symm⟩
  | say _ ih => exact ih hanswers
  | send _ ih =>
    obtain ⟨hmessages, hquestions⟩ := ih hanswers
    exact ⟨by rw [hmessages, List.append_assoc]; rfl, hquestions⟩
  | @check sent given resume stop _ ih =>
    obtain ⟨hmessages, hquestions⟩ := ih hanswers.of_append
    have hstop : answers given.length = stop := hanswers _ _ List.getElem?_concat_length
    rw [runFrom, hstop] at hmessages
    rw [questions, hstop] at hquestions
    rw [List.length_append, List.length_singleton]
    exact ⟨hmessages, by omega⟩

variable (h : Leads r sent given (.done outcome)) (hanswers : Answers answers given)
include h hanswers

theorem messages_eq : (r.run answers).messages = sent := by
  rw [(h.runFrom_eq hanswers).1, runFrom, List.append_nil]

theorem questions_eq : questions answers 0 r = given.length := (h.runFrom_eq hanswers).2

end Leads

/-- The length of the longest way to the end. -/
def depth : Routine μ α → Nat
  | done _ => 0
  | say _ next => next.depth + 1
  | send _ next => next.depth + 1
  | check resume => max (resume true).depth (resume false).depth + 1

theorem depth_resume_lt (resume : Bool → Routine μ α) (stop : Bool) :
    (resume stop).depth < (check resume).depth := by
  have hmax : (resume stop).depth ≤ max (resume true).depth (resume false).depth := by
    cases stop with
    | true => exact Nat.le_max_left ..
    | false => exact Nat.le_max_right ..
  exact Nat.lt_succ_of_le hmax

/-! ### Stopping -/

/-- Stopped after a number of questions, the routine asks no more of them and comes to a value with
the property, unless it has come to its end before. -/
def Heeds (count asked : Nat) (p : α → Prop) (r : Routine μ α) : Prop :=
  asked + questions (stopAfter count) asked r ≤ count ∨
    asked + questions (stopAfter count) asked r = count + 1 ∧
      ∃ a, (runFrom (stopAfter count) asked r).outcome = .ok a ∧ p a

namespace Heeds

variable {count asked : Nat} {p : α → Prop} {q : β → Prop} {next : α → Routine μ β}

theorem of_quiet (h : r.Quiet) (hasked : asked ≤ count) : r.Heeds count asked p := by
  rw [Heeds, h.questions_eq_zero]
  exact .inl hasked

theorem imp {p' : α → Prop} {r : Routine μ α} (h : r.Heeds count asked p)
    (himp : ∀ a, (runFrom (stopAfter count) asked r).outcome = .ok a → p a → p' a) :
    r.Heeds count asked p' :=
  Or.imp_right (And.imp_right fun ⟨a, ha, hp⟩ => ⟨a, ha, himp a ha hp⟩) h

/-- A routine heeds that asks once and ends if it is to stop. -/
theorem stops_bind {next : Bool → Routine μ β} (hasked : asked ≤ count)
    (hstop : ∃ b, next true = pure b ∧ q b)
    (hgo : asked < count → (next false).Heeds count (asked + 1) q) :
    (stops >>= next).Heeds count asked q := by
  have hquestions : ∀ stop, stopAfter count asked = stop →
      asked + questions (stopAfter count) asked (stops >>= next) =
        asked + 1 + questions (stopAfter count) (asked + 1) (next stop) := by
    rintro stop rfl
    simp only [questions_bind, questions_stops, outcome_stops, Nat.add_assoc]
  have houtcome : ∀ stop, stopAfter count asked = stop →
      (runFrom (stopAfter count) asked (stops >>= next)).outcome =
        (runFrom (stopAfter count) (asked + 1) (next stop)).outcome := by
    rintro stop rfl
    rw [outcome_bind, outcome_stops, questions_stops]
    rfl
  rcases Nat.lt_or_eq_of_le hasked with hlt | rfl
  · have hfalse : stopAfter count asked = false := decide_eq_false (Nat.not_le.2 hlt)
    rw [Heeds, hquestions false hfalse, houtcome false hfalse]
    exact hgo hlt
  · have htrue : stopAfter asked asked = true := decide_eq_true (Nat.le_refl _)
    obtain ⟨b, hb, hqb⟩ := hstop
    rw [Heeds, hquestions true htrue, houtcome true htrue, hb]
    exact .inr ⟨rfl, b, rfl, hqb⟩

/-- What is heeded after a quiet part is heeded. -/
theorem quiet_bind {r : Routine μ α} (h : r.Quiet) (hasked : asked ≤ count)
    (hnext : ∀ a, (r.run never).outcome = .ok a → (next a).Heeds count asked q) :
    (r >>= next).Heeds count asked q := by
  rw [Heeds, questions_bind, h.outcome_bind, h.outcome_eq, h.questions_eq_zero]
  cases hr : (r.run never).outcome with
  | error fault => exact .inl hasked
  | ok a =>
    simp only [Nat.zero_add, Nat.add_zero]
    exact hnext a hr

theorem bind_quiet {r : Routine μ α} (h : r.Heeds count asked p) (hnext : ∀ a, (next a).Quiet)
    (hq : ∀ a, p a → ∃ b, ((next a).run never).outcome = .ok b ∧ q b) :
    (r >>= next).Heeds count asked q := by
  have hquestions : questions (stopAfter count) asked (r >>= next) =
      questions (stopAfter count) asked r := by
    rw [questions_bind]
    cases (runFrom (stopAfter count) asked r).outcome with
    | error fault => rfl
    | ok a => exact congrArg _ (hnext a).questions_eq_zero
  rw [Heeds, hquestions]
  refine h.imp_right fun ⟨hcount, a, ha, hp⟩ => ⟨hcount, ?_⟩
  obtain ⟨b, hb, hqb⟩ := hq a hp
  refine ⟨b, ?_, hqb⟩
  rw [outcome_bind, ha]
  exact (hnext a).outcome_eq.trans hb

end Heeds

end Routine

end StrategyGraph
