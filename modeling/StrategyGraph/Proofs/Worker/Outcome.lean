import StrategyGraph.Proofs.Simulation.Stopped
import StrategyGraph.Proofs.Worker.Report

/-!
# What a worker comes to

A worker sends some messages that are not the last one, and then one that is
(`Worker.Reports.exists_last`). Nobody stopping it, that one is the reply to the request
(`Worker.reply_eq`). A worker that is stopped asks nothing more and reports the beginning of what it
would have reported else (`Worker.serve_stopped`).
-/

namespace StrategyGraph.Worker

open Ledger (endedBefore)
open Routine (Heeds never questions runFrom stopAfter)

variable {settings : Settings} {request : Json}
  {fields : Fields} {sent : List Message} {last : Message}

/-! ### The last message -/

/-- The result that a message brings. -/
def Message.result? : Message → Option Simulation.Result
  | .started => none
  | .complete result => some result
  | .error _ => none

theorem Message.eq_complete {message : Message} {result : Simulation.Result}
    (h : message.result? = some result) : message = .complete result := by
  cases message with
  | started | error problem => cases h
  | complete found =>
    obtain rfl : found = result := Option.some.inj h
    rfl

theorem Reports.exists_last {r : Routine Message Unit} (h : Reports r) (answers : Nat → Bool)
    (asked : Nat) :
    ∃ sent last, (runFrom answers asked r).messages = sent ++ [last] ∧
      (∀ message ∈ sent, message.isTerminal = false) ∧ last.isTerminal = true := by
  induction h generalizing asked with
  | say _ ih => exact ih asked
  | @send message rest hmessage _ ih =>
    obtain ⟨sent, last, hsent, hbefore, hlast⟩ := ih asked
    exact ⟨message :: sent, last, congrArg (message :: ·) hsent,
      List.forall_mem_cons.2 ⟨hmessage, hbefore⟩, hlast⟩
  | check _ ih => exact ih _ (asked + 1)
  | @last message hmessage => exact ⟨[], message, rfl, by simp, hmessage⟩

theorem reply_eq (h : (transcript settings request).messages = sent ++ [last])
    (hlast : last.isTerminal = true) : reply settings request = some last := by
  rw [reply, terminal?, h, List.getLast?_concat, Option.filter_some_pos hlast]

/-! ### Simulations of requests -/

theorem outcome_simulate (settings : Settings) (fields : Fields) (answers : Nat → Bool) :
    ((simulate settings fields).run answers).outcome = (do
      let blueprint ← compile settings (.payload (fields.get "nodes"))
        (.payload (fields.get "edges")) (fields.get "parameters")
      let bars ← Bar.normalize (fields.get "prices")
      let entries ← (fields.get "prices").length
      ((Simulation.run settings (some (withDropped blueprint entries bars.length)) (.ready bars)
        (Simulation.Options.ofRequest settings fields) :
          Routine Message Simulation.Result).run answers).outcome) := by
  unfold simulate Routine.run
  rw [(Routine.Quiet.lift _).outcome_bind]
  congr 1
  funext blueprint
  rw [Routine.outcome_sayAll_bind, (Routine.Quiet.lift _).outcome_bind]
  congr 1
  funext bars
  rw [(Routine.Quiet.lift _).outcome_bind]
  rfl

theorem heeds_simulate (settings : Settings) (fields : Fields) (count : Nat) :
    (simulate settings fields).Heeds count 0
      (Simulation.Result.Cut count ((simulate settings fields).run never).outcome) := by
  have hstarted : (Routine.sending .started : Routine Message Unit).Quiet :=
    Routine.Quiet.send Message.started (.done _)
  rw [outcome_simulate]
  unfold simulate
  refine .quiet_bind (.lift _) (Nat.zero_le _) fun blueprint hblueprint => ?_
  refine .quiet_bind (.sayAll _) (Nat.zero_le _) fun _ _ => ?_
  refine .quiet_bind (.lift _) (Nat.zero_le _) fun bars hbars => ?_
  refine .quiet_bind (.lift _) (Nat.zero_le _) fun entries hentries => ?_
  refine .quiet_bind hstarted (Nat.zero_le _) fun _ _ => ?_
  change compile _ _ _ _ = _ at hblueprint
  change Bar.normalize _ = _ at hbars
  change (fields.get "prices").length = _ at hentries
  rw [hblueprint, hbars, hentries]
  exact Simulation.heeds_run ..

/-! ### Serving requests -/

/-- The last message of a worker whose simulation came to a result or a fault. -/
def lastOf : Except Fault Simulation.Result → Message
  | .ok result => .complete result
  | .error fault => .error (.fault fault)

theorem isTerminal_lastOf (outcome : Except Fault Simulation.Result) :
    (lastOf outcome).isTerminal = true := by
  cases outcome with
  | ok result => rfl
  | error fault => rfl

/-- A worker that has all data runs the simulation, sends what it has come to, and asks nothing
else. -/
theorem runFrom_serve (settings : Settings) (answers : Nat → Bool) (hdata : hasData fields = true) :
    ((serve settings (.object fields)).run answers).messages =
        ((simulate settings fields).run answers).messages ++
          [lastOf ((simulate settings fields).run answers).outcome] ∧
      questions answers 0 (serve settings (.object fields)) =
        questions answers 0 (simulate settings fields) := by
  rw [serve, if_pos hdata, Routine.attempt_bind, Routine.run, Routine.messages_andThen,
    Routine.questions_andThen, Routine.run]
  cases (runFrom answers 0 (simulate settings fields)).outcome with
  | ok result => exact ⟨rfl, rfl⟩
  | error fault => exact ⟨rfl, rfl⟩

theorem outcome_of_reply {full : Simulation.Result} (hdata : hasData fields = true)
    (h : reply settings (.object fields) = some (.complete full)) :
    ((simulate settings fields).run never).outcome = .ok full := by
  have hmessages := (runFrom_serve settings never hdata).1
  rw [reply_eq hmessages (isTerminal_lastOf _)] at h
  cases houtcome : ((simulate settings fields).run never).outcome with
  | ok result =>
    rw [houtcome] at h
    cases h
    rfl
  | error fault =>
    rw [houtcome] at h
    cases h

theorem reply_not_cancelled {result : Simulation.Result}
    (h : reply settings request = some (.complete result)) : result.failure ≠ some .cancelled := by
  cases request with
  | object fields =>
    cases hdata : hasData fields with
    | false =>
      rw [reply, transcript, serve, if_neg (by simp [hdata])] at h
      cases h
    | true =>
      have houtcome := outcome_of_reply hdata h
      rw [outcome_simulate] at houtcome
      obtain ⟨blueprint, -, houtcome⟩ := bind_eq_ok.1 houtcome
      obtain ⟨bars, -, houtcome⟩ := bind_eq_ok.1 houtcome
      obtain ⟨entries, -, houtcome⟩ := bind_eq_ok.1 houtcome
      exact Simulation.not_cancelled houtcome
  | null | bool b | number n | string text | array items => cases h

/-- **A worker that is stopped asks nothing more.** It reports a cancelled result, which begins like
the one in the reply to the request. -/
theorem serve_stopped (settings : Settings) (request : Json) (count : Nat) :
    questions (stopAfter count) 0 (serve settings request) ≤ count ∨
      questions (stopAfter count) 0 (serve settings request) = count + 1 ∧
        ∃ sent result,
          ((serve settings request).run (stopAfter count)).messages = sent ++ [.complete result] ∧
          (∀ message ∈ sent, message.isTerminal = false) ∧
          result.failure = some .cancelled ∧
          ∀ full, reply settings request = some (.complete full) →
            result.equity = full.equity.take count ∧
              result.trades = endedBefore count full.trades := by
  cases request with
  | object fields =>
    cases hdata : hasData fields with
    | false =>
      rw [serve, if_neg (by simp [hdata])]
      exact .inl (Nat.zero_le _)
    | true =>
      obtain ⟨hmessages, hquestions⟩ := runFrom_serve settings (stopAfter count) hdata
      rw [hquestions, hmessages]
      rcases heeds_simulate settings fields count with hless | ⟨hcount, result, hresult, hcut⟩
      · exact .inl (by omega)
      · rw [Routine.run, hresult, lastOf]
        exact .inr ⟨by omega, _, result, rfl, (sends_simulate settings fields).mem_messages,
          hcut.failure, fun full hfull => hcut.begins full (outcome_of_reply hdata hfull)⟩
  | null | bool b | number n | string text | array items => exact .inl (Nat.zero_le _)

end StrategyGraph.Worker
