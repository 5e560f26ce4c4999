import StrategyGraph.Proofs.Routine.Course
import StrategyGraph.Proofs.Simulation.Cancel

/-!
# Simulations heed a stop

A simulation that is stopped asks nothing more. It comes to a cancelled result, which begins like
that of the simulation that is not stopped (`Simulation.heeds_run`). A simulation that is not
stopped comes to no cancelled result (`Simulation.not_cancelled`).
-/

namespace StrategyGraph

open Routine (never)

theorem Ledger.Trader.Attentive.heeds_play {α μ : Type} [Sub α] [Mul α] [Div α] [NatCast α]
    {trader : Trader (Routine μ) α} (ht : trader.Attentive) (fee : α) (a : Account α)
    {index count : Nat} (prices : List α) (hindex : index ≤ count) :
    (a.play fee trader index prices).Heeds count index fun played => played.stopped = true := by
  induction prices generalizing a index with
  | nil => exact .of_quiet (.pure _) hindex
  | cons price prices ih =>
    simp only [Account.play]
    rw [ht.stops]
    refine .stops_bind hindex ⟨⟨a, true⟩, rfl, rfl⟩ fun hlt => ?_
    exact .quiet_bind (ht.quiet_decision ..) hlt fun acts _ => ih _ hlt

namespace Simulation

open Ledger (endedBefore)

variable {μ : Type} {settings : Settings} {blueprint : Option Blueprint} {prices : Supply Bar}
  {options : Options} {whole result : Result} {count : Nat}

/-- The result is cancelled. If the whole simulation comes to a result, then this one begins like
that: the equity is that of the first bars, and the trades are those that have ended there. -/
structure Result.Cut (count : Nat) (whole : Except Fault Result) (result : Result) : Prop where
  failure : result.failure = some .cancelled
  begins : ∀ full, whole = .ok full →
    result.equity = full.equity.take count ∧ result.trades = endedBefore count full.trades

theorem Setup.not_stopped {s : Setup} {series : List (String × Series Float)}
    {statement : Ledger.Statement Float} (h : s.statement series never = .ok statement) :
    statement.stopped = false := by
  obtain ⟨played, hplayed, rfl⟩ := Ledger.run_eq_ok.1 h
  exact Ledger.Account.stopped_play hplayed fun _ _ _ => rfl

/-! ### Who is not stopped is not cancelled -/

/-- Terms that are refused are no numbers or out of their ranges. -/
theorem Terms.failsOnly_read {p : Failure → Prop} (hnumbers : p .notNumbers)
    (hfee : ∀ percent, p (.feeOutOfRange percent))
    (hcapital : ∀ capital, p (.capitalNotPositive capital)) (options : Options) :
    FailsOnly p (Terms.read options) := by
  have hnumber : ∀ j, FailsOnly p (ExceptT.mk (Terms.readNumber j)) := by
    intro j failure h
    change Terms.readNumber j = _ at h
    unfold Terms.readNumber at h
    split at h
    · cases h
    · cases h
    · cases h
      exact hnumbers
  refine (hnumber _).bind fun percent => (hnumber _).bind fun capital => ?_
  intro failure h
  obtain h : Terms.check percent capital = .error failure := Except.ok.inj h
  unfold Terms.check at h
  split at h
  · cases h
    exact hfee percent
  · split at h
    · cases h
      exact hcapital capital
    · cases h

theorem failsOnly_readBarsFrom (index : Nat) (previous : Option Bar) (entries : List (Json ⊕ Bar)) :
    FailsOnly (fun failure => failure ≠ .cancelled) (readBarsFrom index previous entries) := by
  induction entries generalizing index previous with
  | nil => exact .pure _
  | cons entry entries ih =>
    refine FailsOnly.bind ?_ fun bar => (ih _ _).bind fun bars => .pure _
    intro failure h
    obtain ⟨read, -, h⟩ := map_eq_ok.1 h
    unfold checkBar at h
    split at h
    · cases h
      exact Failure.noConfusion
    · split at h
      · cases h
        exact Failure.noConfusion
      · split at h
        · cases h
        · cases h
          exact Failure.noConfusion

/-- No setup is refused as cancelled. -/
theorem Setup.read_ne_cancelled {refusal : Refusal}
    (h : (Setup.read settings blueprint prices options).run = .ok (.error refusal)) :
    refusal.failure ≠ .cancelled := by
  cases Setup.read_iff.1 h with
  | badTerms hterms =>
    exact Terms.failsOnly_read (p := fun failure => failure ≠ .cancelled) Failure.noConfusion
      (fun _ => Failure.noConfusion) (fun _ => Failure.noConfusion) options _ hterms
  | badEntry _ _ _ hbars => exact failsOnly_readBarsFrom 0 none _ _ hbars
  | noBlueprint | noPrices | tooFewBars | noEntry => exact Failure.noConfusion

theorem not_cancelled
    (h : ((run settings blueprint prices options : Routine μ Result).run never).outcome =
      .ok result) : result.failure ≠ some .cancelled := by
  rw [outcome_run] at h
  obtain ⟨r, hr, h⟩ := bind_eq_ok.1 h
  cases r with
  | error refusal =>
    obtain rfl : _ = result := Except.ok.inj h
    exact fun hfailure => Setup.read_ne_cancelled hr (Option.some.inj hfailure)
  | ok s =>
    change ((s.run settings : Routine μ Result).run never).outcome = _ at h
    rw [Setup.outcome_run] at h
    obtain ⟨series, -, h⟩ := bind_eq_ok.1 h
    obtain ⟨statement, hstatement, h⟩ := bind_eq_ok.1 h
    obtain rfl : _ = result := Except.ok.inj h
    simp [Result.ofStatement, Setup.not_stopped hstatement]

/-! ### Who is stopped -/

/-- A setup that is cancelled comes to the beginning of what it comes to else. -/
theorem Setup.cut_run {s : Setup}
    (h : ((s.run settings : Routine μ Result).run (Routine.stopAfter count)).outcome = .ok result)
    (hfailure : result.failure = some .cancelled) :
    result.Cut count ((s.run settings : Routine μ Result).run never).outcome := by
  refine ⟨hfailure, fun full hfull => ?_⟩
  rw [Setup.outcome_run] at h hfull
  obtain ⟨series, hseries, h⟩ := bind_eq_ok.1 h
  obtain ⟨statement, hstatement, h⟩ := bind_eq_ok.1 h
  obtain rfl : _ = result := Except.ok.inj h
  obtain ⟨series', hseries', hfull⟩ := bind_eq_ok.1 hfull
  obtain rfl : series = series' := Except.ok.inj (hseries.symm.trans hseries')
  obtain ⟨whole, hwhole, hfull⟩ := bind_eq_ok.1 hfull
  obtain rfl : _ = full := Except.ok.inj hfull
  rcases Nat.lt_or_ge count s.bars.length with hcount | hcount
  · obtain rfl : _ = statement :=
      Except.ok.inj ((Setup.statement_stopAfter hwhole hcount).symm.trans hstatement)
    exact ⟨rfl, rfl⟩
  · rw [s.statement_not_stopped series hcount] at hstatement
    simp [Result.ofStatement, Setup.not_stopped hstatement] at hfailure

theorem Setup.heeds_run (s : Setup) (count : Nat) :
    (s.run settings : Routine μ Result).Heeds count 0
      (Result.Cut count ((s.run settings : Routine μ Result).run never).outcome) := by
  have hstops : (s.run settings : Routine μ Result).Heeds count 0 fun result =>
      result.failure = some .cancelled := by
    unfold Setup.run
    refine .quiet_bind (.lift _) (Nat.zero_le _) fun series _ => ?_
    refine .bind_quiet (p := fun statement => statement.stopped = true) ?_ (fun _ => .pure _) ?_
    · have hplay := (attentive_trader (μ := μ) settings s.blueprint series).heeds_play
        s.terms.fee (.opened s.terms.capital) (s.bars.map Bar.price) (Nat.zero_le count)
      exact hplay.bind_quiet (fun _ => .pure _) fun played hstopped => ⟨_, rfl, hstopped⟩
    · intro statement hstopped
      exact ⟨_, rfl, by simp [Result.ofStatement, hstopped]⟩
  exact hstops.imp fun result => Setup.cut_run

/-- **A simulation that is stopped asks nothing more** and comes to the beginning of the one that is
not. -/
theorem heeds_run (settings : Settings) (blueprint : Option Blueprint) (prices : Supply Bar)
    (options : Options) (count : Nat) :
    (run settings blueprint prices options : Routine μ Result).Heeds count 0
      (Result.Cut count
        ((run settings blueprint prices options : Routine μ Result).run never).outcome) := by
  rw [outcome_run]
  refine .quiet_bind (.lift _) (Nat.zero_le _) fun read hread => ?_
  have hlog : ∀ result : Result,
      (do Routine.sayAll [result.record]; pure result : Routine μ Result).Quiet :=
    fun result => (Routine.Quiet.sayAll _).bind fun _ => .pure _
  change (Setup.read settings blueprint prices options).run = _ at hread
  rw [hread]
  cases read with
  | error refusal => exact .of_quiet ((Routine.Quiet.pure _).bind hlog) (Nat.zero_le _)
  | ok s => exact (s.heeds_run count).bind_quiet hlog fun result hcut => ⟨result, rfl, hcut⟩

end Simulation

end StrategyGraph
