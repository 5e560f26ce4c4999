import StrategyGraph.Proofs.Ledger.Prefix
import StrategyGraph.Proofs.Simulation.Trades

/-!
# Stopping a simulation

A simulation that is stopped comes to the beginning of the simulation that is not
(`run_stopAfter`): it has played all bars before the stop as if it were to go on.
-/

namespace StrategyGraph.Simulation

open Ledger (endedBefore)

theorem Setup.statement_stopAfter {s : Setup} {series : List (String × Series Float)}
    {statement : Ledger.Statement Float} {k : Nat}
    (h : s.statement series Routine.never = .ok statement) (hk : k < s.bars.length) :
    s.statement series (Routine.stopAfter k) = .ok (statement.stoppedAt k) :=
  (market_follows s.blueprint series s.bars Routine.never).run_stopped (fun _ => rfl) h
    (by simpa using hk)

theorem Setup.statement_not_stopped (s : Setup) (series : List (String × Series Float)) {k : Nat}
    (hk : s.bars.length ≤ k) :
    s.statement series (Routine.stopAfter k) = s.statement series Routine.never :=
  Ledger.Market.run_not_stopped (decider s.blueprint series Routine.never)
    (fun _ => rfl) (by simpa using hk)

/-- **A simulation that is stopped comes to the beginning of the one that is not.** If the stop is
wanted after the last bar, nothing changes; if it is wanted before bar `k`, the equity is that of
the bars before and the trades are those that have ended there. -/
theorem run_stopAfter {μ : Type} {settings : Settings} {blueprint : Option Blueprint}
    {prices : Supply Bar} {options : Options} {result : Result}
    (h : ((run settings blueprint prices options : Routine μ Result).run Routine.never).outcome =
      .ok result)
    (hok : result.failure = none) (k : Nat) :
    (prices.bars.length ≤ k →
      ((run settings blueprint prices options : Routine μ Result).run
        (Routine.stopAfter k)).outcome = .ok result) ∧
    (k < prices.bars.length →
      ((run settings blueprint prices options : Routine μ Result).run
        (Routine.stopAfter k)).outcome = .ok
          { equity := result.equity.take k
            trades := endedBefore k result.trades
            warnings := result.warnings
            failure := some .cancelled } ∧
      Failure.cancelled.message = "Simulation cancelled") := by
  obtain ⟨s, series, statement, hs, hseries, hstatement, hstopped, rfl⟩ := run_ok h hok
  obtain ⟨-, hbars, -⟩ := Setup.read_ok hs
  rw [outcome_run_of_setup hs hseries, ← hbars]
  refine ⟨fun hk => ?_, fun hk => ⟨?_, rfl⟩⟩
  · rw [s.statement_not_stopped series hk, hstatement]
    rfl
  · rw [Setup.statement_stopAfter hstatement hk]
    rfl

theorem run_stopAfter_swing :
    ∃ result, ((run {} (some swing) (swingBars [10.0, 20.0, 10.0, 12.0]) swingOptions :
        Routine Unit Result).run Routine.never).outcome = .ok result ∧
      result.failure = none ∧ 3 < (swingBars [10.0, 20.0, 10.0, 12.0]).bars.length ∧
      ((run {} (some swing) (swingBars [10.0, 20.0, 10.0, 12.0]) swingOptions :
        Routine Unit Result).run (Routine.stopAfter 3)).outcome = .ok
          { equity := result.equity.take 3
            trades := endedBefore 3 result.trades
            warnings := result.warnings
            failure := some .cancelled } := by
  obtain ⟨result, h, hp⟩ := exists_ok_of_any
    (x := ((run {} (some swing) (swingBars [10.0, 20.0, 10.0, 12.0]) swingOptions :
      Routine Unit Result).run Routine.never).outcome)
    (p := fun r => r.failure.isNone) (by decide)
  have hok : result.failure = none := by simpa using hp
  have hbars : 3 < (swingBars [10.0, 20.0, 10.0, 12.0]).bars.length := by decide
  exact ⟨result, h, hok, hbars, ((run_stopAfter h hok 3).2 hbars).1⟩

end StrategyGraph.Simulation
