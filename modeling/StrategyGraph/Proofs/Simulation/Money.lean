import StrategyGraph.Proofs.Ledger.Conduct
import StrategyGraph.Proofs.Simulation.Terms
import StrategyGraph.Proofs.Simulation.Trades

/-!
# Simulations with other fees and capitals

What a simulation does does not depend on fee and capital, as long as both are allowed.

* `Options.Valid` : the fee is at least nothing and less than everything, and there is some capital;
* `Result.conduct` : failure and warnings, bars and prices of the trades, and how long these last;
* `alike_read` : with any valid options a simulation reads the same bars, or fails in the same way;
* `run_conduct` : **with any valid options a simulation comes to the same conduct.**
-/

namespace StrategyGraph.Simulation

open Ledger (Course Trade Statement)

/-- Fee and capital are numbers that a simulation takes. -/
structure Options.Valid (o : Options) : Prop where
  /-- The fee is a percentage from zero to below a hundred. -/
  fee : ∃ percent, o.feePercent.toFloat = .ok percent ∧ 0.0 ≤ percent ∧ percent < 100.0
  /-- The capital is finite and positive. -/
  capital : ∃ capital, o.initialCapital.toFloat = .ok capital ∧ capital.isFinite = true ∧
    0.0 < capital

/-- What a simulation does, whatever its money is worth. -/
structure Conduct where
  /-- Why there is no full result. -/
  failure : Option Failure
  /-- What is wrong with the strategy. -/
  warnings : List Warning
  /-- Bars and prices of the trades. -/
  trades : List (Course Float)
  /-- How long trades last on average. -/
  avgDuration : Float

/-- What a result tells apart from money. -/
def Result.conduct (r : Result) : Conduct where
  failure := r.failure
  warnings := r.warnings
  trades := r.trades.map Trade.course
  avgDuration := r.summary.avgDuration

variable {settings : Settings} {blueprint : Option Blueprint} {prices : Supply Bar}
  {options options' : Options}

theorem Options.Valid.exists_terms (h : options.Valid) :
    ∃ terms, (Terms.read options).run = .ok (.ok terms) := by
  obtain ⟨percent, hpercent, hleast, hgreatest⟩ := h.fee
  obtain ⟨capital, hcapital, hfinite, hpositive⟩ := h.capital
  have hallowed : Terms.Allowed percent capital :=
    { feeFinite := Binary64.isFinite_of_le_of_lt (by decide) hleast hgreatest
      feeLeast := Binary64.not_lt_of_le hleast
      feeLess := fun h => Binary64.not_lt_of_le h hgreatest
      capitalFinite := hfinite
      capitalPositive := fun h => Binary64.not_lt_of_le h hpositive }
  exact ⟨_, Terms.read_eq_ok.2 ⟨percent, capital, hpercent, hcapital, hallowed, rfl⟩⟩

/-- The terms decide nothing about reading the bars. -/
theorem alike_orFlat {α : Type} (terms terms' : Terms) (count : Except Fault Nat)
    (outcome : ExceptT Failure (Except Fault) α) :
    Agree Eq (Agree (fun r r' : Refusal => r.failure = r'.failure) Eq)
      (orFlat terms count outcome).run (orFlat terms' count outcome).run := by
  refine (Agree.same outcome.run).bind fun r _ hr => ?_
  subst hr
  cases r with
  | ok a => exact .ok (.ok rfl)
  | error failure => exact (Agree.same count).bind fun _ _ _ => .ok (.error rfl)

/-- With any valid options a simulation reads the same bars, or fails in the same way. -/
theorem alike_read (h : options.Valid) (h' : options'.Valid) :
    Agree Eq (Agree (fun r r' : Refusal => r.failure = r'.failure)
        fun s s' : Setup => s.blueprint = s'.blueprint ∧ s.bars = s'.bars)
      (Setup.read settings blueprint prices options).run
      (Setup.read settings blueprint prices options').run := by
  obtain ⟨terms, hterms⟩ := h.exists_terms
  obtain ⟨terms', hterms'⟩ := h'.exists_terms
  have hadapt : Agree Eq (Agree (fun r r' : Refusal => r.failure = r'.failure) fun _ _ => True)
      ((Terms.read options).adapt fun failure => Refusal.mk failure []).run
      ((Terms.read options').adapt fun failure => Refusal.mk failure []).run := by
    rw [Terms.adapt_ok.2 hterms, Terms.adapt_ok.2 hterms']
    exact .ok (.ok trivial)
  unfold Setup.read
  refine hadapt.run_bind fun terms terms' _ => ?_
  cases blueprint with
  | none => exact .ok (.error rfl)
  | some b =>
    dsimp only
    cases hempty : prices.isEmpty with
    | true => exact .ok (.error rfl)
    | false =>
      refine (alike_orFlat terms terms' _ _).run_bind fun bars _ hbars => ?_
      subst hbars
      split
      · exact .ok (.error rfl)
      · split
        · exact .ok (.error rfl)
        · exact .ok (.ok ⟨rfl, rfl⟩)

/-- Setups that differ in their terms run alike. -/
theorem alike_statement {s s' : Setup} (hblueprint : s.blueprint = s'.blueprint)
    (hbars : s.bars = s'.bars) (series : List (String × Series Float)) (answers : Nat → Bool) :
    Agree Eq Statement.Alike (s.statement series answers) (s'.statement series answers) := by
  rw [Setup.statement, Setup.statement, hblueprint, hbars]
  exact Ledger.alike_run ..

/-- **What a simulation does does not depend on fee and capital.** -/
theorem run_conduct {μ : Type} (h : options.Valid) (h' : options'.Valid) (answers : Nat → Bool) :
    ((run settings blueprint prices options : Routine μ Result).run answers).outcome.map
        Result.conduct =
      ((run settings blueprint prices options' : Routine μ Result).run answers).outcome.map
        Result.conduct := by
  refine Agree.map_eq ?_
  rw [outcome_run, outcome_run]
  refine (alike_read h h').bind fun r r' hr => ?_
  cases hr with
  | error hfailure => exact .ok (by simp [Result.conduct, hfailure])
  | @ok s s' hs =>
    obtain ⟨hblueprint, hbars⟩ := hs
    dsimp only
    rw [Setup.outcome_run, Setup.outcome_run, hblueprint, hbars]
    refine (Agree.same _).bind fun series _ hseries => ?_
    subst hseries
    refine (alike_statement hblueprint hbars series answers).bind fun t t' ht => .ok ?_
    simp [Result.conduct, Result.ofStatement, ht.trades, ht.avgDuration, ht.stopped]

/-- No fee and a capital of one. -/
def freeOptions : Options := ⟨.number (.float 0.0), .number (.float 1.0)⟩

theorem run_conduct_swing :
    swingOptions.Valid ∧ freeOptions.Valid ∧ ∃ result,
      ((run {} (some swing) (swingBars [10.0, 20.0, 10.0, 12.0]) swingOptions :
        Routine Unit Result).run Routine.never).outcome = .ok result ∧ result.trades.length = 2 ∧
      ((run {} (some swing) (swingBars [10.0, 20.0, 10.0, 12.0]) freeOptions :
        Routine Unit Result).run Routine.never).outcome.map Result.conduct =
          .ok result.conduct := by
  have hswing : swingOptions.Valid :=
    ⟨⟨10.0, rfl, by decide, by decide⟩, ⟨100.0, rfl, by decide, by decide⟩⟩
  have hfree : freeOptions.Valid :=
    ⟨⟨0.0, rfl, by decide, by decide⟩, ⟨1.0, rfl, by decide, by decide⟩⟩
  obtain ⟨result, h, hlength⟩ := exists_ok_of_any
    (x := ((run {} (some swing) (swingBars [10.0, 20.0, 10.0, 12.0]) swingOptions :
      Routine Unit Result).run Routine.never).outcome)
    (p := fun r => r.trades.length == 2) (by decide)
  refine ⟨hswing, hfree, result, h, by simpa using hlength, ?_⟩
  rw [← run_conduct hswing hfree Routine.never, h]
  rfl

end StrategyGraph.Simulation
