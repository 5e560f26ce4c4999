import StrategyGraph.Proofs.Price.Stored
import StrategyGraph.Proofs.Simulation.Accepted
import StrategyGraph.Proofs.Simulation.Books
import StrategyGraph.Proofs.Simulation.Terms

/-!
# Declines of exact books

With the fractions that fee, capital and prices stand for, the books of a setup can be kept exactly,
and then the equity declines as far as the drawdown says, but never to nothing.

* `Setup.exactBooks` : the run of a setup in fractions;
* `Setup.Accepts.price_pos` : the prices that a simulation accepts stand for positive fractions;
* `exact_drawdown` : **the drawdown is the greatest of all declines, and that of a simulation is less
  than everything.**
-/

namespace StrategyGraph.Simulation

open Binary64 (value)
open Indicator (declines maxDrawdown)
open Ledger (Statement)

variable {μ : Type} {settings : Settings} {blueprint : Option Blueprint} {prices : Supply Bar}
  {options : Options}

/-- The run of a setup in fractions, for a fee in percent. -/
def Setup.exactBooks (s : Setup) (percent : Float) (trader : Ledger.Trader (Routine μ) ℚ) :
    Routine μ (Statement ℚ) :=
  Ledger.run (value percent / 100) (value s.terms.capital) trader
    (s.bars.map fun bar => value bar.price)

/-- Bars that are given as such have finite prices, as those that are read have anyway. -/
def FinitePrices (prices : Supply Bar) : Prop :=
  ∀ bars, prices = .ready bars → ∀ bar ∈ bars, bar.price.isFinite = true

theorem Setup.Accepts.price_pos {terms : Terms} {bars : List Bar}
    (h : Accepts prices options terms bars) (hfinite : FinitePrices prices) :
    ∀ bar ∈ bars, 0 < value bar.price := by
  obtain ⟨entries, hentries, hbars⟩ := h.bars
  obtain ⟨hread, hpositive, -⟩ := readBars_accepts.1 hbars
  have hentry : ∀ entry ∈ entries, ∀ bar, readEntry entry = .ok (some bar) →
      bar.price.isFinite = true := by
    intro entry hentry bar hbar
    -- What is read is finite; a bar that comes as one is so by assumption.
    cases entry with
    | inl j => exact (Bar.wellRead_of_read hbar).price
    | inr given =>
      obtain rfl : given = bar := Option.some.inj (Except.ok.inj hbar)
      cases prices with
      | payload raw =>
        obtain ⟨items, -, rfl⟩ := map_eq_ok.1 hentries
        simp at hentry
      | ready givens =>
        cases hentries
        exact hfinite givens rfl given (by simpa using hentry)
  intro bar hbar
  obtain ⟨i, hi, rfl⟩ := List.getElem_of_mem hbar
  have hfinite := hentry _ (List.getElem_mem _) _ (hread.get (hread.length_eq ▸ hi) hi)
  rw [← Terms.value_zero]
  exact Binary64.value_lt_of_not_le hfinite (by decide) (hpositive _ hbar)

/-- **The drawdown is the greatest of all declines**, if no value of a series is negative: from any
positive value to the same or a later one, or zero; and it lies between zero and one. **The equity
of a simulation, with exact books, never declines to nothing**: at all prices that are accepted and
for all terms that are, whatever the trader decides. -/
theorem exact_drawdown {K : Type} [Field K] [LinearOrder K] [IsStrictOrderedRing K] :
    (∀ series : List K, (∀ v ∈ series, 0 ≤ v) →
      IsGreatest (insert 0 (declines series)) (maxDrawdown series) ∧
        0 ≤ maxDrawdown series ∧ maxDrawdown series ≤ 1) ∧
    ∀ (settings : Settings) (blueprint : Option Blueprint) (prices : Supply Bar)
      (options : Options) (s : Setup) (percent : Float) (trader : Ledger.Trader (Routine μ) ℚ)
      (answers : Nat → Bool) (statement : Statement ℚ),
      FinitePrices prices →
      (Setup.read settings blueprint prices options).run = .ok (.ok s) →
      options.feePercent.toFloat = .ok percent →
      ((s.exactBooks percent trader).run answers).outcome = .ok statement →
        0 ≤ statement.summary.maxDrawdown ∧ statement.summary.maxDrawdown < 1 := by
  refine ⟨fun series h => ⟨Indicator.isGreatest_maxDrawdown h, Indicator.maxDrawdown_nonneg h,
    Indicator.maxDrawdown_le_one h⟩, ?_⟩
  intro settings blueprint prices options s percent trader answers statement hfinite hs hpercent h
  cases Setup.read_iff.1 hs with
  | setup haccepts =>
    obtain ⟨percent', capital, hpercent', -, hallowed, rfl⟩ := Terms.read_eq_ok.1 haccepts.terms
    cases hpercent.symm.trans hpercent'
    refine Ledger.drawdown_of_run h ((div_lt_one (by norm_num)).2 hallowed.percent_lt)
      hallowed.capital_pos ?_
    simpa using haccepts.price_pos hfinite

/-- What is read for the swing strategy. -/
def swingSetup : Setup where
  blueprint := swing
  terms := { fee := 10.0 / 100.0, capital := 100.0 }
  bars := [10.0, 20.0, 10.0, 12.0].map fun price => { time := none, price }

theorem exact_drawdown_swing :
    (∀ v ∈ [2, 4, 1, 3], (0 : ℚ) ≤ v) ∧
    IsGreatest (insert 0 (declines [2, 4, 1, 3])) (3 / 4 : ℚ) ∧
    FinitePrices (swingBars [10.0, 20.0, 10.0, 12.0]) ∧
    (Setup.read {} (some swing) (swingBars [10.0, 20.0, 10.0, 12.0]) swingOptions).run =
      .ok (.ok swingSetup) ∧
    swingOptions.feePercent.toFloat = .ok 10.0 ∧
    ∃ statement, ((swingSetup.exactBooks 10.0 (traderIn {} swing [] nearest) :
        Routine Unit (Statement ℚ)).run Routine.never).outcome = .ok statement ∧
      statement.trades.length = 2 ∧
      0 ≤ statement.summary.maxDrawdown ∧ statement.summary.maxDrawdown < 1 := by
  have hseries : ∀ v ∈ [2, 4, 1, 3], (0 : ℚ) ≤ v := by simp
  have hworst : maxDrawdown [2, 4, 1, 3] = (3 / 4 : ℚ) := by decide +kernel
  have hfinite : FinitePrices (swingBars [10.0, 20.0, 10.0, 12.0]) := by
    rintro bars hbars
    cases hbars
    decide
  have hs : (Setup.read {} (some swing) (swingBars [10.0, 20.0, 10.0, 12.0]) swingOptions).run =
      .ok (.ok swingSetup) := rfl
  obtain ⟨statement, h, hlength⟩ := exists_ok_of_any
    (x := ((swingSetup.exactBooks 10.0 (traderIn {} swing [] nearest) :
      Routine Unit (Statement ℚ)).run Routine.never).outcome)
    (p := fun s => s.trades.length == 2) (by decide +kernel)
  obtain ⟨hgreatest, hrun⟩ := @exact_drawdown Unit ℚ _ _ _
  refine ⟨hseries, hworst ▸ (hgreatest _ hseries).1, hfinite, hs, rfl, statement, h,
    by simpa using hlength, ?_⟩
  exact hrun _ _ _ _ _ _ _ _ _ hfinite hs rfl h

end StrategyGraph.Simulation
