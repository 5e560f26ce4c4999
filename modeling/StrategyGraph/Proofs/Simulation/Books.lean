import Mathlib.Algebra.Order.Field.Rat
import Mathlib.Tactic.NormNum
import StrategyGraph.Proofs.Ledger.Compare
import StrategyGraph.Proofs.Simulation.Trades

/-!
# Exact books of a simulation

A simulation keeps its books in doubles. Kept in an ordered field instead, where nothing is rounded,
they show what fee and capital do to the result of a strategy.

* `traderIn` : decides as the sub-graphs of a blueprint ask, for books in any numbers;
* `books_compare` : **lower fees earn at least as much**, at every bar and in every trade, **and so
  many times the capital comes to so many times the equity**.
-/

namespace StrategyGraph.Simulation

open Ledger (Trade Exit Statement)

section

variable {μ K : Type} (settings : Settings) (b : Blueprint)
  (series : List (String × Series Number)) (double : K → Float)

/-- Decides as the sub-graphs of a blueprint ask. The books may be kept in any numbers: the walks
see the doubles that stand for prices. -/
def traderIn : Ledger.Trader (Routine μ) K where
  stops _ := Routine.stops
  buys index price := asksFor settings b series .buy b.entry index (double price) none
  sells index price entry :=
    asksFor settings b series .sell b.inTrade index (double price) (some (double entry))

/-- With books in doubles it is the trader of the simulation. -/
theorem traderIn_id : (traderIn settings b series id : Ledger.Trader (Routine μ) Float) =
    trader settings b series := rfl

end

/-- **Lower fees earn at least as much, and more capital earns as much of itself.** Let a blueprint
be run with exact books at positive prices and with a positive capital.

With a higher fee, of less than a hundred percent, it makes the same trades; at each bar the equity
is at most as high, each trade earns at most as much, and so do all together, and at most as many
trades win. With `c` times the capital, the equity is `c` times as high at each bar, and trades and
summary stay as they are: net returns, total return, share of winning trades and drawdown. -/
theorem books_compare {K : Type} [Field K] [LinearOrder K] [IsStrictOrderedRing K] {μ : Type}
    (settings : Settings) (b : Blueprint) (series : List (String × Series Number))
    (double : K → Float) (answers : Nat → Bool) {prices : List K} {percent capital : K}
    {s : Statement K}
    (h : ((Ledger.run (percent / 100) capital (traderIn settings b series double) prices :
      Routine μ (Statement K)).run answers).outcome = .ok s)
    (hprices : ∀ price ∈ prices, 0 < price) (hcapital : 0 < capital) :
    (∀ percent', percent ≤ percent' → percent' < 100 → ∃ s',
      ((Ledger.run (percent' / 100) capital (traderIn settings b series double) prices :
        Routine μ (Statement K)).run answers).outcome = .ok s' ∧
      s'.stopped = s.stopped ∧
      List.Forall₂ (fun worth worth' => worth' ≤ worth) s.equity s'.equity ∧
      List.Forall₂ (fun t t' : Trade K => t'.course = t.course ∧
        Option.Rel (fun e e' => e'.netReturn ≤ e.netReturn) t.exit t'.exit) s.trades s'.trades ∧
      s'.summary.totalReturn ≤ s.summary.totalReturn ∧ s'.summary.winRate ≤ s.summary.winRate) ∧
    ∀ c, 0 < c → ∃ s',
      ((Ledger.run (percent / 100) (c * capital) (traderIn settings b series double) prices :
        Routine μ (Statement K)).run answers).outcome = .ok s' ∧
      s'.stopped = s.stopped ∧ s'.equity = s.equity.map (c * ·) ∧ s'.trades = s.trades ∧
      s'.summary = s.summary := by
  have hsummary := Ledger.summary_of_run h
  refine ⟨fun percent' hle hless => ?_, fun c hc => ?_⟩
  · have hhundred : (0 : K) < 100 := Nat.ofNat_pos
    have hfees : percent / 100 ≤ percent' / 100 := div_le_div_of_nonneg_right hle hhundred.le
    have hfee : percent' / 100 < 1 := (div_lt_one hhundred).2 hless
    obtain ⟨s', h', hcompares⟩ := (Ledger.compares_run (Ledger.feesCompare_le hfees hfee)
      ⟨hcapital.le, le_rfl⟩ hprices).exists_ok h
    have hsummary' := Ledger.summary_of_run h'
    refine ⟨s', h', hcompares.stopped.symm, hcompares.equity.imp fun _ _ hworth => hworth.2,
      hcompares.trades.imp fun _ _ ht => ⟨ht.1.symm, ht.2⟩, ?_⟩
    rw [hsummary, hsummary', hcompares.stopped]
    cases s'.stopped with
    | true => exact ⟨le_rfl, le_rfl⟩
    | false =>
      exact ⟨Ledger.totalReturn_le hcompares.equity hcapital, Ledger.winRate_le hcompares.trades⟩
  · obtain ⟨s', h', hcompares⟩ :=
      (Ledger.compares_run (Ledger.feesCompare_scaled c) rfl hprices).exists_ok h
    have hequity : s'.equity = s.equity.map (c * ·) := by
      have heq := hcompares.equity.flip
      rwa [← List.forall₂_map_right_iff, List.forall₂_eq_eq_eq] at heq
    have htrades : s'.trades = s.trades := by
      have heq := hcompares.trades.imp fun _ _ ht => ht.eq
      rw [List.forall₂_eq_eq_eq] at heq
      exact heq.symm
    refine ⟨s', h', hcompares.stopped.symm, hequity, htrades, ?_⟩
    rw [hsummary, Ledger.summary_of_run h', hcompares.stopped, hequity, htrades,
      Ledger.summary_scaled hc]

/-- The double nearest to a fraction that is not negative. -/
def nearest (q : ℚ) : Float := Binary64.ofRatio q.num.natAbs q.den

theorem books_compare_swing :
    ∃ s, ((Ledger.run (10 / 100) 100 (traderIn {} swing [] nearest) [10, 20, 10, 12] :
        Routine Unit (Statement ℚ)).run Routine.never).outcome = .ok s ∧
      (∀ price ∈ [10, 20, 10, 12], (0 : ℚ) < price) ∧ (0 : ℚ) < 100 ∧ s.trades.length = 2 ∧
      ∃ s', ((Ledger.run (20 / 100) 100 (traderIn {} swing [] nearest) [10, 20, 10, 12] :
        Routine Unit (Statement ℚ)).run Routine.never).outcome = .ok s' ∧
      s'.summary.totalReturn ≤ s.summary.totalReturn ∧
      ∃ s'', ((Ledger.run (10 / 100) (3 * 100) (traderIn {} swing [] nearest) [10, 20, 10, 12] :
        Routine Unit (Statement ℚ)).run Routine.never).outcome = .ok s'' ∧
      s''.equity = s.equity.map (3 * ·) := by
  obtain ⟨s, h, hlength⟩ := exists_ok_of_any
    (x := ((Ledger.run (10 / 100) 100 (traderIn {} swing [] nearest) [10, 20, 10, 12] :
      Routine Unit (Statement ℚ)).run Routine.never).outcome)
    (p := fun s => s.trades.length == 2) (by decide +kernel)
  have hprices : ∀ price ∈ [10, 20, 10, 12], (0 : ℚ) < price := by simp
  have hcapital : (0 : ℚ) < 100 := by norm_num
  obtain ⟨hfees, hscaled⟩ := books_compare {} swing [] nearest Routine.never h hprices hcapital
  obtain ⟨s', h', -, -, -, hreturn, -⟩ := hfees 20 (by norm_num) (by norm_num)
  obtain ⟨s'', h'', -, hequity, -⟩ := hscaled 3 (by norm_num)
  exact ⟨s, h, hprices, hcapital, by simpa using hlength, s', h', hreturn, s'', h'', hequity⟩

end StrategyGraph.Simulation
