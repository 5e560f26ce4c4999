import StrategyGraph.Proofs.Indicator.Prefix
import StrategyGraph.Proofs.Ledger.Prefix
import StrategyGraph.Proofs.Simulation.Trades
import StrategyGraph.Proofs.Walk.Prefix

/-!
# No look-ahead

All series of a simulation are computed before its first bar is played, but none of its decisions
depends on a later bar.

* `Blueprint.series_take` : the series of the first bars are the beginnings of the series;
* `advance_decider` : so the account is the same before a bar as if there were no more bars;
* `run_causal` : simulations over bars that begin alike do the same there.
-/

namespace StrategyGraph

theorem Producer.series_take {p : Producer} {bars : List Bar} {series : Series Float}
    (hbars : Bar.Uniform bars) (h : p.series bars = .ok series) (k : Nat) :
    p.series (bars.take k) = .ok (series.take k) := by
  obtain ⟨nodeId, outputKey, source⟩ := p
  cases source with
  | price format =>
    obtain rfl := Except.ok.inj h
    rw [Producer.series, List.map_take]
  | indicator kind window =>
    obtain ⟨window, hwindow, h⟩ := bind_eq_ok.1 h
    exact bind_eq_ok.2 ⟨window, hwindow, Indicator.ofBars_take hbars h k⟩

theorem Blueprint.series_take {b : Blueprint} {bars : List Bar}
    {series : List (String × Series Float)} (hbars : Bar.Uniform bars)
    (h : b.series bars = .ok series) (k : Nat) :
    b.series (bars.take k) = .ok (firstValues k series) := by
  refine mapM_congr (fun p s hp => ?_) h
  obtain ⟨values, hvalues, rfl⟩ := map_eq_ok.1 hp
  exact map_eq_ok.2 ⟨_, Producer.series_take hbars hvalues k, rfl⟩

namespace Simulation

open Ledger (endedBefore entriesBefore)

theorem context_firstValues (series : List (String × Series Float)) (index k : Nat) (price : Float)
    (entry : Option Float) :
    context (firstValues k series) index price entry =
      (context series index price entry).upTo k := by
  rw [context, BarContext.table_firstValues]
  rfl

theorem asks_firstValues (b : Blueprint) (direction : Direction) (part : SubGraph)
    (series : List (String × Series Float)) {index k : Nat} (hk : index < k) (price : Float)
    (entry : Option Float) :
    asks b direction part (context (firstValues k series) index price entry) =
      asks b direction part (context series index price entry) := by
  have hindex : (context series index price entry).index = (index : Int) := rfl
  rw [context_firstValues, asks, SubGraph.nextAction_upTo hindex hk, asks]

/-- The account is the same before bar `k` as if the series ended there. -/
theorem advance_decider (b : Blueprint) (series : List (String × Series Float))
    (answers : Nat → Bool) (fee : Float) (a : Ledger.Account Float) (k : Nat)
    (prices : List Float) :
    a.advance fee (decider b (firstValues k series) answers) 0 (prices.take k) =
      a.advance fee (decider b series answers) 0 (prices.take k) := by
  have hindex : ∀ {i p}, (prices.take k)[i]? = some p → 0 + i < k := by
    intro i p hi
    have := (List.getElem?_eq_some_iff.1 hi).1
    rw [List.length_take] at this
    omega
  refine Ledger.Account.advance_congr (fun i p hi => ?_) (fun i p entry hi => ?_)
  · exact asks_firstValues b .buy b.entry series (hindex hi) p none
  · exact asks_firstValues b .sell b.inTrade series (hindex hi) p (some entry)

/-- The statement of a setup begins with an account that depends on its first bars alone. -/
theorem Setup.begins {s : Setup} {series : List (String × Series Float)}
    {statement : Ledger.Statement Float} {k : Nat} (hbars : Bar.Uniform s.bars)
    (hseries : s.blueprint.series s.bars = .ok series)
    (h : s.statement series Routine.never = .ok statement) (hk : k < s.bars.length) :
    ∃ first b, s.blueprint.series (s.bars.take k) = .ok first ∧
      (Ledger.Account.opened s.terms.capital).advance s.terms.fee
        (decider s.blueprint first Routine.never) 0 ((s.bars.take k).map Bar.price) = .ok b ∧
      statement.Begins k b := by
  obtain ⟨b, hb, hbegins⟩ := (market_follows s.blueprint series s.bars Routine.never).begins
    (fun _ => rfl) h (by simpa using hk)
  refine ⟨firstValues k series, b, Blueprint.series_take hbars hseries k, ?_, hbegins⟩
  rw [List.map_take, advance_decider]
  exact hb

/-- **No look-ahead.** Simulations of one blueprint over lists of bars that agree before bar `k` and
go on there have the same equity before that bar, the same purchases, and the same trades that have
ended, provided that all bars have a high and a low or none has. -/
theorem run_causal {μ : Type} {settings : Settings} {blueprint : Option Blueprint}
    {prices prices' : Supply Bar} {options : Options} {result result' : Result} {k : Nat}
    (h : ((run settings blueprint prices options : Routine μ Result).run Routine.never).outcome =
      .ok result)
    (h' : ((run settings blueprint prices' options : Routine μ Result).run Routine.never).outcome =
      .ok result')
    (hok : result.failure = none) (hok' : result'.failure = none)
    (hk : k < prices.bars.length) (hk' : k < prices'.bars.length)
    (hbars : prices.bars.take k = prices'.bars.take k)
    (huniform : Bar.Uniform (prices.bars ++ prices'.bars)) :
    result.equity.take k = result'.equity.take k ∧
      entriesBefore k result.trades = entriesBefore k result'.trades ∧
      endedBefore k result.trades = endedBefore k result'.trades := by
  obtain ⟨s, series, statement, hs, hseries, hstatement, -, rfl⟩ := run_ok h hok
  obtain ⟨s', series', statement', hs', hseries', hstatement', -, rfl⟩ := run_ok h' hok'
  obtain ⟨hb, hread, hterms⟩ := Setup.read_ok hs
  obtain ⟨hb', hread', hterms'⟩ := Setup.read_ok hs'
  have hblueprint : s.blueprint = s'.blueprint := Option.some.inj (hb.symm.trans hb')
  have hterms : s.terms = s'.terms := Except.ok.inj (Except.ok.inj (hterms.symm.trans hterms'))
  rw [← hread] at hk hbars huniform
  rw [← hread'] at hk' hbars huniform
  obtain ⟨first, b, hfirst, hadvance, hbegins⟩ := Setup.begins
    (huniform.mono (List.subset_append_left _ _)) hseries hstatement hk
  obtain ⟨first', b', hfirst', hadvance', hbegins'⟩ := Setup.begins
    (huniform.mono (List.subset_append_right _ _)) hseries' hstatement' hk'
  -- Both begin with the account that plays the same bars, over the same series of these bars.
  rw [hblueprint, hbars, hfirst'] at hfirst
  obtain rfl : first' = first := Except.ok.inj hfirst
  rw [hblueprint, hbars, hterms, hadvance'] at hadvance
  obtain rfl : b' = b := Except.ok.inj hadvance
  exact ⟨hbegins.equity.trans hbegins'.equity.symm, hbegins.entries.trans hbegins'.entries.symm,
    hbegins.ended.trans hbegins'.ended.symm⟩

theorem run_causal_swing :
    ∃ result result', ((run {} (some swing) (swingBars [10.0, 20.0, 10.0, 12.0]) swingOptions :
        Routine Unit Result).run Routine.never).outcome = .ok result ∧
      ((run {} (some swing) (swingBars [10.0, 20.0, 10.0, 5.0, 30.0]) swingOptions :
        Routine Unit Result).run Routine.never).outcome = .ok result' ∧
      result.failure = none ∧ result'.failure = none ∧ result.trades.length = 2 ∧
      result.equity.take 3 = result'.equity.take 3 ∧
      entriesBefore 3 result.trades = entriesBefore 3 result'.trades ∧
      endedBefore 3 result.trades = endedBefore 3 result'.trades := by
  obtain ⟨result, h, hp⟩ := exists_ok_of_any
    (x := ((run {} (some swing) (swingBars [10.0, 20.0, 10.0, 12.0]) swingOptions :
      Routine Unit Result).run Routine.never).outcome)
    (p := fun r => r.failure.isNone && r.trades.length == 2) (by decide)
  obtain ⟨result', h', hp'⟩ := exists_ok_of_any
    (x := ((run {} (some swing) (swingBars [10.0, 20.0, 10.0, 5.0, 30.0]) swingOptions :
      Routine Unit Result).run Routine.never).outcome)
    (p := fun r => r.failure.isNone) (by decide)
  obtain ⟨hok, hlength⟩ : result.failure = none ∧ result.trades.length = 2 := by simpa using hp
  have hok' : result'.failure = none := by simpa using hp'
  have hbars := bars_swingBars [10.0, 20.0, 10.0, 12.0] (by decide)
  have hbars' := bars_swingBars [10.0, 20.0, 10.0, 5.0, 30.0] (by decide)
  refine ⟨result, result', h, h', hok, hok', hlength, run_causal h h' hok hok' ?_ ?_ ?_ ?_⟩
  · simp [hbars]
  · simp [hbars']
  · simp [hbars, hbars']
  · simp [hbars, hbars', Bar.Uniform, Bar.ranged]

end Simulation

end StrategyGraph
