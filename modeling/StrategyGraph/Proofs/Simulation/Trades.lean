import StrategyGraph.Proofs.Ledger.Greedy
import StrategyGraph.Proofs.Simulation.Setup

/-!
# Trades of a simulation

The trades of a simulation that goes on to its end are determined by when the sub-graphs of its
blueprint ask for purchases and sales: `market` says when they do, and `run_trades` that the trades
are the greedy ones.
-/

namespace StrategyGraph.Simulation

variable (b : Blueprint) (series : List (String × Series Float)) (bars : List Bar)

/-- The price at a bar. -/
def priceAt (index : Nat) : Float := (bars[index]?.map Bar.price).getD 0.0

/-- A walk through a sub-graph at a bar returns an action in this direction; `entry` is the bar at
which the open trade was entered. -/
def Returns (direction : Direction) (part : SubGraph) (index : Nat) (entry : Option Nat) : Prop :=
  ∃ a, (part.nextAction b.condition?
      (context series index (priceAt bars index) (entry.map (priceAt bars)))).outcome =
        .ok (some a) ∧ a.direction = direction

/-- The bars, and when the sub-graphs of a blueprint ask for purchases and sales at them. -/
def market : Ledger.Market Float where
  bars := bars.length
  price := priceAt bars
  buys index := Returns b series bars .buy b.entry index none
  sells entry index := Returns b series bars .sell b.inTrade index (some entry)

variable {b} in
theorem asks_iff {direction : Direction} {part : SubGraph} {ctx : BarContext} :
    asks b direction part ctx = .ok true ↔
      ∃ a, (part.nextAction b.condition? ctx).outcome = .ok (some a) ∧
        a.direction = direction := by
  rw [asks, map_eq_ok]
  constructor
  · rintro ⟨found, hfound, h⟩
    obtain ⟨a, ha⟩ := Option.isSome_iff_exists.1 h
    obtain ⟨rfl, hdirection⟩ := Option.filter_eq_some_iff.1 ha
    exact ⟨a, hfound, by simpa using hdirection⟩
  · rintro ⟨a, hfound, rfl⟩
    exact ⟨some a, hfound, by simp⟩

theorem market_follows (answers : Nat → Bool) :
    (market b series bars).Follows (decider b series answers) (bars.map Bar.price) := by
  have hprice : ∀ {i p}, (bars.map Bar.price)[i]? = some p → priceAt bars i = p := by
    intro i p h
    rw [priceAt, ← List.getElem?_map, h, Option.getD_some]
  refine ⟨by simp [market], hprice, fun {i p} h => ?_, fun {e i p} _ h => ?_⟩
  · obtain rfl := hprice h
    exact asks_iff
  · obtain rfl := hprice h
    exact asks_iff

/-- **The trades of a simulation are the greedy ones** of its market, and no others: each is entered
at the first bar after the one before has ended, but for the last bar, at which the entry graph asks
for a purchase, and ends at the first later bar at which the exit graph asks for a sale, at the
latest at the last one. -/
theorem run_trades {μ : Type} {settings : Settings} {b : Blueprint} {prices : Supply Bar}
    {options : Options} {answers : Nat → Bool} {result : Result}
    (h : ((run settings (some b) prices options : Routine μ Result).run answers).outcome =
      .ok result)
    (hok : result.failure = none) :
    ∃ terms series, (Terms.read options).run = .ok (.ok terms) ∧
      b.series prices.bars = .ok series ∧
      (∀ ts, (market b series prices.bars).Greedy terms.fee 0 ts ↔ ts = result.trades) ∧
      (∀ t ∈ result.trades, ∃ e x : Nat, ∃ exit, t.exit = some exit ∧ e < x ∧
        e < prices.bars.length - 1 ∧ x ≤ prices.bars.length - 1 ∧
        t.entryIndex = e ∧ t.entryPrice = priceAt prices.bars e ∧
        exit.index = x ∧ exit.price = priceAt prices.bars x) ∧
      result.trades.Pairwise fun t u => ∀ exit ∈ t.exit, exit.index < u.entryIndex := by
  obtain ⟨s, series, statement, hs, hseries, hstatement, hstopped, rfl⟩ := run_ok h hok
  obtain ⟨hb, hbars, hterms⟩ := Setup.read_ok hs
  obtain rfl : b = s.blueprint := Option.some.inj hb
  rw [hbars] at hseries
  rw [Setup.statement, hbars] at hstatement
  have hgreedy := (market_follows ..).greedy hstatement hstopped
  refine ⟨s.terms, series, hterms, hseries, fun ts => ⟨fun hts => hts.unique hgreedy, ?_⟩,
    fun t ht => ?_, hgreedy.pairwise⟩
  · rintro rfl
    exact hgreedy
  · obtain ⟨e, x, rfl, -, he, hex, hx⟩ := hgreedy.spec t ht
    exact ⟨e, x, _, rfl, hex, he, hx, rfl, rfl, rfl, rfl⟩

/-- Buys below 15 and sells above. -/
def swing : Blueprint :=
  let close : Binding := { parameterId := none, label := .string "close", value := .string "" }
  let compares := fun nodeId operator : String =>
    ({ nodeId, left := some close, right := some (.ofValue (.number (.int 15)))
       operator := some operator } : Condition)
  let part := fun (condition action : Node) =>
    ({ nodes := [condition, action]
       edges := [{ id := "e", source := condition.id, target := action.id
                   sourceHandle := some "true" }]
       entryIds := [condition.id] } : SubGraph)
  { entry := part { id := "low", kind := .condition } { id := "buy", kind := .buy }
    inTrade := part { id := "high", kind := .condition } { id := "sell", kind := .sell }
    conditions := [compares "low" "<", compares "high" ">"] }

/-- Bars with these prices. -/
def swingBars (prices : List Float) : Supply Bar :=
  .ready (prices.map fun price => { time := none, price })

theorem bars_swingBars (prices : List Float) (h : ∀ price ∈ prices, ¬ price ≤ 0.0) :
    (swingBars prices).bars = prices.map fun price => { time := none, price } := by
  have hread : ∀ index previous, (readBarsFrom index previous
      ((prices.map fun price => { time := none, price }).map .inr)).run =
        .ok (.ok (prices.map fun price => { time := none, price })) := by
    induction prices with
    | nil => exact fun _ _ => rfl
    | cons price prices ih =>
      intro index previous
      have hcheck : checkBar index previous (some { time := none, price }) =
          .ok { time := none, price } := by
        have hafter : (previous.all fun p => p.notAfter { time := none, price }) = true := by
          simp [Bar.notAfter]
        rw [checkBar, if_neg (h price List.mem_cons_self), if_pos hafter]
      rw [List.map_cons, List.map_cons, readBarsFrom]
      refine run_bind_eq_ok.2 ⟨_, congrArg Except.ok hcheck, ?_⟩
      exact run_bind_eq_ok.2 ⟨_, ih (fun p hp => h p (List.mem_cons_of_mem _ hp)) _ _, rfl⟩
  have hbars : (do readBars (← (swingBars prices).entries) :
      ExceptT Failure (Except Fault) (List Bar)).run =
        .ok (.ok (prices.map fun price => { time := none, price })) := hread 0 none
  rw [Supply.bars, hbars]

/-- A fee of 10 percent and a capital of 100. -/
def swingOptions : Options := ⟨.number (.float 10.0), .number (.float 100.0)⟩

theorem run_trades_swing :
    ∃ result, ((run {} (some swing) (swingBars [10.0, 20.0, 10.0, 12.0]) swingOptions :
        Routine Unit Result).run Routine.never).outcome = .ok result ∧
      result.failure = none ∧ result.trades.length = 2 ∧
      ∃ terms series, (Terms.read swingOptions).run = .ok (.ok terms) ∧
        swing.series (swingBars [10.0, 20.0, 10.0, 12.0]).bars = .ok series ∧
        (market swing series (swingBars [10.0, 20.0, 10.0, 12.0]).bars).Greedy terms.fee 0
          result.trades := by
  obtain ⟨result, h, hp⟩ := exists_ok_of_any
    (x := ((run {} (some swing) (swingBars [10.0, 20.0, 10.0, 12.0]) swingOptions :
      Routine Unit Result).run Routine.never).outcome)
    (p := fun r => r.failure.isNone && r.trades.length == 2) (by decide)
  obtain ⟨hok, hlength⟩ : result.failure = none ∧ result.trades.length = 2 := by simpa using hp
  obtain ⟨terms, series, hterms, hseries, hgreedy, -⟩ := run_trades h hok
  exact ⟨result, h, hok, hlength, terms, series, hterms, hseries, (hgreedy _).2 rfl⟩

end StrategyGraph.Simulation
