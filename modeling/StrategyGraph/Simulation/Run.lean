import StrategyGraph.Decimal.Fixed
import StrategyGraph.Routine
import StrategyGraph.Simulation.Bars
import StrategyGraph.Simulation.Result
import StrategyGraph.Simulation.Terms
import StrategyGraph.Walk.Walker

/-!
# Running a simulation

A simulation plays a blueprint over a list of bars. Without an open trade the entry graph is walked
at each bar and a purchase is made when it asks for one; with an open trade the exit graph is walked
and a sale is made when it asks for one. Before each bar it asks whether to stop.

* `Setup.read` reads and checks all that a simulation needs;
* `trader` decides at each bar;
* `run` is the whole simulation.
-/

namespace StrategyGraph.Simulation

/-- A failure, with the equity that is reported with it. -/
structure Refusal where
  /-- The failure. -/
  failure : Failure
  /-- The equity. -/
  equity : List Float := []

/-- All that a simulation needs. -/
structure Setup where
  /-- The strategy. -/
  blueprint : Blueprint
  /-- Fee and capital. -/
  terms : Terms
  /-- The bars. -/
  bars : List Bar

/-- How many entries a price list has. -/
def count : Supply Bar → Except Fault Nat
  | .payload raw => raw.length
  | .ready bars => .ok bars.length

/-- Something, or the failure, with equity that stays flat for `bars` bars. -/
def orFlat {α : Type} (terms : Terms) (bars : Except Fault Nat)
    (outcome : ExceptT Failure (Except Fault) α) : ExceptT Refusal (Except Fault) α :=
  ExceptT.mk do
    match ← outcome.run with
    | .ok a => pure (.ok a)
    | .error failure => pure (.error ⟨failure, List.replicate (← bars) terms.capital⟩)

/-- Reads and checks all that a simulation needs. -/
def Setup.read (settings : Settings) (blueprint : Option Blueprint) (prices : Supply Bar)
    (options : Options) : ExceptT Refusal (Except Fault) Setup := do
  let terms ← (Terms.read options).adapt fun failure => ⟨failure, []⟩
  match blueprint with
  | none => throw ⟨.noBlueprint, []⟩
  | some blueprint =>
    if prices.isEmpty then throw ⟨.noPrices, []⟩
    let bars ← orFlat terms (count prices) (do readBars (← prices.entries))
    let refuse := fun failure => throw ⟨failure, List.replicate bars.length terms.capital⟩
    if (bars.length : Int) < settings.minBars then refuse (.tooFewBars bars.length settings.minBars)
    if blueprint.entry.isEmpty then refuse .noEntry
    pure { blueprint, terms, bars }

/-- The record of a purchase or sale. -/
def actionRecord (index : Nat) (price : Float) (a : Action) : Log.Record :=
  let name := match a.direction with
    | .buy => "BUY"
    | .sell => "SELL"
  Log.info <|
    s!"  📍 Bar {index}: " ++ name ++ " @ " ++ Decimal.shortest price ++ s!" via node {a.nodeId}"

section Trading

variable {μ : Type} (settings : Settings) (b : Blueprint)
  (series : List (String × Series Number))

/-- A sub-graph asks for an action in this direction at a bar. -/
def asksFor (direction : Direction) (part : SubGraph) (index : Nat) (price : Float)
    (entry : Option Float) : Routine μ Bool := do
  let ctx : BarContext :=
    { index, price := .float price, entry := entry.map .float, series }
  let trail := part.nextAction b.condition? ctx
  Routine.sayAll (if settings.debug then trail.log b.condition? ctx else [])
  let asked := (← trail.outcome).filter fun a => a.direction = direction
  Routine.sayAll (if settings.debug then (asked.map (actionRecord index price)).toList else [])
  pure asked.isSome

/-- Decides as the sub-graphs ask, and stops when asked to. -/
def trader : Ledger.Trader (Routine μ) Float where
  stops _ := Routine.stops
  buys index price := asksFor settings b series .buy b.entry index price none
  sells index price entry := asksFor settings b series .sell b.inTrade index price (some entry)

end Trading

/-- The record of a failure. -/
def failureRecord (failure : Failure) : Log.Record :=
  Log.warning ("[BACKTEST] " ++ failure.message)

/-- The record of a result. -/
def resultRecord (bars : Nat) (trades : Nat) (summary : Ledger.Summary Float) : Log.Record :=
  Log.info <|
    s!"[BACKTEST] {bars} bars, {trades} trades, return="
      ++ Decimal.fixed 4 summary.totalReturn ++ ", max_dd=" ++ Decimal.fixed 4 summary.maxDrawdown

/-- The record of the end of a simulation. -/
def Result.record (r : Result) : Log.Record :=
  match r.failure with
  | some failure => failureRecord failure
  | none => resultRecord r.equity.length r.trades.length r.summary

/-- Plays the bars of a setup. -/
def Setup.run {μ : Type} (settings : Settings) (s : Setup) : Routine μ Result := do
  let series ← s.blueprint.series s.bars
  let trader := trader settings s.blueprint (BarContext.table series)
  let statement ← Ledger.run s.terms.fee s.terms.capital trader (s.bars.map Bar.price)
  pure (.ofStatement s.blueprint.warnings statement)

/-- Runs a simulation. -/
def run {μ : Type} (settings : Settings) (blueprint : Option Blueprint) (prices : Supply Bar)
    (options : Options) : Routine μ Result := do
  let result ←
    match ← (Setup.read settings blueprint prices options).run with
    | .ok setup => setup.run settings
    | .error refusal =>
      let warnings := (blueprint.map Blueprint.warnings).getD []
      pure { equity := refusal.equity, warnings, failure := some refusal.failure }
  Routine.sayAll [result.record]
  pure result

end StrategyGraph.Simulation
