import StrategyGraph.Proofs.Json.Legible
import StrategyGraph.Proofs.Ledger.Play
import StrategyGraph.Simulation.Run

/-!
# What simulations come to

The outcome of a simulation, without the traces that it leaves on its way.

* `Supply.bars` are the bars of a price list, and `context` is what a walk knows at one of them;
* `Setup.Reads` lists what reading a setup can come to, and `Setup.read_iff` says that it comes to
  nothing else; `Setup.read_ok` says what a setup consists of;
* `decider` decides as the sub-graphs ask: it is the trader of a simulation with the answers to its
  questions at hand (`answered_trader`);
* `Setup.outcome_run` and `outcome_run` are the outcomes of a simulation;
* `run_ok` : a simulation without failure read a setup and ran it to its end.
-/

namespace StrategyGraph

open Simulation in
/-- The bars of a price list as a simulation reads them; none when it cannot be read. -/
def Supply.bars (prices : Supply Bar) : List Bar :=
  match (do readBars (← prices.entries) : ExceptT Failure (Except Fault) (List Bar)).run with
  | .ok (.ok bars) => bars
  | _ => []

namespace Simulation

/-- What a walk knows at a bar. -/
def context (series : List (String × Series Float)) (index : Nat) (price : Float)
    (entry : Option Float) : BarContext :=
  { index, price := .float price, entry := entry.map .float, series := BarContext.table series }

section

variable (b : Blueprint)

/-- A sub-graph asks for an action in this direction. -/
def asks (direction : Direction) (part : SubGraph) (ctx : BarContext) : Except Fault Bool :=
  (part.nextAction b.condition? ctx).outcome.map fun found =>
    (found.filter fun a => a.direction = direction).isSome

/-- Decides as the sub-graphs ask, and stops as the answers say. -/
def decider (series : List (String × Series Float)) (answers : Nat → Bool) :
    Ledger.Trader (Except Fault) Float where
  stops index := .ok (answers index)
  buys index price := asks b .buy b.entry (context series index price none)
  sells index price entry := asks b .sell b.inTrade (context series index price (some entry))

end

/-! ### Reading a setup -/

section

variable {settings : Settings} {blueprint : Option Blueprint} {prices : Supply Bar}
  {options : Options} {terms : Terms} {entries : List (Json ⊕ Bar)}

/-- The terms in the options and the bars of a price list are accepted. -/
structure Setup.Accepts (prices : Supply Bar) (options : Options) (terms : Terms)
    (bars : List Bar) : Prop where
  /-- The terms. -/
  terms : (Terms.read options).run = .ok (.ok terms)
  /-- There are prices. -/
  given : prices.isEmpty = false
  /-- Each entry is read as a bar. -/
  bars : ∃ entries, prices.entries = .ok entries ∧ (readBars entries).run = .ok (.ok bars)

/-- What reading a setup comes to: the first refusal, with the equity that is told with it, or the
setup. -/
inductive Setup.Reads (settings : Settings) (prices : Supply Bar) (options : Options) :
    Option Blueprint → Except Refusal Setup → Prop where
  /-- Fee or capital are refused. -/
  | badTerms {blueprint : Option Blueprint} {failure : Failure}
    (h : (Terms.read options).run = .ok (.error failure)) :
    Reads settings prices options blueprint (.error ⟨failure, []⟩)
  /-- There is no blueprint. -/
  | noBlueprint {terms : Terms} (h : (Terms.read options).run = .ok (.ok terms)) :
    Reads settings prices options none (.error ⟨.noBlueprint, []⟩)
  /-- There are no prices. -/
  | noPrices {b : Blueprint} {terms : Terms} (h : (Terms.read options).run = .ok (.ok terms))
    (hprices : prices.isEmpty = true) :
    Reads settings prices options (some b) (.error ⟨.noPrices, []⟩)
  /-- An entry is refused. -/
  | badEntry {b : Blueprint} {terms : Terms} {entries : List (Json ⊕ Bar)} {failure : Failure}
    (h : (Terms.read options).run = .ok (.ok terms)) (hprices : prices.isEmpty = false)
    (hentries : prices.entries = .ok entries)
    (hbars : (readBars entries).run = .ok (.error failure)) :
    Reads settings prices options (some b)
      (.error ⟨failure, List.replicate entries.length terms.capital⟩)
  /-- There are too few bars. -/
  | tooFewBars {b : Blueprint} {terms : Terms} {bars : List Bar}
    (h : Accepts prices options terms bars) (hcount : (bars.length : Int) < settings.minBars) :
    Reads settings prices options (some b) (.error
      ⟨.tooFewBars bars.length settings.minBars, List.replicate bars.length terms.capital⟩)
  /-- The strategy cannot buy. -/
  | noEntry {b : Blueprint} {terms : Terms} {bars : List Bar}
    (h : Accepts prices options terms bars) (hcount : ¬(bars.length : Int) < settings.minBars)
    (hentry : b.entry.isEmpty = true) :
    Reads settings prices options (some b)
      (.error ⟨.noEntry, List.replicate bars.length terms.capital⟩)
  /-- Nothing is refused. -/
  | setup {b : Blueprint} {terms : Terms} {bars : List Bar}
    (h : Accepts prices options terms bars) (hcount : ¬(bars.length : Int) < settings.minBars)
    (hentry : b.entry.isEmpty = false) :
    Reads settings prices options (some b) (.ok { blueprint := b, terms, bars })

theorem Terms.adapt_error {refuse : Failure → Refusal} {refusal : Refusal} :
    ((Terms.read options).adapt refuse).run = .ok (.error refusal) ↔
      ∃ failure, (Terms.read options).run = .ok (.error failure) ∧ refuse failure = refusal := by
  refine map_eq_ok.trans ⟨?_, ?_⟩
  · rintro ⟨r, hr, h⟩
    cases r with
    | ok terms => cases h
    | error failure => exact ⟨failure, hr, Except.error.inj h⟩
  · rintro ⟨failure, h, rfl⟩
    exact ⟨_, h, rfl⟩

theorem Terms.adapt_ok {refuse : Failure → Refusal} :
    ((Terms.read options).adapt refuse).run = .ok (.ok terms) ↔
      (Terms.read options).run = .ok (.ok terms) := by
  refine map_eq_ok.trans ⟨?_, fun h => ⟨_, h, rfl⟩⟩
  rintro ⟨r, hr, h⟩
  cases r with
  | ok a =>
    obtain rfl : a = terms := Except.ok.inj h
    exact hr
  | error failure => cases h

theorem count_eq (hprices : prices.isEmpty = false) (hentries : prices.entries = .ok entries) :
    count prices = .ok entries.length := by
  cases prices with
  | payload raw =>
    obtain ⟨items, hitems, rfl⟩ := map_eq_ok.1 hentries
    have htruthy : raw.isTruthy = true := by simpa [Supply.isEmpty] using hprices
    rw [Json.itemsIfAny, if_pos htruthy] at hitems
    rw [List.length_map]
    exact Json.length_of_items hitems
  | ready bars =>
    cases hentries
    rw [List.length_map]
    rfl

/-- The bars are read entry by entry, or the equity of their refusal stays flat. -/
theorem orFlat_readBars (terms : Terms) (hprices : prices.isEmpty = false)
    (hentries : prices.entries = .ok entries) :
    (orFlat terms (count prices) (do readBars (← prices.entries))).run =
      (readBars entries).run.map (Except.mapError fun failure =>
        ⟨failure, List.replicate entries.length terms.capital⟩) := by
  have hread : (do readBars (← prices.entries) :
      ExceptT Failure (Except Fault) (List Bar)).run = (readBars entries).run := by
    rw [hentries]
    rfl
  rw [orFlat, hread, count_eq hprices hentries]
  cases (readBars entries).run with
  | error fault => rfl
  | ok r => cases r <;> rfl

/-- Where terms and bars are accepted, the number of bars and the strategy decide. -/
theorem Setup.Accepts.read_eq {bars : List Bar} (h : Accepts prices options terms bars)
    (b : Blueprint) : (Setup.read settings (some b) prices options).run = .ok (
      if (bars.length : Int) < settings.minBars then .error
        ⟨.tooFewBars bars.length settings.minBars, List.replicate bars.length terms.capital⟩
      else if b.entry.isEmpty then
        .error ⟨.noEntry, List.replicate bars.length terms.capital⟩
      else .ok { blueprint := b, terms, bars }) := by
  obtain ⟨entries, hentries, hbars⟩ := h.bars
  unfold Setup.read
  refine run_bind_eq.2 (.inr ⟨terms, Terms.adapt_ok.2 h.terms, ?_⟩)
  dsimp only
  rw [h.given]
  refine run_bind_eq.2 (.inr ⟨bars, ?_, ?_⟩)
  · rw [orFlat_readBars terms h.given hentries, hbars]
    rfl
  · split
    · rfl
    · cases b.entry.isEmpty <;> rfl

/-- **What reading a setup comes to.** -/
theorem Setup.read_iff {r : Except Refusal Setup} :
    (Setup.read settings blueprint prices options).run = .ok r ↔
      Setup.Reads settings prices options blueprint r := by
  constructor
  · intro hr
    have h := hr
    unfold Setup.read at h
    rcases run_bind_eq.1 h with ⟨refusal, hrefused, rfl⟩ | ⟨terms, hterms, h⟩
    · obtain ⟨failure, hterms, rfl⟩ := Terms.adapt_error.1 hrefused
      exact .badTerms hterms
    replace hterms := Terms.adapt_ok.1 hterms
    cases blueprint with
    | none =>
      cases h
      exact .noBlueprint hterms
    | some b =>
      dsimp only at h
      cases hprices : prices.isEmpty with
      | true =>
        rw [hprices] at h
        cases h
        exact .noPrices hterms hprices
      | false =>
        rw [hprices] at h
        obtain ⟨entries, hentries⟩ : Succeeds prices.entries := by
          cases hentries : prices.entries with
          | ok entries => exact succeeds_ok _
          | error fault =>
            rw [hentries] at h
            cases h
        change (orFlat terms (count prices) (do readBars (← prices.entries)) >>= _).run = _ at h
        rw [run_bind_eq, orFlat_readBars terms hprices hentries] at h
        rcases h with ⟨refusal, hread, rfl⟩ | ⟨bars, hread, -⟩
        · obtain ⟨read, hbars, hread⟩ := map_eq_ok.1 hread
          cases read with
          | ok bars => cases hread
          | error failure =>
            cases hread
            exact .badEntry hterms hprices hentries hbars
        · obtain ⟨read, hbars, hread⟩ := map_eq_ok.1 hread
          obtain rfl : read = .ok bars := mapError_eq_ok.1 hread
          have haccepts : Accepts prices options terms bars :=
            ⟨hterms, hprices, entries, hentries, hbars⟩
          rw [haccepts.read_eq] at hr
          obtain rfl := Except.ok.inj hr
          split
          · next hcount => exact .tooFewBars haccepts hcount
          · next hcount =>
            cases hentry : b.entry.isEmpty with
            | true => exact .noEntry haccepts hcount hentry
            | false => exact .setup haccepts hcount hentry
  · intro h
    cases h with
    | badTerms h =>
      exact run_bind_eq.2 (.inl ⟨_, Terms.adapt_error.2 ⟨_, h, rfl⟩, rfl⟩)
    | noBlueprint h => exact run_bind_eq.2 (.inr ⟨_, Terms.adapt_ok.2 h, rfl⟩)
    | noPrices h hprices =>
      refine run_bind_eq.2 (.inr ⟨_, Terms.adapt_ok.2 h, ?_⟩)
      dsimp only
      rw [hprices]
      rfl
    | badEntry h hprices hentries hbars =>
      refine run_bind_eq.2 (.inr ⟨_, Terms.adapt_ok.2 h, ?_⟩)
      dsimp only
      rw [hprices]
      refine run_bind_eq.2 (.inl ⟨_, ?_, rfl⟩)
      rw [orFlat_readBars _ hprices hentries, hbars]
      rfl
    | tooFewBars h hcount => exact (h.read_eq _).trans (by rw [if_pos hcount])
    | noEntry h hcount hentry => exact (h.read_eq _).trans (by rw [if_neg hcount, if_pos hentry])
    | setup h hcount hentry =>
      exact (h.read_eq _).trans (by rw [if_neg hcount, hentry, if_neg Bool.false_ne_true])

theorem Setup.Accepts.bars_eq {bars : List Bar} (h : Accepts prices options terms bars) :
    prices.bars = bars := by
  obtain ⟨entries, hentries, hbars⟩ := h.bars
  have hread : (do readBars (← prices.entries) :
      ExceptT Failure (Except Fault) (List Bar)).run = .ok (.ok bars) := by
    rw [hentries]
    exact hbars
  rw [Supply.bars, hread]

theorem Setup.read_ok {s : Setup}
    (h : (Setup.read settings blueprint prices options).run = .ok (.ok s)) :
    blueprint = some s.blueprint ∧ s.bars = prices.bars ∧
      (Terms.read options).run = .ok (.ok s.terms) := by
  cases Setup.read_iff.1 h with
  | setup haccepts => exact ⟨rfl, haccepts.bars_eq.symm, haccepts.terms⟩

end

/-! ### Running a setup -/

variable {μ : Type} {answers : Nat → Bool}

section

variable (settings : Settings) (b : Blueprint) (series : List (String × Series Float))

theorem quiet_asksFor (direction : Direction) (part : SubGraph) (index : Nat) (price : Float)
    (entry : Option Float) :
    (asksFor settings b (BarContext.table series) direction part index price entry :
      Routine μ Bool).Quiet := by
  unfold asksFor
  refine (Routine.Quiet.sayAll _).bind fun _ => (Routine.Quiet.lift _).bind fun found => ?_
  exact (Routine.Quiet.sayAll _).bind fun _ => .pure _

theorem outcome_asksFor (direction : Direction) (part : SubGraph) (index : Nat) (price : Float)
    (entry : Option Float) :
    ((asksFor settings b (BarContext.table series) direction part index price entry :
      Routine μ Bool).run Routine.never).outcome =
      asks b direction part (context series index price entry) := by
  unfold asksFor Routine.run
  simp only [Routine.outcome_sayAll_bind]
  rw [(Routine.Quiet.lift _).outcome_bind]
  simp only [Routine.outcome_sayAll_bind]
  rfl

theorem attentive_trader : (trader settings b (BarContext.table series) :
    Ledger.Trader (Routine μ) Float).Attentive where
  stops _ := rfl
  buys _ _ := quiet_asksFor ..
  sells _ _ _ := quiet_asksFor ..

theorem answered_trader : (trader settings b (BarContext.table series) :
    Ledger.Trader (Routine μ) Float).answered answers = decider b series answers := by
  simp only [Ledger.Trader.answered, trader, decider, outcome_asksFor]

end

/-- The statement of a setup, for given answers to its questions. -/
def Setup.statement (s : Setup) (series : List (String × Series Float)) (answers : Nat → Bool) :
    Except Fault (Ledger.Statement Float) :=
  Ledger.run s.terms.fee s.terms.capital (decider s.blueprint series answers)
    (s.bars.map Bar.price)

theorem Setup.outcome_run (settings : Settings) (s : Setup) :
    ((s.run settings : Routine μ Result).run answers).outcome = (do
      let series ← s.blueprint.series s.bars
      let statement ← s.statement series answers
      pure (.ofStatement s.blueprint.warnings statement)) := by
  unfold Setup.run Routine.run
  rw [(Routine.Quiet.lift _).outcome_bind]
  congr 1
  funext series
  rw [Routine.outcome_bind, ← Routine.run, (attentive_trader ..).outcome_run, answered_trader]
  simp only [Routine.outcome_pure]
  rfl

theorem outcome_run (settings : Settings) (blueprint : Option Blueprint) (prices : Supply Bar)
    (options : Options) :
    ((run settings blueprint prices options : Routine μ Result).run answers).outcome = (do
      match ← (Setup.read settings blueprint prices options).run with
      | .ok setup => ((setup.run settings : Routine μ Result).run answers).outcome
      | .error refusal =>
        pure
          { equity := refusal.equity
            warnings := (blueprint.map Blueprint.warnings).getD []
            failure := some refusal.failure }) := by
  unfold run Routine.run
  rw [(Routine.Quiet.lift _).outcome_bind]
  congr 1
  funext r
  cases r with
  | ok setup =>
    simp only [Routine.outcome_bind, Routine.outcome_pure]
    exact bind_pure _
  | error refusal => rfl

theorem run_ok {settings : Settings} {blueprint : Option Blueprint} {prices : Supply Bar}
    {options : Options} {result : Result}
    (h : ((run settings blueprint prices options : Routine μ Result).run answers).outcome =
      .ok result)
    (hok : result.failure = none) :
    ∃ s series statement,
      (Setup.read settings blueprint prices options).run = .ok (.ok s) ∧
      s.blueprint.series s.bars = .ok series ∧ s.statement series answers = .ok statement ∧
      statement.stopped = false ∧ result = .ofStatement s.blueprint.warnings statement := by
  rw [outcome_run] at h
  obtain ⟨r, hr, h⟩ := bind_eq_ok.1 h
  cases r with
  | error refusal =>
    obtain rfl : _ = result := Except.ok.inj h
    cases hok
  | ok s =>
    change ((s.run settings : Routine μ Result).run answers).outcome = _ at h
    rw [Setup.outcome_run] at h
    obtain ⟨series, hseries, h⟩ := bind_eq_ok.1 h
    obtain ⟨statement, hstatement, h⟩ := bind_eq_ok.1 h
    obtain rfl : _ = result := Except.ok.inj h
    refine ⟨s, series, statement, hr, hseries, hstatement, ?_, rfl⟩
    cases hstopped : statement.stopped with
    | false => rfl
    | true => simp [Result.ofStatement, hstopped] at hok

/-- Other answers change the statement of a simulation and nothing else. -/
theorem outcome_run_of_setup {settings : Settings} {blueprint : Option Blueprint}
    {prices : Supply Bar} {options : Options} {s : Setup} {series : List (String × Series Float)}
    (hs : (Setup.read settings blueprint prices options).run = .ok (.ok s))
    (hseries : s.blueprint.series s.bars = .ok series) :
    ((run settings blueprint prices options : Routine μ Result).run answers).outcome =
      (s.statement series answers).map (.ofStatement s.blueprint.warnings) := by
  rw [outcome_run, hs]
  change ((s.run settings : Routine μ Result).run answers).outcome = _
  rw [Setup.outcome_run, hseries]
  rfl

end Simulation

end StrategyGraph
