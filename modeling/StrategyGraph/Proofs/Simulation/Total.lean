import StrategyGraph.Proofs.Blueprint.Shown
import StrategyGraph.Proofs.Price.Legible
import StrategyGraph.Proofs.Simulation.Setup
import StrategyGraph.Proofs.Simulation.Terms
import StrategyGraph.Proofs.Walk.Total

/-!
# Which simulations come to a result

A simulation reports what it cannot run as a failure, but some values of options, prices and
parameters end it with a fault instead.

* `Options.Legible` and `Legible` : the options and price lists that are read or refused;
* `Setup.Meets` : a simulation comes to a condition;
* `run_succeeds_iff` : **a simulation of a compiled strategy comes to a result if and only if its
  options and prices are legible, its series can be computed and all conditions that it comes to are
  sound.**

Operands that are no numbers are read as texts, so the values of the blueprint must be such that can
be shown; those of a compiled payload are (`compile_hasTexts`).
-/

namespace StrategyGraph

namespace Simulation

/-! ### Options and prices -/

variable {settings : Settings} {b : Blueprint} {options : Options} {raw : List Json}
  {answers : Nat → Bool}

/-- The options are read or refused: the fee is no integer beyond all doubles, nor is the capital if
the fee is a number. -/
def Options.Legible (o : Options) : Prop :=
  ¬o.feePercent.IsTooLarge ∧ (Succeeds o.feePercent.toFloat → ¬o.initialCapital.IsTooLarge)

/-- The price list is read or refused: an entry that comes after accepted ones is legible. -/
def Legible (raw : List Json) : Prop :=
  ∀ first j rest bars, raw = first ++ j :: rest →
    (readBars (first.map .inl)).run = .ok (.ok bars) → Bar.Legible j

theorem succeeds_readNumber {j : Json} : Succeeds (Terms.readNumber j) ↔ ¬j.IsTooLarge := by
  rw [readNumber_eq, succeeds_map, Json.succeeds_double?]

theorem succeeds_readTerms : Succeeds (Terms.read options).run ↔ options.Legible := by
  rw [Terms.read, succeeds_run_bind, Options.Legible]
  refine and_congr succeeds_readNumber ?_
  have hcapital : ∀ percent : Float, Succeeds (ExceptT.run do
      let capital ← ExceptT.mk (Terms.readNumber options.initialCapital)
      ExceptT.mk (.ok (Terms.check percent capital))) ↔ ¬options.initialCapital.IsTooLarge := by
    intro percent
    rw [succeeds_run_bind]
    exact (and_iff_left fun _ _ => succeeds_ok _).trans succeeds_readNumber
  constructor
  · rintro h ⟨percent, hpercent⟩
    exact (hcapital percent).1 (h percent (readNumber_eq_ok.2 hpercent))
  · intro h percent hpercent
    exact (hcapital percent).2 (h ⟨percent, readNumber_eq_ok.1 hpercent⟩)

theorem succeeds_readBarsFrom {index : Nat} {previous : Option Bar} {js : List Json} :
    Succeeds (readBarsFrom index previous (js.map .inl)).run ↔
      ∀ first j rest bars, js = first ++ j :: rest →
        (readBarsFrom index previous (first.map .inl)).run = .ok (.ok bars) → Bar.Legible j := by
  induction js generalizing index previous with
  | nil => exact iff_of_true (succeeds_ok _) fun first j rest bars h => by simp at h
  | cons j js ih =>
    have hentry : Succeeds ((readEntry (.inl j)).map (checkBar index previous)) ↔
        Bar.Legible j := by
      rw [succeeds_map]
      exact Bar.succeeds_read
    rw [List.map_cons, readBarsFrom, succeeds_run_bind]
    change Succeeds ((readEntry (.inl j)).map (checkBar index previous)) ∧ _ ↔ _
    rw [hentry]
    constructor
    · rintro ⟨hj, hrest⟩ first j' rest bars hjs hread
      cases first with
      | nil =>
        cases hjs
        exact hj
      | cons _ first =>
        rw [List.cons_append, List.cons.injEq] at hjs
        obtain ⟨rfl, rfl⟩ := hjs
        obtain ⟨bar, hbar, hread⟩ := run_bind_eq_ok.1 hread
        obtain ⟨bars, hbars, -⟩ := run_bind_eq_ok.1 hread
        have hnext := (succeeds_run_bind.1 (hrest bar hbar)).1
        exact ih.1 hnext first j' rest bars rfl hbars
    · intro h
      refine ⟨h [] j js [] rfl rfl, fun bar hbar => ?_⟩
      rw [succeeds_run_bind]
      refine ⟨ih.2 ?_, fun _ _ => succeeds_ok _⟩
      rintro first j' rest bars rfl hread
      refine h (j :: first) j' rest (bar :: bars) rfl ?_
      exact run_bind_eq_ok.2 ⟨bar, hbar, run_bind_eq_ok.2 ⟨bars, hread, rfl⟩⟩

theorem succeeds_orFlat {α : Type} {terms : Terms} {count : Except Fault Nat}
    {outcome : ExceptT Failure (Except Fault) α} (hcount : Succeeds count) :
    Succeeds (orFlat terms count outcome).run ↔ Succeeds outcome.run := by
  change Succeeds (outcome.run >>= _) ↔ _
  refine succeeds_bind_iff fun r => ?_
  cases r with
  | ok a => exact succeeds_ok _
  | error failure => exact (succeeds_bind_iff fun _ => succeeds_ok _).2 hcount

theorem succeeds_readBars : Succeeds (readBars (raw.map .inl)).run ↔ Legible raw :=
  succeeds_readBarsFrom

/-- **Which options and price lists are read or refused.** -/
theorem succeeds_readSetup :
    Succeeds (Setup.read settings (some b) (.payload (.array raw)) options).run ↔
      options.Legible ∧
        ∀ terms, (Terms.read options).run = .ok (.ok terms) → Legible raw := by
  unfold Setup.read
  rw [succeeds_run_bind]
  have hadapt : Succeeds ((Terms.read options).adapt fun failure => Refusal.mk failure []).run ↔
      options.Legible := by
    rw [← succeeds_readTerms]
    exact succeeds_map
  refine and_congr hadapt (forall_congr' fun terms =>
    imp_congr Terms.adapt_ok ?_)
  cases raw with
  | nil => exact iff_of_true (succeeds_ok _) fun first j rest bars h => by simp at h
  | cons j js =>
    dsimp only
    have hempty : (Supply.payload (.array (j :: js)) : Supply Bar).isEmpty = false := rfl
    rw [hempty]
    change Succeeds
      (orFlat terms (.ok (j :: js).length) (readBars ((j :: js).map .inl)) >>= _).run ↔ _
    rw [succeeds_run_bind, succeeds_orFlat (succeeds_ok _), succeeds_readBars]
    refine and_iff_left fun bars _ => ?_
    split
    · exact succeeds_ok _
    · split <;> exact succeeds_ok _

/-! ### Playing -/

section

variable {series : List (String × Series Float)} {a : Ledger.Account Float} {index : Nat}
  {price : Float}

/-- What is known at a bar is made of doubles, and no series ends before it. -/
theorem complete_context (hseries : ∀ s ∈ series, index < s.2.length) (entry : Option Float) :
    (context series index price entry).Complete where
  price := ⟨price, rfl⟩
  entry n hn := by
    obtain ⟨x, -, rfl⟩ := Option.map_eq_some_iff.1 hn
    exact ⟨x, rfl⟩
  reaches s hs := by
    obtain ⟨t, ht, rfl⟩ := List.mem_map.1 hs
    have hlength : index < t.2.length := hseries t ht
    have hindex : ¬(index : Int) < 0 := by omega
    simp [context, valueAt, hindex, hlength]
  values s hs n hn := by
    obtain ⟨t, -, rfl⟩ := List.mem_map.1 hs
    obtain ⟨value, -, hvalue⟩ := List.mem_map.1 hn
    obtain ⟨x, -, rfl⟩ := Option.map_eq_some_iff.1 hvalue
    exact ⟨x, rfl⟩

theorem names_context (entry : Option Float) :
    (context series index price entry).names = series.map Prod.fst := by
  simp [context, BarContext.names, BarContext.table]

variable (b series) in
/-- An account comes to a condition at a bar: while it holds cash through the entry graph, unless
the bar is the last one, and while a trade is open through the in-trade graph. -/
def MeetsAt (a : Ledger.Account Float) (index : Nat) (price : Float) (isLast : Bool)
    (c : Condition) : Prop :=
  match a.holding with
  | .cash _ => isLast = false ∧ b.entry.Meets b.condition? (context series index price none) c
  | .position _ t =>
    b.inTrade.Meets b.condition? (context series index price (some t.entryPrice)) c

theorem succeeds_asks (hseries : ∀ s ∈ series, index < s.2.length) {direction : Direction}
    {part : SubGraph} {entry : Option Float} :
    Succeeds (asks b direction part (context series index price entry)) ↔
      ∀ c, part.Meets b.condition? (context series index price entry) c →
        c.Sound (series.map Prod.fst) := by
  rw [asks, succeeds_map, SubGraph.succeeds_nextAction]
  refine forall₂_congr fun c _ => ?_
  rw [Condition.succeeds_outcome (complete_context hseries entry), names_context]

theorem succeeds_decision (hseries : ∀ s ∈ series, index < s.2.length) {isLast : Bool} :
    Succeeds (Ledger.Account.decision (decider b series answers) a index price isLast) ↔
      ∀ c, MeetsAt b series a index price isLast c → c.Sound (series.map Prod.fst) := by
  rw [Ledger.Account.decision.eq_def]
  unfold MeetsAt
  cases a.holding with
  | position amount t => exact succeeds_asks hseries
  | cash amount =>
    cases isLast with
    | true => exact iff_of_true (succeeds_ok _) fun c h => by cases h.1
    | false =>
      refine (succeeds_asks hseries).trans ?_
      simp

end

/-- A simulation comes to a condition: it plays some bars without being stopped, and the account
that it has come to meets the condition at the next one. -/
def Setup.Meets (s : Setup) (series : List (String × Series Float)) (answers : Nat → Bool)
    (c : Condition) : Prop :=
  ∃ first price rest a, s.bars.map Bar.price = first ++ price :: rest ∧
    (∀ i ≤ first.length, answers i = false) ∧
    (Ledger.Account.opened s.terms.capital).advance s.terms.fee
      (decider s.blueprint series answers) 0 first = .ok a ∧
    MeetsAt s.blueprint series a first.length price rest.isEmpty c

theorem Setup.succeeds_statement {s : Setup} {series : List (String × Series Float)}
    (hseries : ∀ values ∈ series, values.2.length = s.bars.length) :
    Succeeds (s.statement series answers) ↔
      ∀ c, s.Meets series answers c → c.Sound (series.map Prod.fst) := by
  change Succeeds (Ledger.Account.play _ _ _ _ _ >>= _) ↔ _
  refine (succeeds_bind_iff fun _ => succeeds_ok _).trans ?_
  rw [Ledger.Account.succeeds_play fun i => ⟨answers i, rfl⟩]
  have hindex : ∀ {first rest : List Float} {price : Float},
      s.bars.map Bar.price = first ++ price :: rest → ∀ values ∈ series,
        first.length < values.2.length := by
    intro first rest price hprices values hvalues
    have hlength := congrArg List.length hprices
    rw [List.length_map, List.length_append, List.length_cons] at hlength
    rw [hseries values hvalues]
    omega
  constructor
  · rintro h c ⟨first, price, rest, a, hprices, hgo, hadvance, hmeets⟩
    have hdecision := h first price rest a hprices
      (fun i hi => congrArg Except.ok (by simpa using hgo i hi)) hadvance
    rw [Nat.zero_add] at hdecision
    exact (succeeds_decision (hindex hprices)).1 hdecision c hmeets
  · intro h first price rest a hprices hgo hadvance
    rw [Nat.zero_add, succeeds_decision (hindex hprices)]
    refine fun c hc => h c ⟨first, price, rest, a, hprices, fun i hi => ?_, hadvance, hc⟩
    simpa using Except.ok.inj (hgo i hi)

-- The condition on `b` is about `Json.text`, which leaves out the limit for the digits of integers.
/-- **Which simulations come to a result.** -/
theorem run_succeeds_iff {μ : Type} {nodes : Supply Node} {edges : Supply Edge} {parameters : Json}
    (hlookback : 1 ≤ settings.lookback)
    (hcompile : compile settings nodes edges parameters = .ok b) (_ : b.HasTexts) (raw : List Json)
    (options : Options) (answers : Nat → Bool) :
    (∃ result, ((run settings (some b) (.payload (.array raw)) options :
        Routine μ Result).run answers).outcome = .ok result) ↔
      options.Legible ∧
        (∀ terms, (Terms.read options).run = .ok (.ok terms) → Legible raw) ∧
        ∀ s, (Setup.read settings (some b) (.payload (.array raw)) options).run = .ok (.ok s) →
          (∀ p ∈ b.producers, p.Fits (s.bars.map Bar.price)) ∧
            ∀ series, b.series s.bars = .ok series → ∀ c, s.Meets series answers c →
              c.Sound (b.producers.map Producer.outputKey) := by
  have hwindowed := compile_windowed hlookback hcompile
  have hsetup : ∀ s : Setup, s.blueprint = b →
      (Succeeds ((s.run settings : Routine μ Result).run answers).outcome ↔
        (∀ p ∈ b.producers, p.Fits (s.bars.map Bar.price)) ∧
          ∀ series, b.series s.bars = .ok series → ∀ c, s.Meets series answers c →
            c.Sound (b.producers.map Producer.outputKey)) := by
    rintro s rfl
    rw [Setup.outcome_run, succeeds_bind, Blueprint.succeeds_series hwindowed]
    refine and_congr_right fun _ => forall_congr' fun series => imp_congr_right fun hseries => ?_
    rw [← Blueprint.names_series hseries]
    refine (succeeds_bind_iff fun _ => succeeds_ok _).trans ?_
    exact Setup.succeeds_statement fun _ hvalues => Blueprint.length_of_mem_series hseries hvalues
  change Succeeds _ ↔ _
  rw [outcome_run, succeeds_bind, succeeds_readSetup, and_assoc]
  refine and_congr_right fun _ => and_congr_right fun _ => ⟨fun h s hs => ?_, fun h r hr => ?_⟩
  · have hblueprint : b = s.blueprint := Option.some.inj (Setup.read_ok hs).1
    exact (hsetup s hblueprint.symm).1 (h _ hs)
  · cases r with
    | error refusal => exact succeeds_ok _
    | ok s =>
      have hblueprint : b = s.blueprint := Option.some.inj (Setup.read_ok hr).1
      exact (hsetup s hblueprint.symm).2 (h s hr)

/-- A condition that holds below 15, and a purchase. -/
def dipNodes : List Json :=
  let slot := fun (label : String) (value : Json) =>
    Json.object [("label", .string label), ("parameterData", .object [("value", value)])]
  [.object [("id", .string "low"), ("type", .string "ifNode"),
     ("data", .object [("variables", .array [slot "left" (.string "close"),
       slot "right" (.ofInt 15), slot "operator" (.string "<")])])],
   .object [("id", .string "buy"), ("type", .string "buyNode")]]

/-- The condition leads to the purchase. -/
def dipEdges : List Json :=
  [.object [("source", .string "low"), ("target", .string "buy"), ("sourceHandle", .string "true")]]

/-- Prices as numbers of either type. -/
def dipPrices : List Json := [.ofFloat 10.0, .ofFloat 20.0, .ofInt 12]

/-- The simulation buys once, so it comes to its condition. -/
theorem run_succeeds_iff_dip : ∃ b,
    compile {} (.payload (.array dipNodes)) (.payload (.array dipEdges)) (.array []) = .ok b ∧
    b.HasTexts ∧
    ∃ result, ((run {} (some b) (.payload (.array dipPrices)) (.ofRequest {} []) :
        Routine Unit Result).run Routine.never).outcome = .ok result ∧ result.trades.length = 1 ∧
    ∀ s, (Setup.read {} (some b) (.payload (.array dipPrices)) (.ofRequest {} [])).run =
        .ok (.ok s) →
      ∀ series, b.series s.bars = .ok series → ∀ c, s.Meets series Routine.never c →
        c.Sound (b.producers.map Producer.outputKey) := by
  obtain ⟨b, h, hp⟩ := exists_ok_of_any
    (x := compile {} (.payload (.array dipNodes)) (.payload (.array dipEdges)) (.array []))
    (p := fun b => ((run {} (some b) (.payload (.array dipPrices)) (.ofRequest {} []) :
      Routine Unit Result).run Routine.never).outcome.toOption.any
        fun result => result.trades.length == 1) (by decide)
  obtain ⟨result, hresult, hlength⟩ := exists_ok_of_any hp
  have hshown : b.HasTexts := compile_hasTexts (by decide +kernel) (by decide +kernel) h
  obtain ⟨-, -, hsetup⟩ :=
    (run_succeeds_iff (by decide) h hshown dipPrices (.ofRequest {} []) Routine.never).1
      ⟨result, hresult⟩
  exact ⟨b, h, hshown, result, hresult, by simpa using hlength, fun s hs => (hsetup s hs).2⟩

theorem run_of_readEntry_error {μ : Type} {j : Json} {js : List Json} {terms : Terms}
    {fault : Fault} (hterms : (Terms.read options).run = .ok (.ok terms))
    (h : Bar.read j = .error fault) :
    ((run settings (some b) (.payload (.array (j :: js))) options :
      Routine μ Result).run answers).outcome = .error fault := by
  have hbars : (readBars ((j :: js).map .inl)).run = .error fault := by
    change ((Bar.read j).map _ >>= _) = _
    rw [h]
    rfl
  have hsetup : (Setup.read settings (some b) (.payload (.array (j :: js))) options).run =
      .error fault := by
    unfold Setup.read
    change (((Terms.read options).adapt _).run >>= _) = _
    rw [Terms.adapt_ok.2 hterms]
    change (((readBars ((j :: js).map .inl)).run >>= _) >>= _) = _
    rw [hbars]
    rfl
  rw [outcome_run, hsetup]
  rfl

theorem run_price_too_large : ∃ b,
    compile {} (.payload (.array dipNodes)) (.payload (.array dipEdges)) (.array []) = .ok b ∧
    ((run {} (some b) (.payload (.array [.ofInt (tenTo 400), .ofFloat 10.0])) (.ofRequest {} []) :
      Routine Unit Result).run Routine.never).outcome = .error .integerTooLarge := by
  obtain ⟨b, h, -⟩ := exists_ok_of_any
    (x := compile {} (.payload (.array dipNodes)) (.payload (.array dipEdges)) (.array []))
    (p := fun _ => true) (by decide)
  have hlarge : (Binary64.ofInt (tenTo 400)).isInf = true := by decide +kernel
  have hread : Bar.read (.ofInt (tenTo 400)) = .error .integerTooLarge := by
    change ((Number.int (tenTo 400)).toFloat.map _ >>= _) = _
    rw [Number.toFloat, hlarge]
    rfl
  exact ⟨b, h, run_of_readEntry_error rfl hread⟩

end Simulation

end StrategyGraph
