import StrategyGraph.Proofs.Simulation.Accepted
import StrategyGraph.Proofs.Simulation.Money
import StrategyGraph.Proofs.Simulation.Stopped
import StrategyGraph.Proofs.Simulation.Total

/-!
# The shape of results

Whatever a simulation comes to, its result can be drawn beside the price list.

* `Setup.equity_of_refused` : the equity that is told with a refusal stays flat at the capital;
* `Setup.length_equity` : the equity of a simulation that goes on to its end has a value for each
  entry of the price list;
* `run_shape` : **a result has a value of the equity for each entry of the price list, and a failure
  leaves everything as it was.**
-/

namespace StrategyGraph.Simulation

variable {settings : Settings} {blueprint : Option Blueprint} {prices : Supply Bar}
  {options : Options}

theorem Terms.capital_of_read {terms : Terms} (h : (Terms.read options).run = .ok (.ok terms)) :
    options.initialCapital.toFloat = .ok terms.capital := by
  obtain ⟨percent, capital, -, hcapital, -, rfl⟩ := Terms.read_eq_ok.1 h
  exact hcapital

theorem Setup.Accepts.exists_entries {terms : Terms} {bars : List Bar}
    (h : Accepts prices options terms bars) :
    ∃ entries, prices.entries = .ok entries ∧ bars.length = entries.length := by
  obtain ⟨entries, hentries, hbars⟩ := h.bars
  exact ⟨entries, hentries, (readBars_accepts.1 hbars).1.length_eq.symm⟩

theorem entries_of_isEmpty (h : prices.isEmpty = true) : prices.entries = .ok [] := by
  cases prices with
  | payload raw =>
    have hfalsy : raw.isTruthy = false := by simpa [Supply.isEmpty] using h
    simp [Supply.entries, Json.itemsIfAny, hfalsy, Except.map]
  | ready bars =>
    obtain rfl : bars = [] := List.isEmpty_iff.1 h
    rfl

/-- The equity that is told with a refusal stays flat at the capital. If it is no fee, capital or
blueprint that is refused, then it has a value for each entry of the price list. -/
theorem Setup.equity_of_refused {refusal : Refusal}
    (h : (Setup.read settings blueprint prices options).run = .ok (.error refusal)) :
    (∀ worth ∈ refusal.equity, options.initialCapital.toFloat = .ok worth) ∧
      (options.Valid → blueprint.isSome →
        ∃ entries, prices.entries = .ok entries ∧ refusal.equity.length = entries.length) := by
  have hflat : ∀ {terms : Terms} (count : Nat), (Terms.read options).run = .ok (.ok terms) →
      ∀ worth ∈ List.replicate count terms.capital, options.initialCapital.toFloat = .ok worth := by
    intro terms count hterms worth hworth
    rw [List.eq_of_mem_replicate hworth]
    exact Terms.capital_of_read hterms
  cases Setup.read_iff.1 h with
  | badTerms hterms =>
    refine ⟨by simp, fun hvalid => ?_⟩
    obtain ⟨terms, hterms'⟩ := hvalid.exists_terms
    cases hterms.symm.trans hterms'
  | noBlueprint => exact ⟨by simp, fun _ h => by cases h⟩
  | noPrices hterms hprices => exact ⟨by simp, fun _ _ => ⟨[], entries_of_isEmpty hprices, rfl⟩⟩
  | badEntry hterms _ hentries =>
    exact ⟨hflat _ hterms, fun _ _ => ⟨_, hentries, List.length_replicate⟩⟩
  | tooFewBars haccepts | noEntry haccepts =>
    obtain ⟨entries, hentries, hlength⟩ := haccepts.exists_entries
    exact ⟨hflat _ haccepts.terms, fun _ _ => ⟨entries, hentries, by simpa using hlength⟩⟩

theorem Setup.length_equity {s : Setup} {series : List (String × Series Float)}
    {answers : Nat → Bool} {statement : Ledger.Statement Float}
    (hs : (Setup.read settings blueprint prices options).run = .ok (.ok s))
    (h : s.statement series answers = .ok statement) (hstopped : statement.stopped = false) :
    ∃ entries, prices.entries = .ok entries ∧ statement.equity.length = entries.length := by
  have hlength := Ledger.length_equity_of_run h hstopped
  rw [List.length_map] at hlength
  cases Setup.read_iff.1 hs with
  | setup haccepts =>
    obtain ⟨entries, hentries, hbars⟩ := haccepts.exists_entries
    exact ⟨entries, hentries, hlength.trans hbars⟩

/-- **The shape of results.** After a failure other than being cancelled there are no trades, all of
the summary is zero and the equity is the capital throughout. With a valid fee and capital and a
blueprint the equity has a value for each entry of the price list, be it after a failure or not,
unless the simulation is cancelled. And it is not cancelled if it is never told to stop. -/
theorem run_shape {μ : Type} {answers : Nat → Bool} {result : Result}
    (h : ((run settings blueprint prices options : Routine μ Result).run answers).outcome =
      .ok result) :
    (∀ failure, result.failure = some failure → failure ≠ .cancelled →
      result.trades = [] ∧ result.summary = .zero ∧
        ∀ worth ∈ result.equity, options.initialCapital.toFloat = .ok worth) ∧
    (options.Valid → blueprint.isSome → result.failure ≠ some .cancelled →
      ∃ entries, prices.entries = .ok entries ∧ result.equity.length = entries.length) ∧
    ((∀ asked, answers asked = false) → result.failure ≠ some .cancelled) := by
  have hstopped : (∀ asked, answers asked = false) → result.failure ≠ some .cancelled := by
    intro hanswers
    obtain rfl : answers = Routine.never := funext hanswers
    exact not_cancelled h
  rw [outcome_run] at h
  obtain ⟨r, hr, h⟩ := bind_eq_ok.1 h
  cases r with
  | error refusal =>
    obtain rfl : _ = result := Except.ok.inj h
    obtain ⟨hflat, hlength⟩ := Setup.equity_of_refused hr
    exact ⟨fun _ _ _ => ⟨rfl, rfl, hflat⟩, fun hvalid hb _ => hlength hvalid hb, hstopped⟩
  | ok s =>
    change ((s.run settings : Routine μ Result).run answers).outcome = _ at h
    rw [Setup.outcome_run] at h
    obtain ⟨series, -, h⟩ := bind_eq_ok.1 h
    obtain ⟨statement, hstatement, h⟩ := bind_eq_ok.1 h
    obtain rfl : _ = result := Except.ok.inj h
    refine ⟨fun failure hfailure hne => ?_, fun _ _ hcancelled => ?_, hstopped⟩
    · -- A setup that is run fails only when it is stopped.
      cases hend : statement.stopped <;> simp [Result.ofStatement, hend] at hfailure
      exact absurd hfailure.symm hne
    · refine Setup.length_equity hr hstatement ?_
      simpa [Result.ofStatement] using hcancelled

/-- A price that is not positive stands between two that are. -/
def sunkenPrices : Supply Bar := .payload (.array [.ofInt 10, .ofInt (-1), .ofInt 12])

theorem run_shape_sunken :
    ∃ result failure, ((run {} (some swing) sunkenPrices swingOptions :
        Routine Unit Result).run Routine.never).outcome = .ok result ∧
      result.failure = some failure ∧
      failure.message = "Price series contains a non-positive price at index 1" ∧
      swingOptions.Valid ∧ result.trades = [] ∧ result.summary = .zero ∧
      (∀ worth ∈ result.equity, swingOptions.initialCapital.toFloat = .ok worth) ∧
      ∃ entries, sunkenPrices.entries = .ok entries ∧ result.equity.length = entries.length := by
  obtain ⟨result, h, hp⟩ := exists_ok_of_any
    (x := ((run {} (some swing) sunkenPrices swingOptions :
      Routine Unit Result).run Routine.never).outcome)
    (p := fun r => r.failure.any fun failure =>
      failure.message == "Price series contains a non-positive price at index 1") (by decide +kernel)
  obtain ⟨failure, hfailure, hmessage⟩ := (Option.any_eq_true _ _).1 hp
  replace hmessage := beq_iff_eq.1 hmessage
  have hcancelled : failure ≠ .cancelled := by
    rintro rfl
    exact absurd hmessage (by decide)
  have hvalid : swingOptions.Valid :=
    ⟨⟨10.0, rfl, by decide, by decide⟩, 100.0, rfl, by decide, by decide⟩
  obtain ⟨hfailed, hlength, hstopped⟩ := run_shape h
  obtain ⟨htrades, hsummary, hflat⟩ := hfailed _ hfailure hcancelled
  exact ⟨result, failure, h, hfailure, hmessage, hvalid, htrades, hsummary, hflat,
    hlength hvalid rfl (hstopped fun _ => rfl)⟩

end StrategyGraph.Simulation
