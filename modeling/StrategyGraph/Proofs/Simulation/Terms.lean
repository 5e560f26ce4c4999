import Mathlib.Tactic.NormNum
import StrategyGraph.Proofs.Json.Legible
import StrategyGraph.Proofs.Number.Value
import StrategyGraph.Simulation.Terms

/-!
# Terms that a simulation accepts

* `Terms.Allowed` : fee and capital are within their bounds;
* `Terms.read_eq_ok` : **which options are accepted, and as which terms**;
* `Terms.Allowed.percent_lt` and `Terms.Allowed.capital_pos` say what the bounds mean for the values
  of the two doubles.
-/

namespace StrategyGraph.Simulation

theorem readNumber_eq (j : Json) :
    Terms.readNumber j = j.double?.map fun x => x.elim (.error .notNumbers) .ok := by
  rw [Terms.readNumber, Json.double?]
  cases j.toFloat with
  | error fault => cases fault <;> rfl
  | ok x => rfl

theorem readNumber_eq_ok {j : Json} {x : Float} :
    Terms.readNumber j = .ok (.ok x) ↔ j.toFloat = .ok x := by
  rw [readNumber_eq, map_eq_ok, ← Json.double?_eq_some]
  constructor
  · rintro ⟨r, hr, h⟩
    cases r with
    | none => cases h
    | some y =>
      cases h
      exact hr
  · intro h
    exact ⟨some x, h, rfl⟩

namespace Terms

variable {percent capital : Float} {options : Options} {terms : Terms}

/-- The fee in percent and the capital are within their bounds. -/
structure Allowed (percent capital : Float) : Prop where
  /-- The fee is finite, -/
  feeFinite : percent.isFinite = true
  /-- not negative, -/
  feeLeast : ¬percent < 0.0
  /-- and less than everything. -/
  feeLess : ¬100.0 ≤ percent
  /-- The capital is finite -/
  capitalFinite : capital.isFinite = true
  /-- and positive. -/
  capitalPositive : ¬capital ≤ 0.0

theorem check_eq_ok : check percent capital = .ok terms ↔
    Allowed percent capital ∧ terms = { fee := percent / 100.0, capital } := by
  unfold check
  constructor
  · intro h
    split at h
    · cases h
    · next hfee =>
      split at h
      · cases h
      · next hcapital =>
        cases h
        simp only [Bool.or_eq_true, Bool.not_eq_true', decide_eq_true_eq, not_or,
          Bool.not_eq_false] at hfee hcapital
        exact ⟨⟨hfee.1.1, hfee.1.2, hfee.2, hcapital.1, hcapital.2⟩, rfl⟩
  · rintro ⟨h, rfl⟩
    simp [h.feeFinite, h.feeLeast, h.feeLess, h.capitalFinite, h.capitalPositive]

/-- **Which options are accepted, and as which terms.** -/
theorem read_eq_ok : (read options).run = .ok (.ok terms) ↔ ∃ percent capital,
    options.feePercent.toFloat = .ok percent ∧ options.initialCapital.toFloat = .ok capital ∧
      Allowed percent capital ∧ terms = { fee := percent / 100.0, capital } := by
  simp only [read, run_bind_eq_ok, ← check_eq_ok, ← readNumber_eq_ok]
  constructor
  · rintro ⟨percent, hpercent, capital, hcapital, h⟩
    exact ⟨percent, capital, hpercent, hcapital, Except.ok.inj h⟩
  · rintro ⟨percent, capital, hpercent, hcapital, h⟩
    exact ⟨percent, hpercent, capital, hcapital, congrArg Except.ok h⟩

open Binary64 (value value_lt_of_not_le)

theorem value_zero : value 0.0 = 0 := Binary64.value_of_unpack_zero (s := .positive) rfl

theorem value_hundred : value 100.0 = 100 := by
  have hparts : Binary64.parts 100.0 =
      { negative := false, mantissa := 7036874417766400, exponent := -46 } := rfl
  rw [value, hparts]
  norm_num [Binary64.Parts.value, Binary64.Parts.magnitude]

theorem Allowed.percent_lt (h : Allowed percent capital) : value percent < 100 := by
  rw [← value_hundred]
  exact value_lt_of_not_le (by decide) h.feeFinite h.feeLess

theorem Allowed.capital_pos (h : Allowed percent capital) : 0 < value capital := by
  rw [← value_zero]
  exact value_lt_of_not_le h.capitalFinite (by decide) h.capitalPositive

end Terms

end StrategyGraph.Simulation
