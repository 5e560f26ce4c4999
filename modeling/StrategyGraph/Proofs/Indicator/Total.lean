import StrategyGraph.Proofs.Indicator.Prefix

/-!
# Indicators that can be computed

Only a Bollinger band can fail, if prices lie so far from their mean that the square of the distance
is no double. Every other series over bars is computed, and has one value for each of them.

* `SquareFits` and `BandFits` : distances and bands that can be computed (`succeeds_bollinger`);
* `succeeds_ofBars`, `length_ofBars` and `ofCloses_eq_error` : the series over bars, and what can
  go wrong with them.
-/

namespace StrategyGraph.Indicator

/-! ### Bands -/

/-- The square of the distance is a double, unless the distance is none. -/
def SquareFits (d : Float) : Prop := d.isFinite = true → (d * d).isInf = false

/-- The squared distances of the values from their mean are doubles. -/
def BandFits (xs : List Float) : Prop := ∀ x ∈ xs, SquareFits (x - mean xs)

theorem succeeds_square {d : Float} : Succeeds (Radical.square d) ↔ SquareFits d := by
  change Succeeds (Number.squareFloat d) ↔ _
  rw [Number.squareFloat, SquareFits]
  cases d.isFinite <;> cases (d * d).isInf <;> simp

theorem succeeds_squaredDistances {m : Float} {xs : List Float} :
    Succeeds (squaredDistances m xs) ↔ ∀ x ∈ xs, SquareFits (x - m) := by
  rw [squaredDistances]
  generalize ((0 : Nat) : Float) = sum
  induction xs generalizing sum with
  | nil => exact iff_of_true (succeeds_ok _) fun _ h => absurd h List.not_mem_nil
  | cons x xs ih =>
    rw [List.foldlM_cons, List.forall_mem_cons]
    exact succeeds_bind_and (succeeds_map.trans succeeds_square) fun _ sum => ih sum

theorem succeeds_band {upper : Bool} {deviations : Float} {xs : List Float} :
    Succeeds (band upper deviations xs) ↔ BandFits xs := by
  rw [band, succeeds_map, deviation, succeeds_map, succeeds_squaredDistances, BandFits]

theorem succeeds_bollinger {window : Nat} {upper : Bool} {deviations : Float} {xs : List Float} :
    Succeeds (bollinger window upper deviations xs) ↔
      ∀ i < xs.length, BandFits (trailing window (xs.take (i + 1))) := by
  rw [bollinger, succeeds_mapM, overPrefixes]
  simp [succeeds_band]

theorem square_eq_error {d : Float} {fault : Fault} (h : Radical.square d = .error fault) :
    fault = .squareTooLarge := by
  change Number.squareFloat d = .error fault at h
  rw [Number.squareFloat] at h
  split at h
  · exact (Except.error.inj h).symm
  · cases h

theorem squaredDistances_eq_error {m : Float} {xs : List Float} {fault : Fault}
    (h : squaredDistances m xs = .error fault) : fault = .squareTooLarge := by
  rw [squaredDistances] at h
  generalize ((0 : Nat) : Float) = sum at h
  induction xs generalizing sum with
  | nil => cases h
  | cons x xs ih =>
    rw [List.foldlM_cons, bind_eq_error] at h
    rcases h with hsquare | ⟨sum, -, h⟩
    · exact square_eq_error (map_eq_error.1 hsquare)
    · exact ih sum h

theorem bollinger_eq_error {window : Nat} {upper : Bool} {deviations : Float} {xs : List Float}
    {fault : Fault} (h : bollinger window upper deviations xs = .error fault) :
    fault = .squareTooLarge := by
  obtain ⟨x, hx, hfault⟩ := exists_of_mapM_error h
  rw [overPrefixes] at hx
  obtain ⟨i, -, rfl⟩ := List.mem_map.1 hx
  exact squaredDistances_eq_error (map_eq_error.1 (map_eq_error.1 (map_eq_error.1 hfault)))

/-! ### Series -/

section

variable {α β : Type}

/-- A series that has no value at the first bar and then follows what lies between the bars. -/
theorem length_none_cons {xs : List α} {series : Series β} (h : series.length = xs.length - 1) :
    (if xs.isEmpty then [] else none :: series).length = xs.length := by
  cases xs with
  | nil => rfl
  | cons x xs =>
    have hseries : series.length = xs.length := h
    simp [hseries]

end

variable {kind : IndicatorKind} {window : Nat} {closes : List Float}
  {ranges : Option (List Float × List Float)} {series : Series Float}

theorem succeeds_ofCloses : Succeeds (ofCloses kind window closes ranges) ↔
    (kind = .bollingerUpper ∨ kind = .bollingerLower →
      ∀ i < closes.length, BandFits (trailing window (closes.take (i + 1)))) := by
  cases kind with
  | bollingerUpper => simpa [ofCloses] using succeeds_bollinger
  | bollingerLower => simpa [ofCloses] using succeeds_bollinger
  | atr => cases ranges <;> simp [ofCloses]
  | _ => simp [ofCloses]

theorem ofCloses_eq_error {fault : Fault} (h : ofCloses kind window closes ranges = .error fault) :
    fault = .squareTooLarge := by
  cases kind with
  | bollingerUpper | bollingerLower => exact bollinger_eq_error h
  | atr => cases ranges <;> cases h
  | rollingHigh | rollingLow | sma | ema | rsi => cases h

/-- **A series has one value for each closing price**, if there are as many highs and lows. -/
theorem length_ofCloses (h : ofCloses kind window closes ranges = .ok series)
    (hranges : ∀ r, ranges = some r → r.1.length = closes.length ∧ r.2.length = closes.length) :
    series.length = closes.length := by
  cases kind with
  | rollingHigh | rollingLow | sma | ema =>
    obtain rfl := Except.ok.inj h
    exact length_overPrefixes _ closes
  | rsi =>
    obtain rfl := Except.ok.inj h
    refine length_none_cons ?_
    simp [changes]
  | bollingerUpper | bollingerLower =>
    have hseries := length_of_mapM h
    rwa [length_overPrefixes] at hseries
  | atr =>
    cases ranges with
    | none =>
      obtain rfl := Except.ok.inj h
      refine length_none_cons ?_
      simp [sma, closeRanges, changes]
    | some r =>
      obtain rfl := Except.ok.inj h
      obtain ⟨hhighs, hlows⟩ := hranges r rfl
      refine length_none_cons ?_
      simp [sma, trueRanges, hhighs, hlows]

/-! ### Series over bars -/

variable {bars : List Bar}

theorem length_ranges? {r : List Float × List Float} (h : ranges? bars = some r) :
    r.1.length = bars.length ∧ r.2.length = bars.length := by
  have hranged : ∀ bar ∈ bars, bar.ranged := by
    intro bar hbar
    cases hbar' : bar.ranged with
    | true => rfl
    | false => cases h.symm.trans (ranges?_of_not_ranged hbar hbar')
  cases h.symm.trans (ranges?_of_ranged hranged)
  simp

theorem succeeds_ofBars : Succeeds (ofBars kind window bars) ↔
    (kind = .bollingerUpper ∨ kind = .bollingerLower →
      ∀ i < bars.length, BandFits (trailing window ((bars.map Bar.price).take (i + 1)))) := by
  rw [ofBars, succeeds_ofCloses, List.length_map]

theorem length_ofBars (h : ofBars kind window bars = .ok series) : series.length = bars.length := by
  have hlength := length_ofCloses h fun r hr => by simpa using length_ranges? hr
  rwa [List.length_map] at hlength

end StrategyGraph.Indicator
