import StrategyGraph.Proofs.Indicator.Breakout
import StrategyGraph.Proofs.Indicator.Total

/-!
# Where indicators begin

A series has no value where there is not enough history for one. From then on it has a value at
every bar, however long the window is.

* `Series.StartsAt` : a series has its first value at a bar, and one at each bar after it;
* `IndicatorKind.warmUp` : at how many bars an indicator has no value, and `startsAt_ofCloses` that
  its series starts after them;
* `Indicator.rangeAt` is the true range of a bar, if there is one, and `Indicator.averagedBars` are
  the bars of which the average true range takes it; `Indicator.added_atr` : there is one of each of
  them;
* `Indicator.compute_warmUp` : **length and beginning of every series that is computed.**
-/

namespace StrategyGraph

variable {α β : Type}

/-- The series has no value before bar `k` and one at each bar from `k` on. -/
def Series.StartsAt (k : Nat) (series : Series α) : Prop :=
  ∀ i value, series[i]? = some value → (value = none ↔ i < k)

/-- A series may be longer by a bar without a value at the start. -/
theorem Series.StartsAt.cons {k : Nat} {series : Series α} (h : Series.StartsAt k series) :
    Series.StartsAt (k + 1) (none :: series) := by
  intro i value hvalue
  cases i with
  | zero => exact iff_of_true (Option.some.inj hvalue).symm (Nat.succ_pos k)
  | succ i => exact (h i value hvalue).trans Nat.succ_lt_succ_iff.symm

namespace IndicatorKind

/-- The number of bars without a value. -/
def warmUp (window : Nat) : IndicatorKind → Nat
  | .rollingHigh | .rollingLow => window
  | .ema => window - 1
  | .rsi => min 14 window
  | .atr => 1
  | .sma | .bollingerUpper | .bollingerLower => 0

end IndicatorKind

namespace Indicator

open Series (StartsAt)

/-! ### Where the series start -/

theorem startsAt_zero {series : Series α} (h : ∀ value ∈ series, value.isSome) :
    StartsAt 0 series := by
  intro i value hvalue
  refine iff_of_false ?_ (Nat.not_lt_zero i)
  exact Option.isSome_iff_ne_none.1 (h value (List.mem_of_getElem? hvalue))

theorem startsAt_overPrefixes {f : List α → Option β} {k : Nat}
    (h : ∀ p, p ≠ [] → (f p = none ↔ p.length ≤ k)) (xs : List α) :
    StartsAt k (overPrefixes f xs) := by
  intro i value hvalue
  have hi : i < xs.length := by
    have hi := (List.getElem?_eq_some_iff.1 hvalue).1
    rwa [length_overPrefixes] at hi
  have hlength : (xs.take (i + 1)).length = i + 1 := List.length_take_of_le hi
  have hprefix := h (xs.take (i + 1)) (List.ne_nil_of_length_eq_add_one hlength)
  rw [getElem?_overPrefixes f hi, Option.some.injEq] at hvalue
  rwa [hlength, hvalue] at hprefix

theorem startsAt_none_cons {k : Nat} {between : Series β} (h : StartsAt k between) (xs : List α) :
    StartsAt (k + 1) (if xs.isEmpty then [] else none :: between) := by
  cases xs with
  | nil =>
    intro i value hvalue
    cases hvalue
  | cons x xs => exact h.cons

section

variable {window : Nat}

theorem before_eq_nil {xs : List β} (hwindow : 0 < window) :
    before window xs = [] ↔ xs.length ≤ window := by
  rw [before]
  split
  · next hlength =>
    refine iff_of_false (fun hnil => ?_) (Nat.not_le.2 hlength)
    have hzero := congrArg List.length hnil
    rw [length_trailing, List.length_dropLast, List.length_nil] at hzero
    omega
  · next hlength => exact iff_of_true rfl (Nat.not_lt.1 hlength)

variable [Add α] [Div α] [NatCast α]

theorem startsAt_sma (xs : List α) : StartsAt 0 (sma window xs) := by
  refine startsAt_overPrefixes (fun p hp => iff_of_false (Option.some_ne_none _) ?_) xs
  exact Nat.not_le.2 (List.length_pos_iff.2 hp)

variable [Sub α]

theorem startsAt_rsi [LT α] [DecidableLT α] [BEq α] (hwindow : 0 < window) (xs : List α) :
    StartsAt (min 14 window) (rsi window xs) := by
  have hpos : 0 < period window := Nat.lt_min.2 ⟨Nat.succ_pos 13, hwindow⟩
  have hperiod : min 14 window = period window - 1 + 1 := (Nat.sub_add_cancel hpos).symm
  rw [hperiod]
  refine startsAt_none_cons (startsAt_overPrefixes (fun p _ => ?_) (changes xs)) xs
  rw [lastStrength]
  split
  · exact iff_of_false (Option.some_ne_none _) (by omega)
  · exact iff_of_true rfl (by omega)

variable [Mul α]

theorem startsAt_ema (hwindow : 0 < window) (xs : List α) :
    StartsAt (window - 1) (ema window xs) := by
  refine startsAt_overPrefixes (fun p _ => ?_) xs
  split
  · exact iff_of_false (Option.some_ne_none _) (by omega)
  · exact iff_of_true rfl (by omega)

theorem startsAt_bollinger [Radical α] {upper : Bool} {deviations : α} {xs : List α}
    {series : Series α} (h : bollinger window upper deviations xs = .ok series) :
    StartsAt 0 series := by
  refine startsAt_zero fun value hvalue => ?_
  -- A band that can be computed is a value, so only a fault could leave one out.
  rw [bollinger, overPrefixes, List.mapM_map] at h
  have hsome := map_eq_of_mapM (g := Option.isSome) (k := fun _ => true)
    (fun i value hvalue => by
      obtain ⟨x, -, rfl⟩ := map_eq_ok.1 hvalue
      rfl) h
  have hmem := List.mem_map_of_mem (f := Option.isSome) hvalue
  rw [hsome] at hmem
  obtain ⟨-, -, hvalue⟩ := List.mem_map.1 hmem
  exact hvalue.symm

end

/-- **The series of an indicator starts after its warm-up.** -/
theorem startsAt_ofCloses {kind : IndicatorKind} {window : Nat} {closes : List Float}
    {ranges : Option (List Float × List Float)} {series : Series Float} (hwindow : 0 < window)
    (h : ofCloses kind window closes ranges = .ok series) :
    StartsAt (kind.warmUp window) series := by
  cases kind with
  | rollingHigh =>
    obtain rfl := Except.ok.inj h
    exact startsAt_overPrefixes (fun p _ => highest_eq_none.trans (before_eq_nil hwindow)) closes
  | rollingLow =>
    obtain rfl := Except.ok.inj h
    exact startsAt_overPrefixes (fun p _ => lowest_eq_none.trans (before_eq_nil hwindow)) closes
  | sma =>
    obtain rfl := Except.ok.inj h
    exact startsAt_sma closes
  | ema =>
    obtain rfl := Except.ok.inj h
    exact startsAt_ema hwindow closes
  | rsi =>
    obtain rfl := Except.ok.inj h
    exact startsAt_rsi hwindow closes
  | bollingerUpper | bollingerLower => exact startsAt_bollinger h
  | atr =>
    cases ranges with
    | none =>
      obtain rfl := Except.ok.inj h
      exact startsAt_none_cons (startsAt_sma _) closes
    | some r =>
      obtain rfl := Except.ok.inj h
      exact startsAt_none_cons (startsAt_sma _) closes

/-! ### True ranges -/

section

variable [Sub α] [Neg α] [NatCast α] [LT α] [DecidableLT α]

/-- The true range of a bar; the first bar has none. -/
def rangeAt (closes : List α) : Option (List α × List α) → Nat → Option α
  | _, 0 => none
  | some (highs, lows), i + 1 => do
    pure (trueRange (← closes[i]?) (← highs[i + 1]?) (← lows[i + 1]?))
  | none, i + 1 => do pure (magnitude ((← closes[i + 1]?) - (← closes[i]?)))

theorem getElem?_closeRanges (closes : List α) (i : Nat) :
    (closeRanges closes)[i]? = rangeAt closes none (i + 1) := by
  rw [closeRanges, changes, List.getElem?_map, List.getElem?_zipWith, List.getElem?_tail, rangeAt]
  cases closes[i]? <;> cases closes[i + 1]? <;> rfl

theorem getElem?_trueRanges (closes highs lows : List α) (i : Nat) :
    (trueRanges closes highs lows)[i]? = rangeAt closes (some (highs, lows)) (i + 1) := by
  rw [trueRanges, List.getElem?_zipWith, List.getElem?_tail, List.zip, List.getElem?_zipWith,
    rangeAt]
  cases closes[i]? <;> cases highs[i + 1]? <;> cases lows[i + 1]? <;> rfl

end

/-- The bars whose true ranges are averaged at bar `i`: the last ones, at most `window` of them and
not the first bar. -/
def averagedBars (window i : Nat) : List Nat :=
  List.range' (max 1 (i + 1 - window)) (i + 1 - max 1 (i + 1 - window))

/-- The average adds the true ranges of these bars, and there are all of them. -/
theorem added_rangeSeries [Add α] [Div α] [NatCast α] {window i : Nat} {ranges : List α}
    {range : Nat → Option α} (h : ∀ i, ranges[i]? = range (i + 1)) (hi : 1 ≤ i)
    (hlast : i ≤ ranges.length) :
    ∃ added, (averagedBars window i).map range = added.map some ∧
      (rangeSeries window ranges)[i]? = some (some (mean added)) := by
  -- True ranges are counted from the second bar on, so that their places are one off.
  obtain ⟨i, rfl⟩ := Nat.exists_eq_add_of_le' hi
  refine ⟨trailing window (ranges.take (i + 1)), ?_, ?_⟩
  · have hstart : max 1 (i + 1 + 1 - window) = i + 1 - window + 1 := by omega
    have hlength : (ranges.take (i + 1)).length = i + 1 := List.length_take_of_le hlast
    rw [averagedBars, hstart, Nat.add_sub_add_right, trailing, hlength]
    refine List.ext_getElem (by simp [Nat.min_eq_left hlast]) fun j hj _ => ?_
    rw [List.length_map, List.length_range'] at hj
    have hrange := h (i + 1 - window + j)
    rw [List.getElem?_eq_getElem (by omega), Nat.add_right_comm] at hrange
    simpa [List.getElem_range'] using hrange.symm
  · rw [rangeSeries, List.getElem?_cons_succ, sma, getElem?_overPrefixes _ hlast]

variable {kind window : Json} {prices : Supply Bar} {closes : List Float}
  {ranges : Option (List Float × List Float)} {series : Series Float}

theorem added_atr {window : Nat} (h : ofCloses .atr window closes ranges = .ok series)
    (hranges : ∀ r, ranges = some r → r.1.length = closes.length ∧ r.2.length = closes.length)
    {i : Nat} (hi : 1 ≤ i) (hlast : i < closes.length) :
    ∃ added, (averagedBars window i).map (rangeAt closes ranges) = added.map some ∧
      series[i]? = some (some (mean added)) := by
  have hnonempty : closes.isEmpty = false := by
    rw [List.isEmpty_eq_false_iff]
    exact List.ne_nil_of_length_pos (Nat.zero_lt_of_lt hlast)
  cases ranges with
  | none =>
    obtain rfl : closeAtr window closes = series := Except.ok.inj h
    rw [closeAtr, hnonempty]
    refine added_rangeSeries (getElem?_closeRanges closes) hi ?_
    rw [closeRanges, List.length_map, changes, List.length_zipWith, List.length_tail]
    omega
  | some r =>
    obtain rfl : rangeAtr window closes r.1 r.2 = series := Except.ok.inj h
    obtain ⟨hhighs, hlows⟩ := hranges r rfl
    rw [rangeAtr, hnonempty]
    refine added_rangeSeries (getElem?_trueRanges closes r.1 r.2) hi ?_
    rw [trueRanges, List.length_zipWith, List.length_tail, List.length_zip, hhighs, hlows]
    omega

/-! ### Computed series -/

/-- Highs and lows count if there is one of each for every close. -/
theorem length_quotes (h : quotes prices = .ok (closes, ranges)) :
    ∀ r, ranges = some r → r.1.length = closes.length ∧ r.2.length = closes.length := by
  rintro r rfl
  cases prices with
  | ready bars =>
    obtain ⟨rfl, hr⟩ := Prod.mk.inj (Except.ok.inj h)
    simpa using length_ranges? hr
  | payload raw =>
    obtain ⟨items, -, h⟩ := bind_eq_ok.1 h
    obtain ⟨closes, -, h⟩ := bind_eq_ok.1 h
    cases h

theorem readWindow_pos {count : Nat} (h : readWindow window = .ok count) : 0 < count := by
  rw [readWindow] at h
  split at h
  · rw [checkWindow] at h
    split at h
    · cases h
    · next hwindow =>
      cases h
      omega
  · cases h
  · cases h

/-- **Length and beginning of every series that is computed.** A series has a value for each close
but those of its warm-up, however long the window is. The average true range is the mean of the true
ranges of the last bars, and of each of them there is one. -/
theorem compute_warmUp (h : compute kind window prices = .ok series) :
    ∃ indicator count closes ranges, IndicatorKind.ofJson? kind = some indicator ∧
      readWindow window = .ok count ∧ 1 ≤ count ∧ quotes prices = .ok (closes, ranges) ∧
      series.length = closes.length ∧
      (∀ i < closes.length, series[i]? = some none ↔ i < indicator.warmUp count) ∧
      (indicator = .atr → ∀ i, 1 ≤ i → i < closes.length →
        ∃ added, (averagedBars count i).map (rangeAt closes ranges) = added.map some ∧
          series[i]? = some (some (mean added))) := by
  obtain ⟨indicator, count, ⟨closes, ranges⟩, hkind, hcount, hquotes, h⟩ := compute_eq_ok.1 h
  have hpos := readWindow_pos hcount
  have hranges := length_quotes hquotes
  have hlength := length_ofCloses h hranges
  refine ⟨indicator, count, closes, ranges, hkind, hcount, hpos, hquotes, hlength,
    fun i hi => ?_, ?_⟩
  · have hvalue := List.getElem?_eq_getElem (hlength.symm ▸ hi)
    rw [← startsAt_ofCloses hpos h i _ hvalue, hvalue, Option.some.injEq]
  · rintro rfl i hi hlast
    exact added_atr h hranges hi hlast

theorem compute_warmUp_lapsed : ∃ series closes ranges added,
    compute (.string "atr") (.ofInt 5) (.ready lapsed) = .ok series ∧
    series = [none, some 2.0, some 1.5] ∧
    quotes (.ready lapsed) = .ok (closes, ranges) ∧
    [1, 2].map (rangeAt closes ranges) = added.map some ∧ mean added = 1.5 := by
  obtain ⟨series, h, hp⟩ := exists_ok_of_any
    (x := compute (.string "atr") (.ofInt 5) (.ready lapsed))
    (p := fun series => decide (series = [none, some 2.0, some 1.5])) (by decide +kernel)
  have hseries : series = [none, some 2.0, some 1.5] := of_decide_eq_true hp
  obtain ⟨indicator, count, closes, ranges, hkind, hcount, -, hquotes, hlength, -, hatr⟩ :=
    compute_warmUp h
  obtain rfl : .atr = indicator := Option.some.inj hkind
  obtain rfl : 5 = count := Except.ok.inj hcount
  have hlast : 2 < closes.length := by simp [← hlength, hseries]
  obtain ⟨added, hadded, hmean⟩ := hatr rfl 2 (by decide) hlast
  rw [hseries] at hmean
  exact ⟨series, closes, ranges, added, h, hseries, hquotes, hadded, by simpa using hmean.symm⟩

end Indicator

end StrategyGraph
