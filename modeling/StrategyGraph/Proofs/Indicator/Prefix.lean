import StrategyGraph.Indicator.Compute
import StrategyGraph.Proofs.Fault

/-!
# Indicators of the first bars

An indicator at a bar does not depend on later bars: its series over the first bars is the beginning
of its series over all of them.

* `take_overPrefixes`, `take_rsi`, `take_rangeAtr`, `take_closeAtr` and `bollinger_take` are this
  fact for the different ways of computing a series, and `ofCloses_take` is it for every indicator;
* `Bar.LosesRange` : the first bars have highs and lows, and a later one lacks them;
* `ofBars_take_of` : over bars, unless the average true range loses its ranges; it never does where
  all bars have a high and a low, or none has (`ofBars_take`);
* `atr_take_of_losesRange` : the average true range where it loses them;
* `compute_causal` : **when an indicator at a bar does not depend on later bars.**
-/

namespace StrategyGraph

/-- Both the highest and the lowest price are known. -/
def Bar.ranged (b : Bar) : Bool := b.high.isSome && b.low.isSome

/-- All of the bars have a high and a low, or none of them has both. -/
def Bar.Uniform (bars : List Bar) : Prop :=
  (∀ bar ∈ bars, bar.ranged) ∨ ∀ bar ∈ bars, bar.ranged = false

/-- The first `k` bars have highs and lows, all of them, and a later bar lacks one of the two. -/
def Bar.LosesRange (bars : List Bar) (k : Nat) : Prop :=
  bars.take k ≠ [] ∧ (∀ bar ∈ bars.take k, bar.ranged) ∧ ∃ bar ∈ bars.drop k, bar.ranged = false

theorem Bar.Uniform.mono {bars bars' : List Bar} (h : Bar.Uniform bars) (hsub : bars' ⊆ bars) :
    Bar.Uniform bars' :=
  h.imp (fun h bar hbar => h bar (hsub hbar)) fun h bar hbar => h bar (hsub hbar)

theorem Bar.Uniform.not_losesRange {bars : List Bar} (h : Bar.Uniform bars) (k : Nat) :
    ¬Bar.LosesRange bars k := by
  rintro ⟨hsome, hfirst, bar, hbar, hbar'⟩
  rcases h with h | h
  · cases (h bar (List.mem_of_mem_drop hbar)).symm.trans hbar'
  · obtain ⟨first, hmem⟩ := List.exists_mem_of_ne_nil _ hsome
    cases (hfirst first hmem).symm.trans (h first (List.mem_of_mem_take hmem))

namespace Indicator

variable {α β : Type}

/-! ### Series over prefixes -/

theorem take_overPrefixes (f : List α → β) (xs : List α) (k : Nat) :
    (overPrefixes f xs).take k = overPrefixes f (xs.take k) := by
  have h := overPrefixes_append f (xs.take k) (xs.drop k)
  rwa [List.take_append_drop, List.length_take, ← length_overPrefixes f xs,
    ← List.take_eq_take_min] at h

theorem take_zipWith_tail {γ : Type} (f : α → β → γ) (xs : List α) (ys : List β) (k : Nat) :
    (List.zipWith f xs ys.tail).take k =
      List.zipWith f (xs.take (k + 1)) (ys.take (k + 1)).tail := by
  refine List.ext_getElem? fun i => ?_
  simp only [List.getElem?_take, List.getElem?_zipWith, List.getElem?_tail]
  by_cases hi : i < k
  · simp only [hi, show i < k + 1 by omega, show i + 1 < k + 1 by omega, ↓reduceIte]
  · simp only [hi, show ¬ i + 1 < k + 1 by omega, ↓reduceIte]
    split <;> simp_all

theorem take_changes [Sub α] (xs : List α) (k : Nat) :
    (changes xs).take k = changes (xs.take (k + 1)) :=
  take_zipWith_tail _ xs xs k

theorem take_trueRanges [Sub α] [Neg α] [NatCast α] [LT α] [DecidableLT α]
    (closes highs lows : List α) (k : Nat) :
    (trueRanges closes highs lows).take k =
      trueRanges (closes.take (k + 1)) (highs.take (k + 1)) (lows.take (k + 1)) := by
  have hzip : (highs.zip lows).take (k + 1) = (highs.take (k + 1)).zip (lows.take (k + 1)) :=
    List.take_zipWith
  rw [trueRanges, take_zipWith_tail, hzip, trueRanges]

/-- Series that have no value at the first bar and then follow what lies between the bars. -/
theorem take_none_overPrefixes {γ : Type} (f : List β → Option γ) (xs : List α)
    {between between' : List β} {k : Nat} (h : ∀ j, k = j + 1 → between.take j = between') :
    (if xs.isEmpty then [] else none :: overPrefixes f between).take k =
      if (xs.take k).isEmpty then [] else none :: overPrefixes f between' := by
  cases k with
  | zero => simp
  | succ k =>
    cases xs with
    | nil => simp
    | cons x xs =>
      rw [← h k rfl]
      simp [take_overPrefixes]

section

variable [Add α] [Sub α] [Div α] [NatCast α] [LT α] [DecidableLT α]

theorem take_rsi [BEq α] (window : Nat) (xs : List α) (k : Nat) :
    (rsi window xs).take k = rsi window (xs.take k) := by
  refine take_none_overPrefixes (lastStrength window) xs ?_
  rintro j rfl
  exact take_changes xs j

theorem take_closeAtr [Neg α] (window : Nat) (xs : List α) (k : Nat) :
    (closeAtr window xs).take k = closeAtr window (xs.take k) := by
  refine take_none_overPrefixes _ xs ?_
  rintro j rfl
  rw [closeRanges, ← List.map_take, take_changes, closeRanges]

theorem take_rangeAtr [Neg α] (window : Nat) (closes highs lows : List α) (k : Nat) :
    (rangeAtr window closes highs lows).take k =
      rangeAtr window (closes.take k) (highs.take k) (lows.take k) := by
  refine take_none_overPrefixes _ closes ?_
  rintro j rfl
  exact take_trueRanges closes highs lows j

end

theorem bollinger_take [Add α] [Sub α] [Mul α] [Div α] [NatCast α] [Radical α] {window : Nat}
    {upper : Bool} {deviations : α} {xs : List α} {series : Series α}
    (h : bollinger window upper deviations xs = .ok series) (k : Nat) :
    bollinger window upper deviations (xs.take k) = .ok (series.take k) := by
  rw [bollinger, ← take_overPrefixes]
  exact mapM_take h k

theorem ofCloses_nil (kind : IndicatorKind) (window : Nat)
    (ranges : Option (List Float × List Float)) : ofCloses kind window [] ranges = .ok [] := by
  cases kind <;> cases ranges <;> rfl

/-- **An indicator of the first bars is the beginning of the indicator of all bars.** -/
theorem ofCloses_take {kind : IndicatorKind} {window : Nat} {closes : List Float}
    {ranges : Option (List Float × List Float)} {series : Series Float}
    (h : ofCloses kind window closes ranges = .ok series) (k : Nat) :
    ofCloses kind window (closes.take k) (ranges.map fun r => (r.1.take k, r.2.take k)) =
      .ok (series.take k) := by
  cases kind with
  | rollingHigh =>
    obtain rfl := Except.ok.inj h
    exact congrArg Except.ok (take_overPrefixes _ closes k).symm
  | rollingLow =>
    obtain rfl := Except.ok.inj h
    exact congrArg Except.ok (take_overPrefixes _ closes k).symm
  | sma =>
    obtain rfl := Except.ok.inj h
    exact congrArg Except.ok (take_overPrefixes _ closes k).symm
  | ema =>
    obtain rfl := Except.ok.inj h
    exact congrArg Except.ok (take_overPrefixes _ closes k).symm
  | rsi =>
    obtain rfl := Except.ok.inj h
    exact congrArg Except.ok (take_rsi window closes k).symm
  | bollingerUpper => exact bollinger_take h k
  | bollingerLower => exact bollinger_take h k
  | atr =>
    cases ranges with
    | none =>
      obtain rfl := Except.ok.inj h
      exact congrArg Except.ok (take_closeAtr window closes k).symm
    | some r =>
      obtain rfl := Except.ok.inj h
      exact congrArg Except.ok (take_rangeAtr window closes r.1 r.2 k).symm

/-! ### Series over bars -/

theorem mapM_of_isSome {f : α → Option β} (default : β) {xs : List α}
    (h : ∀ x ∈ xs, (f x).isSome) : xs.mapM f = some (xs.map fun x => (f x).getD default) := by
  induction xs with
  | nil => rfl
  | cons x xs ih =>
    obtain ⟨y, hy⟩ := Option.isSome_iff_exists.1 (h x List.mem_cons_self)
    rw [List.mapM_cons, hy, ih fun z hz => h z (List.mem_cons_of_mem x hz)]
    simp [hy]

theorem isSome_of_mapM {f : α → Option β} {xs : List α} {ys : List β} (h : xs.mapM f = some ys) :
    ∀ x ∈ xs, (f x).isSome := by
  induction xs generalizing ys with
  | nil => simp
  | cons x xs ih =>
    rw [List.mapM_cons] at h
    obtain ⟨y, hy, h⟩ := Option.bind_eq_some_iff.1 h
    obtain ⟨zs, hzs, -⟩ := Option.bind_eq_some_iff.1 h
    intro z hz
    rcases List.mem_cons.1 hz with rfl | hz
    · rw [hy]
      rfl
    · exact ih hzs z hz

variable {bars : List Bar}

theorem ranges?_of_ranged (h : ∀ bar ∈ bars, bar.ranged) :
    ranges? bars =
      some (bars.map fun bar => bar.high.getD 0.0, bars.map fun bar => bar.low.getD 0.0) := by
  simp only [Bar.ranged, Bool.and_eq_true] at h
  rw [ranges?, mapM_of_isSome 0.0 fun bar hbar => (h bar hbar).1,
    mapM_of_isSome 0.0 fun bar hbar => (h bar hbar).2]
  rfl

theorem ranges?_of_not_ranged {bar : Bar} (hbar : bar ∈ bars) (h : bar.ranged = false) :
    ranges? bars = none := by
  refine Option.eq_none_iff_forall_ne_some.2 fun r hr => ?_
  obtain ⟨highs, hhighs, hr⟩ := Option.bind_eq_some_iff.1 hr
  obtain ⟨lows, hlows, -⟩ := Option.bind_eq_some_iff.1 hr
  rw [Bar.ranged, isSome_of_mapM hhighs bar hbar, isSome_of_mapM hlows bar hbar] at h
  cases h

theorem ranges?_take {k : Nat} (hsome : bars.take k ≠ []) (h : ¬Bar.LosesRange bars k) :
    ranges? (bars.take k) = (ranges? bars).map fun r => (r.1.take k, r.2.take k) := by
  cases hall : bars.all Bar.ranged with
  | true =>
    have hranged := List.all_eq_true.1 hall
    have hranged' : ∀ bar ∈ bars.take k, bar.ranged := fun bar hbar =>
      hranged bar (List.mem_of_mem_take hbar)
    rw [ranges?_of_ranged hranged, ranges?_of_ranged hranged', List.map_take, List.map_take]
    rfl
  | false =>
    obtain ⟨bar, hbar, hbar'⟩ := List.all_eq_false.1 hall
    replace hbar' : bar.ranged = false := Bool.eq_false_iff.2 hbar'
    rw [ranges?_of_not_ranged hbar hbar', Option.map_none]
    cases hfirst : (bars.take k).all Bar.ranged with
    | true =>
      -- The bar without a range is none of the first ones, so it comes after them.
      have hranged := List.all_eq_true.1 hfirst
      refine absurd ⟨hsome, hranged, bar, ?_, hbar'⟩ h
      rw [← List.take_append_drop k bars] at hbar
      refine (List.mem_append.1 hbar).resolve_left fun hmem => ?_
      cases (hranged bar hmem).symm.trans hbar'
    | false =>
      obtain ⟨first, hmem, hmem'⟩ := List.all_eq_false.1 hfirst
      exact ranges?_of_not_ranged hmem (Bool.eq_false_iff.2 hmem')

variable {kind : IndicatorKind} {window : Nat} {series : Series Float} {k : Nat}

/-- Only the average true range reads highs and lows. -/
theorem ofCloses_ranges (hkind : kind ≠ .atr) (closes : List Float)
    (ranges : Option (List Float × List Float)) :
    ofCloses kind window closes ranges = ofCloses kind window closes := by
  cases kind with
  | atr => exact absurd rfl hkind
  | _ => rfl

/-- The indicator of the first bars, unless it is the average true range and a range is lost after
them. -/
theorem ofBars_take_of (h : ofBars kind window bars = .ok series)
    (hranges : kind = .atr → ¬Bar.LosesRange bars k) :
    ofBars kind window (bars.take k) = .ok (series.take k) := by
  have htake := ofCloses_take h k
  rw [← List.map_take] at htake
  rw [ofBars]
  by_cases hkind : kind = .atr
  · cases htaken : bars.take k with
    | nil =>
      -- No bars at all have no series, whether highs and lows count or not.
      rw [htaken, List.map_nil, ofCloses_nil] at htake
      rw [List.map_nil, ofCloses_nil, htake]
    | cons bar rest =>
      have hsome : bars.take k ≠ [] := by simp [htaken]
      rw [← htaken, ranges?_take hsome (hranges hkind), htake]
  · rw [ofCloses_ranges hkind] at htake ⊢
    exact htake

theorem ofBars_take (hbars : Bar.Uniform bars) (h : ofBars kind window bars = .ok series)
    (k : Nat) : ofBars kind window (bars.take k) = .ok (series.take k) :=
  ofBars_take_of h fun _ => hbars.not_losesRange k

/-- The average true range of all bars is that of the closes alone where a range is lost. -/
theorem atr_take_of_losesRange (h : ofBars .atr window bars = .ok series)
    (hranges : Bar.LosesRange bars k) :
    series.take k = closeAtr window ((bars.take k).map Bar.price) ∧
      ∃ highs lows, ranges? (bars.take k) = some (highs, lows) ∧
        ofBars .atr window (bars.take k) =
          .ok (rangeAtr window ((bars.take k).map Bar.price) highs lows) := by
  obtain ⟨-, hfirst, bar, hbar, hbar'⟩ := hranges
  rw [ofBars, ranges?_of_not_ranged (List.mem_of_mem_drop hbar) hbar'] at h
  obtain rfl : closeAtr window (bars.map Bar.price) = series := Except.ok.inj h
  refine ⟨?_, _, _, ranges?_of_ranged hfirst, ?_⟩
  · rw [take_closeAtr, List.map_take]
  · rw [ofBars, ranges?_of_ranged hfirst]
    rfl

/-- What a series is computed from: closing prices, and highs and lows if every bar has both. -/
def quotes : Supply Bar → Except Fault (List Float × Option (List Float × List Float))
  | .ready bars => .ok (bars.map Bar.price, ranges? bars)
  | .payload raw => do pure (← (← raw.items).mapM Json.toFloat, none)

theorem compute_eq_ok {kind window : Json} {prices : Supply Bar} :
    compute kind window prices = .ok series ↔
      ∃ k count q, IndicatorKind.ofJson? kind = some k ∧ readWindow window = .ok count ∧
        quotes prices = .ok q ∧ ofCloses k count q.1 q.2 = .ok series := by
  rw [compute]
  cases hkind : IndicatorKind.ofJson? kind with
  | none => simp [throw, throwThe, MonadExceptOf.throw]
  | some k =>
    simp only [Option.some.injEq, exists_and_left, exists_eq_left', bind_eq_ok]
    refine exists_congr fun count => and_congr_right fun _ => ?_
    rw [← bind_eq_ok]
    cases prices with
    | ready bars => rfl
    | payload raw => simp [quotes]

theorem compute_ready {kind window : Json} :
    compute kind window (.ready bars) = .ok series ↔
      ∃ k count, IndicatorKind.ofJson? kind = some k ∧ readWindow window = .ok count ∧
        ofBars k count bars = .ok series := by
  simp [compute_eq_ok, quotes, ofBars]

/-- **An indicator at a bar does not depend on later bars**, unless it is the average true range and
a range is lost later. Where the first bars all have highs and lows and a later one lacks them, the
average true range of all bars is that of the closes alone, and the one of the first bars is not. -/
theorem compute_causal {kind window : Json} (h : compute kind window (.ready bars) = .ok series)
    (k : Nat) :
    (¬(IndicatorKind.ofJson? kind = some .atr ∧ Bar.LosesRange bars k) →
      compute kind window (.ready (bars.take k)) = .ok (series.take k)) ∧
    (IndicatorKind.ofJson? kind = some .atr → Bar.LosesRange bars k →
      ∃ count highs lows, readWindow window = .ok count ∧
        series.take k = closeAtr count ((bars.take k).map Bar.price) ∧
        ranges? (bars.take k) = some (highs, lows) ∧
        compute kind window (.ready (bars.take k)) =
          .ok (rangeAtr count ((bars.take k).map Bar.price) highs lows)) := by
  obtain ⟨indicator, count, hkind, hcount, h⟩ := compute_ready.1 h
  constructor
  · intro hranges
    refine compute_ready.2 ⟨indicator, count, hkind, hcount, ofBars_take_of h ?_⟩
    rintro rfl hloses
    exact hranges ⟨hkind, hloses⟩
  · intro hatr hloses
    obtain rfl : indicator = .atr := Option.some.inj (hkind.symm.trans hatr)
    obtain ⟨htake, highs, lows, hranges, hfirst⟩ := atr_take_of_losesRange h hloses
    exact ⟨count, highs, lows, hcount, htake, hranges,
      compute_ready.2 ⟨.atr, count, hkind, hcount, hfirst⟩⟩

/-- Two bars with their highs and lows, and one without. -/
def lapsed : List Bar :=
  [{ time := none, price := 10.0, high := some 11.0, low := some 9.0 },
   { time := none, price := 12.0, high := some 13.0, low := some 10.0 },
   { time := none, price := 13.0 }]

theorem compute_causal_lapsed :
    Bar.LosesRange lapsed 2 ∧
    compute (.string "rsi") (.ofInt 1) (.ready (lapsed.take 2)) = .ok [none, some 100.0] ∧
    ∃ highs lows, ranges? (lapsed.take 2) = some (highs, lows) ∧
      compute (.string "atr") (.ofInt 1) (.ready (lapsed.take 2)) =
        .ok (rangeAtr 1 ((lapsed.take 2).map Bar.price) highs lows) := by
  have hloses : Bar.LosesRange lapsed 2 :=
    ⟨by simp [lapsed], by simp [lapsed, Bar.ranged], { time := none, price := 13.0 },
      by simp [lapsed], rfl⟩
  have hrsi : compute (.string "rsi") (.ofInt 1) (.ready lapsed) =
    .ok [none, some 100.0, some 100.0] := rfl
  have hatr : compute (.string "atr") (.ofInt 1) (.ready lapsed) =
    .ok [none, some 2.0, some 1.0] := rfl
  obtain ⟨count, highs, lows, hcount, -, hranges, hfirst⟩ :=
    (compute_causal hatr 2).2 (by decide) hloses
  obtain rfl : 1 = count := Except.ok.inj hcount
  exact ⟨hloses, (compute_causal hrsi 2).1 (fun h => absurd h.1 (by decide)), highs, lows, hranges,
    hfirst⟩

/-- The average true range at the second bar is three for the first two bars, and two once the third
bar is there. -/
theorem atr_lapsed :
    compute (.string "atr") (.ofInt 1) (.ready (lapsed.take 2)) = .ok [none, some 3.0] ∧
    compute (.string "atr") (.ofInt 1) (.ready lapsed) = .ok [none, some 2.0, some 1.0] ∧
    ([none, some 3.0] : Series Float) ≠ List.take 2 [none, some 2.0, some 1.0] :=
  ⟨rfl, rfl, by decide⟩

end Indicator

end StrategyGraph
