import Mathlib.Algebra.Order.Floor.Ring
import Mathlib.Data.Rat.Floor
import Mathlib.Data.Stream.Init
import Mathlib.Tactic.GCongr
import Mathlib.Tactic.NormNum
import Mathlib.Tactic.Ring
import StrategyGraph.Price.Synthetic
import StrategyGraph.Proofs.Number.Rounded
import StrategyGraph.Proofs.Price.Normalized
import StrategyGraph.Proofs.Simulation.Accepted

/-!
# Synthetic prices can be simulated

The walk is never below one, so neither are its rounded prices, and times are laid out backwards from
the last one. Nothing here depends on the stream of numbers.

* `Random.Twister.units_eq_take` : the numbers that are drawn are the first ones of a stream;
* `Regular` : quotes that follow each other as the bars of a resolution do and are not below one;
  `regular_quotes` : **quotes of a walk are regular** in any arithmetic whose rounding keeps what is
  one at least;
* `Usable` : a regular list of bars that is normalized to itself and accepted by a simulation;
* `synthetic_usable` : synthetic bars are such a list, and fewer of them are the first of more.
-/

namespace StrategyGraph

namespace Random.Twister

/-- All numbers that a generator draws. -/
def stream (t : Twister) : Stream' Float := Stream'.corec' unit t

theorem stream_eq (t : Twister) : t.stream = Stream'.cons t.unit.1 t.unit.2.stream :=
  Stream'.corec'_eq unit t

/-- Drawing more numbers does not change those that were drawn before. -/
theorem units_eq_take (n : Nat) (t : Twister) : t.units n = t.stream.take n := by
  induction n generalizing t with
  | zero => rfl
  | succ n ih =>
    rw [stream_eq, Stream'.take_succ_cons, ← ih]
    rfl

end Random.Twister

theorem Pace.step_pos (name : String) : 0 < (Pace.ofName name).step := by
  unfold Pace.ofName
  split <;> decide

namespace Synthetic

/-! ### Quotes in any arithmetic -/

section Walk

variable {α : Type} [Add α] [Sub α] [Mul α] [Div α] [NatCast α] [LT α] [DecidableLT α]
  {round : α → α} {drift volatility start p : α} {step endTime : Int} {units more : List α}

@[simp]
theorem length_times (step endTime : Int) (n : Nat) : (times step endTime n).length = n := by
  simp [times]

@[simp]
theorem length_walk : (walk drift volatility start units).length = units.length := by
  induction units generalizing start with
  | nil => rfl
  | cons u units ih => simp [walk, ih]

@[simp]
theorem length_quotes :
    (quotes round drift volatility step start endTime units).length = units.length := by
  simp [quotes]

theorem floor_of_mem_walk (h : p ∈ walk drift volatility start units) :
    p = (1 : Nat) ∨ ((1 : Nat) : α) < p := by
  induction units generalizing start with
  | nil => cases h
  | cons u units ih =>
    rcases List.mem_cons.1 h with rfl | h
    · simp only [nextPrice]
      split
      · next hmoved => exact .inr hmoved
      · exact .inl rfl
    · exact ih h

/-- Each price depends on the numbers up to its own only. -/
theorem walk_isPrefix (h : units <+: more) :
    walk drift volatility start units <+: walk drift volatility start more := by
  obtain ⟨rest, rfl⟩ := h
  induction units generalizing start with
  | nil => exact List.nil_prefix
  | cons u units ih => exact List.cons_prefix_cons.2 ⟨rfl, ih⟩

theorem map_snd_quotes : (quotes round drift volatility step start endTime units).map Prod.snd =
    (walk drift volatility start units).map round :=
  List.map_snd_zip (by simp)

theorem map_fst_quotes : (quotes round drift volatility step start endTime units).map Prod.fst =
    times step endTime units.length :=
  List.map_fst_zip (by simp)

/-- The prices of fewer numbers are the first prices of more numbers. -/
theorem prices_isPrefix (h : units <+: more) :
    (quotes round drift volatility step start endTime units).map Prod.snd <+:
      (quotes round drift volatility step start endTime more).map Prod.snd := by
  rw [map_snd_quotes, map_snd_quotes]
  exact (walk_isPrefix h).map round

theorem isChain_times (step endTime : Int) (n : Nat) :
    (times step endTime n).IsChain fun s t => t = s + step := by
  refine List.isChain_iff_getElem.2 fun i hi => ?_
  simp only [times, List.getElem_map, List.getElem_range]
  push_cast
  ring

theorem getLast?_times (step endTime : Int) (n : Nat) :
    (times step endTime (n + 1)).getLast? = some endTime := by
  simp [times, List.range_succ]
  ring

variable [LE α]

/-- There are `n` quotes, each is a step after the one before it, the last one has the time
`endTime`, and no price is below one. -/
structure Regular (step endTime : Int) (n : Nat) (quotes : List (Int × α)) : Prop where
  /-- The number of quotes. -/
  length : quotes.length = n
  /-- Times increase by the step, -/
  steps : quotes.IsChain fun a b => b.1 = a.1 + step
  /-- and end at the given time. -/
  last : quotes.getLast?.map Prod.fst = some endTime
  /-- Prices are one at least. -/
  floor : ∀ q ∈ quotes, ((1 : Nat) : α) ≤ q.2

/-- **Quotes of a walk are regular**, whatever the stream and wherever it starts, if rounding keeps
what is one at least. -/
theorem regular_quotes
    (hround : ∀ p : α, p = (1 : Nat) ∨ ((1 : Nat) : α) < p → ((1 : Nat) : α) ≤ round p)
    (drift volatility start : α) (step endTime : Int) (hunits : units ≠ []) :
    Regular step endTime units.length
      (quotes round drift volatility step start endTime units) := by
  have htimes : (quotes round drift volatility step start endTime units).map Prod.fst =
    times step endTime units.length := map_fst_quotes
  have hprices : (quotes round drift volatility step start endTime units).map Prod.snd =
    (walk drift volatility start units).map round := map_snd_quotes
  refine ⟨length_quotes, ?_, ?_, ?_⟩
  · have hchain := isChain_times step endTime units.length
    rwa [← htimes, List.isChain_map] at hchain
  · obtain ⟨n, hn⟩ := Nat.exists_eq_succ_of_ne_zero (mt List.length_eq_zero_iff.1 hunits)
    rw [← List.getLast?_map, htimes, hn]
    exact getLast?_times step endTime n
  · intro q hq
    have hprice : q.2 ∈ (walk drift volatility start units).map round := by
      rw [← hprices]
      exact List.mem_map_of_mem hq
    obtain ⟨p, hp, hrounded⟩ := List.mem_map.1 hprice
    rw [← hrounded]
    exact hround p (floor_of_mem_walk hp)

end Walk

/-! ### Bars -/

section Bars

variable {found : List (Int × Float)} {step endTime : Int} {n : Nat}

/-- The quote as a bar. -/
def barOf (q : Int × Float) : Bar := { time := some q.1, price := q.2 }

/-- A price list of `n` bars that ends at `endTime` and can be simulated as it is. -/
structure Usable (step endTime : Int) (n : Nat) (bars : List Bar) : Prop where
  /-- The bars are regular quotes. -/
  regular : ∃ quotes, bars = quotes.map barOf ∧ Regular step endTime n quotes
  /-- Normalizing changes nothing. -/
  normalized : Bar.ofEntries (bars.map .inr) = .ok bars
  /-- A simulation takes the bars. -/
  accepted : (Simulation.readBars (bars.map .inr)).run = .ok (.ok bars)

theorem Regular.pairwise (h : Regular step endTime n found) (hstep : 0 < step) :
    found.Pairwise fun a b => a.1 < b.1 := by
  have hchain : (found.map Prod.fst).IsChain (· < ·) := by
    rw [List.isChain_map]
    exact h.steps.imp fun a b hab => by omega
  exact List.pairwise_map.1 (List.isChain_iff_pairwise.1 hchain)

theorem Regular.usable (h : Regular step endTime n found) (hstep : 0 < step) :
    Usable step endTime n (found.map barOf) := by
  have hsorted : (found.map barOf).Pairwise fun a b => a.notAfter b = true := by
    rw [List.pairwise_map]
    exact (h.pairwise hstep).imp fun hab => decide_eq_true (Int.le_of_lt hab)
  have hall : (found.map barOf).all (fun b => b.time.isSome) = true := by
    simp [barOf]
  have horder : Bar.inOrder (found.map barOf) = found.map barOf := by
    rw [Bar.inOrder, if_pos hall, List.mergeSort_of_pairwise hsorted]
  refine ⟨⟨found, rfl, h⟩, ?_, ?_⟩
  · have hagain := Bar.ofEntries_inOrder (found.map barOf)
    rwa [horder] at hagain
  · refine Simulation.readBars_accepts.2 ⟨?_, ?_, ?_⟩
    · rw [List.forall₂_map_left_iff, List.forall₂_same]
      exact fun b _ => rfl
    · intro b hb hnonpositive
      obtain ⟨q, hq, rfl⟩ := List.mem_map.1 hb
      exact Binary64.not_lt_of_le hnonpositive (Binary64.pos_of_one_le (h.floor q hq))
    · exact Bar.isChain_iff_ascendsBetweenGaps.1 hsorted.isChain

theorem take_barCount_ne_nil {α : Type} (stream : Stream' α) (points : Int) :
    stream.take (barCount points) ≠ [] := by
  rw [← List.length_pos_iff, Stream'.length_take, barCount]
  omega

theorem take_barCount_isPrefix {α : Type} (stream : Stream' α) {points more : Int}
    (h : points ≤ more) : stream.take (barCount points) <+: stream.take (barCount more) := by
  refine Stream'.take_prefix_take_left _ _ stream ?_
  unfold barCount
  omega

/-- **Bars of any stream can be simulated as they are.** -/
theorem usable_bars (name : String) (start : Float) (endTime : Int) (stream : Stream' Float)
    (points : Int) : Usable (Pace.ofName name).step endTime (barCount points)
      (bars (Pace.ofName name) start endTime (stream.take (barCount points))) := by
  have hround : ∀ p : Float, p = (1 : Nat) ∨ ((1 : Nat) : Float) < p →
      ((1 : Nat) : Float) ≤ Decimal.roundPlaces 2 p := by
    intro p hp
    refine Binary64.one_le_roundPlaces 2 ?_
    rcases hp with rfl | hp
    · exact Binary64.le_iff.2 rfl
    · exact Binary64.le_of_lt hp
  have hregular := regular_quotes hround (Pace.ofName name).drift (Pace.ofName name).volatility
    start (Pace.ofName name).step endTime (take_barCount_ne_nil stream points)
  rw [Stream'.length_take] at hregular
  exact hregular.usable (Pace.step_pos name)

theorem map_price_bars (pace : Pace) (start : Float) (endTime : Int) (units : List Float) :
    (bars pace start endTime units).map Bar.price =
      (quotes (Decimal.roundPlaces 2) pace.drift pace.volatility pace.step start endTime units).map
        Prod.snd := by
  rw [bars, List.map_map]
  rfl

/-- A price that is a double, or an integer with a nearest double, is one to start from. -/
theorem exists_startFrom {price : Number} {x : Float} (h : price.toFloat = .ok x) :
    ∃ start, startFrom (.number price) = .ok start := by
  unfold startFrom
  split
  · change ∃ start, (if Number.int 0 < price then price.toFloat else .ok 1000.0) = .ok start
    split
    · exact ⟨x, h⟩
    · exact ⟨_, rfl⟩
  · exact ⟨_, rfl⟩

end Bars

/-! ### Quotes in exact arithmetic -/

section Exact

variable {K : Type} [Field K] [LinearOrder K] {round : K → K}

/-- **Quotes of any stream are regular in exact arithmetic** if rounding is monotone and exact on
one. -/
theorem regular_exact (hround : Monotone round) (hone : round 1 = 1) (drift volatility start : K)
    (step endTime : Int) (stream : Stream' K) (points : Int) :
    Regular step endTime (barCount points)
      (quotes round drift volatility step start endTime (stream.take (barCount points))) := by
  have hkeeps : ∀ p : K, p = (1 : Nat) ∨ ((1 : Nat) : K) < p → ((1 : Nat) : K) ≤ round p := by
    intro p hp
    rw [Nat.cast_one] at hp ⊢
    calc 1
        _ = round 1 := hone.symm
        _ ≤ round p := hround (hp.elim ge_of_eq le_of_lt)
  have hregular := regular_quotes hkeeps drift volatility start step endTime
    (take_barCount_ne_nil stream points)
  rwa [Stream'.length_take] at hregular

/-- **Synthetic prices can be simulated as they are**, and fewer of them are the first of more.

* The prices of a seed are those of a stream of numbers, however many are made.
* Wherever a walk of doubles starts and whatever its stream, it has `max 2 points` bars whose times
  increase by the step of the resolution and end at the given time and whose prices are one at
  least. The list is normalized to itself, and a simulation takes it. For any number a price to
  start from is found.
* In exact arithmetic the same holds of the quotes for any rounding that is monotone and exact on
  one. -/
theorem synthetic_usable (hround : Monotone round) (hone : round 1 = 1) {points more : Int}
    (h : points ≤ more) (name : String) (endTime : Int) :
    (∀ seed, ∃ stream : Stream' Float, ∀ count start pace endTime,
      synthetic count start pace seed endTime =
        bars pace start endTime (stream.take (barCount count))) ∧
    (∀ (price : Number) (x : Float), price.toFloat = .ok x →
      ∃ start, startFrom (.number price) = .ok start) ∧
    0 < (Pace.ofName name).step ∧
    (∀ (start : Float) (stream : Stream' Float),
      let barsOf count := bars (Pace.ofName name) start endTime (stream.take (barCount count))
      Usable (Pace.ofName name).step endTime (max 2 points).toNat (barsOf points) ∧
        (barsOf points).map Bar.price <+: (barsOf more).map Bar.price) ∧
    ∀ (drift volatility start : K) (step : Int) (stream : Stream' K),
      let quotesOf count :=
        quotes round drift volatility step start endTime (stream.take (barCount count))
      Regular step endTime (max 2 points).toNat (quotesOf points) ∧
        (quotesOf points).map Prod.snd <+: (quotesOf more).map Prod.snd := by
  refine ⟨fun seed => ⟨(Random.Twister.ofSeed seed).stream, fun count start pace endTime => ?_⟩,
    fun _ _ => exists_startFrom, Pace.step_pos name, fun start stream => ⟨?_, ?_⟩,
    fun drift volatility start step stream => ⟨?_, ?_⟩⟩
  · rw [synthetic, Random.Twister.units_eq_take]
  · exact usable_bars name start endTime stream points
  · simp only [map_price_bars]
    exact prices_isPrefix (take_barCount_isPrefix stream h)
  · exact regular_exact hround hone drift volatility start step endTime stream points
  · exact prices_isPrefix (take_barCount_isPrefix stream h)

/-- The fraction rounded down to hundredths. -/
def cents (x : ℚ) : ℚ := ⌊x * 100⌋ / 100

theorem monotone_cents : Monotone cents := by
  intro x y h
  unfold cents
  gcongr

theorem synthetic_usable_cents :
    cents 1 = 1 ∧ (1 : Int) ≤ 3 ∧
    Usable 3600000 1700000000000 2
      (bars Pace.hourly 20000.0 1700000000000 ((Stream'.const 0.25).take 2)) ∧
    Regular 3600000 1700000000000 2
      (quotes cents 0.0002 0.0125 3600000 20000 1700000000000 ((Stream'.const 0.25).take 2)) ∧
    (quotes cents 0.0002 0.0125 3600000 20000 1700000000000 ((Stream'.const 0.25).take 2)).map
        Prod.snd <+:
      (quotes cents 0.0002 0.0125 3600000 20000 1700000000000 ((Stream'.const 0.25).take 3)).map
        Prod.snd := by
  have hone : cents 1 = 1 := by norm_num [cents]
  have hle : (1 : Int) ≤ 3 := by decide
  obtain ⟨-, -, -, hbars, hquotes⟩ :=
    synthetic_usable monotone_cents hone hle "1h" 1700000000000
  exact ⟨hone, hle, (hbars 20000.0 (Stream'.const 0.25)).1,
    hquotes 0.0002 0.0125 20000 3600000 (Stream'.const 0.25)⟩

end Exact

end Synthetic

end StrategyGraph
