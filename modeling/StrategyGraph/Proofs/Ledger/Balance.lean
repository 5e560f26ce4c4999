import Mathlib.Algebra.BigOperators.Group.List.Basic
import Mathlib.Algebra.Order.Field.Basic
import Mathlib.Tactic.NormNum
import Mathlib.Tactic.Positivity
import Mathlib.Tactic.Ring
import StrategyGraph.Proofs.Ledger.Prefix

/-!
# Equity and returns

A run keeps two sets of books: the equity at each bar, from what the account holds, and the net
return of each trade, from two prices and the fee. In a field, where nothing is rounded, they agree.

* `growth` is what trades make of one unit of cash;
* `Valued` : what an account is worth after a bar, according to its trades;
* `Account.Accounted` : what an account holds is what its trades have made of the capital;
* `Account.Balanced` : the whole history of an account is worth that, which `Account.Balanced.step`
  keeps so;
* `run_balanced` : equity and summary of a run that goes on to its end, by any trader.
-/

namespace StrategyGraph.Ledger

variable {K : Type} [Field K]

/-- What trades that have ended make of one unit of cash. -/
def growth (ts : List (Trade K)) : K :=
  ((ts.filterMap Trade.exit).map fun exit => 1 + exit.netReturn).prod

@[simp]
theorem growth_nil : growth ([] : List (Trade K)) = 1 := rfl

@[simp]
theorem growth_append (ts us : List (Trade K)) : growth (ts ++ us) = growth ts * growth us := by
  simp [growth]

theorem growth_ended (price : Nat → K) (fee : K) (e x : Nat) :
    growth [.ended price fee e x] = price x / price e * ((1 - fee) * (1 - fee)) := by
  simp [growth, Trade.ended, Trade.close, Trade.opened, Trade.kept]

/-! ### What trades are worth -/

/-- What an account with these trades is worth after bar `i`: the cash that the trades before have
left, or the position that this cash has bought. -/
structure Valued (price : Nat → K) (fee capital : K) (ts : List (Trade K)) (i : Nat) (worth : K) :
    Prop where
  flat : (∀ t ∈ ts, ¬ t.OpenAt i) → worth = capital * growth (endedBefore (i + 1) ts)
  invested : ∀ t ∈ ts, t.OpenAt i →
    worth = capital * growth (endedBefore (i + 1) ts) * (1 - fee) * price i / t.entryPrice

variable {price : Nat → K} {fee capital : K} {ts : List (Trade K)}

/-- A later purchase changes nothing before it. -/
theorem Valued.opened {i e : Nat} {worth : K} (h : Valued price fee capital ts i worth)
    (hi : i < e) : Valued price fee capital (ts ++ [.opened price e]) i worth := by
  have hclosed : ¬ (Trade.opened price e).OpenAt i := by
    rw [Trade.openAt_opened]
    omega
  constructor
  · intro hnone
    rw [endedBefore_append, endedBefore_opened, List.append_nil]
    exact h.flat fun t ht => hnone t (List.mem_append_left _ ht)
  · intro t ht hopen
    rw [endedBefore_append, endedBefore_opened, List.append_nil]
    rcases List.mem_append.1 ht with ht | ht
    · exact h.invested t ht hopen
    · obtain rfl := List.mem_singleton.1 ht
      exact absurd hopen hclosed

/-- A later sale changes nothing before it. -/
theorem Valued.ended {i e x : Nat} {worth : K}
    (h : Valued price fee capital (ts ++ [.opened price e]) i worth) (hi : i < x) :
    Valued price fee capital (ts ++ [.ended price fee e x]) i worth := by
  have hopenAt : (Trade.ended price fee e x).OpenAt i ↔ (Trade.opened price e).OpenAt i := by
    rw [Trade.openAt_ended, Trade.openAt_opened, and_iff_left hi]
  have hbefore : endedBefore (i + 1) (ts ++ [.ended price fee e x]) =
      endedBefore (i + 1) (ts ++ [.opened price e]) := by
    rw [endedBefore_append, endedBefore_append, endedBefore_ended price fee hi, endedBefore_opened]
  constructor
  · intro hnone
    rw [hbefore]
    refine h.flat fun t ht => ?_
    rcases List.mem_append.1 ht with ht | ht
    · exact hnone t (List.mem_append_left _ ht)
    · obtain rfl := List.mem_singleton.1 ht
      exact hopenAt.not.1 (hnone _ (by simp))
  · intro t ht hopen
    rw [hbefore]
    rcases List.mem_append.1 ht with ht | ht
    · exact h.invested t (List.mem_append_left _ ht) hopen
    · obtain rfl := List.mem_singleton.1 ht
      exact h.invested (.opened price e) (by simp) (hopenAt.1 hopen)

/-! ### Balanced accounts -/

/-- What a unit of cash that went into a holding is worth at a price. -/
def Holding.exposure (fee price : K) : Holding K → K
  | .cash _ => 1
  | .position _ t => (1 - fee) * price / t.entryPrice

namespace Account

/-- What the account holds is what its trades have made of the capital. -/
def Accounted (fee capital : K) (a : Account K) : Prop :=
  ∀ p, a.worth p = capital * growth a.trades.toList * a.holding.exposure fee p

/-- The account when bar `index` is next: at every bar before it was worth what its trades made of
the capital. -/
structure Balanced (price : Nat → K) (fee capital : K) (index : Nat) (a : Account K) : Prop
    extends a.Reached price fee index where
  accounted : a.Accounted fee capital
  valued : ∀ i worth, a.equity.toList[i]? = some worth →
    Valued price fee capital a.allTrades i worth

theorem balanced_opened (capital : K) : (opened capital).Balanced price fee capital 0 where
  toReached := reached_opened capital
  accounted p := by simp [opened, worth, Holding.exposure]
  valued i worth h := by simp [opened] at h

/-- A purchase costs the fee, and so does a sale. -/
theorem Accounted.trade {a : Account K} {index : Nat} (h : a.Accounted fee capital)
    (ha : a.Reached price fee index) : (a.trade fee index (price index)).Accounted fee capital := by
  intro p
  obtain ⟨holding, trades, equity⟩ := a
  have hnow := h (price index)
  cases holding with
  | cash amount =>
    simp only [worth, Holding.exposure, mul_one] at hnow
    simp only [Account.trade, worth, Holding.exposure, hnow, Nat.cast_one]
    ring
  | position amount t =>
    obtain ⟨e, -, rfl⟩ := ha.opened t List.mem_cons_self
    have hgrowth : growth (trades.push ((Trade.opened price e).close index (price index)
        (Trade.kept fee))).toList =
          growth trades.toList * (price index / price e * ((1 - fee) * (1 - fee))) := by
      rw [Array.toList_push, growth_append]
      exact congrArg _ (growth_ended price fee e index)
    have hentry : (Trade.opened price e).entryPrice = price e := rfl
    simp only [worth, Holding.exposure, hentry] at hnow
    simp only [Account.trade, worth, Holding.exposure, mul_one, hnow, Nat.cast_one, hgrowth]
    ring

/-- An account is worth now what its trades say. -/
theorem Reached.valued {a : Account K} {index : Nat} (ha : a.Reached price fee (index + 1))
    (h : a.Accounted fee capital) :
    Valued price fee capital a.allTrades index (a.worth (price index)) := by
  have hended := ha.not_openAt le_rfl
  have hbefore := ha.endedBefore
  rw [h]
  obtain ⟨holding, trades, equity⟩ := a
  cases holding with
  | cash amount =>
    simp only [allTrades, Holding.openTrades, List.append_nil]
    constructor
    · intro _
      rw [hbefore, Holding.exposure, mul_one]
    · intro t ht hopen
      exact absurd hopen (hended t ht)
  | position amount t =>
    obtain ⟨e, he, rfl⟩ := ha.opened t List.mem_cons_self
    simp only [allTrades, Holding.openTrades]
    constructor
    · intro hnone
      refine absurd (Trade.openAt_opened.2 ?_) (hnone (.opened price e) (by simp))
      omega
    · intro u hu hopen
      rcases List.mem_append.1 hu with hu | hu
      · exact absurd hopen (hended u hu)
      · obtain rfl := List.mem_singleton.1 hu
        rw [endedBefore_append, hbefore, endedBefore_opened, List.append_nil, Holding.exposure]
        ring

/-- **A step keeps an account balanced.** -/
theorem Balanced.step {a : Account K} {index : Nat} (ha : a.Balanced price fee capital index)
    (acts : Bool) :
    (a.step fee index (price index) acts).Balanced price fee capital (index + 1) := by
  have hreached := ha.toReached.step acts
  have haccounted : (a.step fee index (price index) acts).Accounted fee capital := by
    cases acts with
    | false => exact ha.accounted
    | true => exact ha.accounted.trade ha.toReached
  refine ⟨hreached, haccounted, fun i worth hi => ?_⟩
  rw [equity_step, List.getElem?_append, ha.length] at hi
  split at hi
  next hindex =>
    -- Bars before: their trades change only by a purchase or sale after them.
    have hvalued := ha.valued i worth hi
    cases acts with
    | false => exact hvalued
    | true =>
      change Valued price fee capital (a.trade fee index (price index)).allTrades i worth
      rcases ha.toReached.allTrades_trade with htrades | ⟨ts, e, hbefore, htrades⟩
      · rw [htrades]
        exact hvalued.opened hindex
      · rw [htrades]
        rw [hbefore] at hvalued
        exact hvalued.ended hindex
  next hindex =>
    rw [List.getElem?_singleton] at hi
    split at hi
    next hi' =>
      obtain rfl : i = index := by omega
      obtain rfl := Option.some.inj hi
      exact hreached.valued haccounted
    next => cases hi

/-! ### Runs -/

/-- A play that goes on to its end leaves a balanced account, and all of it in cash. -/
theorem Balanced.settled {μ : Type} {trader : Trader (Routine μ) K} {answers : Nat → Bool}
    {prices : List K} (hprice : ∀ i p, prices[i]? = some p → price i = p) {a : Account K}
    {index asked : Nat} {played : Played K} (ha : a.Balanced price fee capital index)
    (hindex : index < prices.length)
    (h : (Routine.runFrom answers asked (a.play fee trader index (prices.drop index))).outcome =
      .ok played)
    (hs : played.stopped = false) :
    (played.settled fee prices).Balanced price fee capital prices.length ∧
      (played.settled fee prices).holding.openTrades = [] := by
  generalize hrest : prices.drop index = rest at h
  induction rest generalizing a index asked with
  | nil =>
    rw [List.drop_eq_nil_iff] at hrest
    omega
  | cons p rest ih =>
    obtain ⟨hp, hrest'⟩ := of_drop_eq_cons hrest
    obtain rfl := hprice index p hp
    obtain ⟨acts, before, after, hacts, h⟩ := outcome_play_cons h hs
    cases rest with
    | nil =>
      -- At the last bar the sale that follows is one more step.
      rw [List.drop_eq_nil_iff] at hrest'
      have hlength : prices.length = index + 1 := by omega
      obtain rfl : _ = played := Except.ok.inj h
      have hno : a.holding.openTrades = [] → acts = false := by
        intro hnone
        unfold decision at hacts
        cases hholding : a.holding with
        | cash amount =>
          rw [hholding] at hacts
          exact (Except.ok.inj hacts).symm
        | position amount t =>
          rw [hholding] at hnone
          cases hnone
      obtain ⟨sells, hsells, hcash⟩ := liquidate_step fee index (price index) hno
      have hlast := getLast?_getD (List.ne_nil_of_length_pos (by omega)) hprice ((0 : Nat) : K)
      rw [Played.settled, if_neg Bool.false_ne_true, hlast, hlength, Nat.add_sub_cancel, hsells]
      exact ⟨ha.step sells, hcash⟩
    | cons q rest =>
      have hindex' : index + 1 < prices.length := by
        have hq := (of_drop_eq_cons hrest').1
        exact (List.getElem?_eq_some_iff.1 hq).1
      exact ih (ha.step acts) hindex' hrest' h

theorem Balanced.valued_trades {b : Account K} {n i : Nat} {worth : K}
    (hb : b.Balanced price fee capital n) (hcash : b.holding.openTrades = [])
    (h : b.equity.toList[i]? = some worth) : Valued price fee capital b.trades.toList i worth := by
  have hvalued := hb.valued i worth h
  rwa [allTrades, hcash, List.append_nil] at hvalued

/-- In the end the account has what its trades have made of the capital. -/
theorem Balanced.getLast {b : Account K} {n : Nat} (hb : b.Balanced price fee capital n)
    (hcash : b.holding.openTrades = []) {last : K} (h : b.equity.toList.getLast? = some last) :
    last = capital * growth b.trades.toList := by
  have hpos : n ≠ 0 := by
    rintro rfl
    rw [List.eq_nil_of_length_eq_zero hb.length] at h
    cases h
  have hn : n - 1 + 1 = n := by omega
  rw [List.getLast?_eq_getElem?, hb.length] at h
  rw [(hb.valued_trades hcash h).flat (hb.not_openAt hn.ge), hn, hb.endedBefore]

theorem Reached.endedBefore_eq {b : Account K} {n i j : Nat} (hb : b.Reached price fee n)
    (hij : i ≤ j) (hnone : ∀ l, i ≤ l → l ≤ j → ∀ t ∈ b.trades.toList, ¬ t.OpenAt l) :
    Ledger.endedBefore (i + 1) b.trades.toList = Ledger.endedBefore (j + 1) b.trades.toList := by
  refine List.filter_congr fun t ht => ?_
  obtain ⟨e, x, hex, -, rfl⟩ := hb.ended t ht
  show decide ((x : Int) < (i + 1 : Nat)) = decide ((x : Int) < (j + 1 : Nat))
  rw [decide_eq_decide]
  constructor
  · intro hx
    omega
  · intro hx
    by_contra hi
    -- The trade would still be open at the bar before its end.
    refine hnone (x - 1) (by omega) (by omega) _ ht (Trade.openAt_ended.2 ?_)
    omega

theorem Balanced.getElem?_eq {b : Account K} {n i j : Nat} (hb : b.Balanced price fee capital n)
    (hcash : b.holding.openTrades = []) (hij : i ≤ j) (hj : j < n)
    (hnone : ∀ l, i ≤ l → l ≤ j → ∀ t ∈ b.trades.toList, ¬ t.OpenAt l) :
    b.equity.toList[i]? = b.equity.toList[j]? := by
  have hget : ∀ l, i ≤ l → l ≤ j →
      b.equity.toList[l]? =
        some (capital * growth (Ledger.endedBefore (l + 1) b.trades.toList)) := by
    intro l hil hlj
    have hl : l < b.equity.toList.length := by
      rw [hb.length]
      omega
    have hworth := List.getElem?_eq_getElem hl
    rw [hworth, (hb.valued_trades hcash hworth).flat (hnone l hil hlj)]
  rw [hget i le_rfl hij, hget j hij le_rfl, hb.endedBefore_eq hij hnone]

theorem Balanced.totalReturn [LinearOrder K] {b : Account K} {n : Nat}
    (hb : b.Balanced price fee capital n) (hcash : b.holding.openTrades = [])
    (hcapital : capital ≠ 0) :
    (Summary.of b.equity.toList b.trades.toList capital).totalReturn =
      growth b.trades.toList - 1 := by
  simp only [Summary.of, Nat.cast_one, Nat.cast_zero]
  cases hlast : b.equity.toList.getLast? with
  | none =>
    have hnil : b.trades.toList = [] := by
      refine List.eq_nil_iff_forall_not_mem.2 fun t ht => ?_
      obtain ⟨e, x, -, hx, -⟩ := hb.ended t ht
      rw [← hb.length, List.getLast?_eq_none_iff.1 hlast] at hx
      cases hx
    rw [hnil, growth_nil, sub_self]
  | some last =>
    show last / capital - 1 = _
    rw [hb.getLast hcash hlast, mul_div_cancel_left₀ _ hcapital]

end Account

variable [LinearOrder K] [IsStrictOrderedRing K]

theorem growth_pos {n : Nat} (hprice : ∀ i < n, 0 < price i) (hfee : fee < 1)
    (h : ∀ t ∈ ts, ∃ e x, e < x ∧ x < n ∧ t = .ended price fee e x) : 0 < growth ts := by
  induction ts with
  | nil => exact zero_lt_one
  | cons t ts ih =>
    obtain ⟨e, x, hex, hx, rfl⟩ := h t List.mem_cons_self
    have hleft : 0 < 1 - fee := sub_pos.2 hfee
    have he := hprice e (hex.trans hx)
    have hx := hprice x hx
    have hrest := ih fun u hu => h u (List.mem_cons_of_mem _ hu)
    rw [← List.singleton_append, growth_append, growth_ended]
    positivity

theorem Account.Balanced.pos {b : Account K} {n : Nat} (hb : b.Balanced price fee capital n)
    (hcash : b.holding.openTrades = []) (hprice : ∀ i < n, 0 < price i) (hfee : fee < 1)
    (hcapital : 0 < capital) : ∀ worth ∈ b.equity.toList, 0 < worth := by
  intro worth hworth
  obtain ⟨i, hi⟩ := List.getElem?_of_mem hworth
  have hvalued := hb.valued_trades hcash hi
  have hgrowth : 0 < growth (endedBefore (i + 1) b.trades.toList) :=
    growth_pos hprice hfee fun t ht => hb.ended t (List.mem_of_mem_filter ht)
  by_cases hopen : ∃ t ∈ b.trades.toList, t.OpenAt i
  · obtain ⟨t, ht, hopen⟩ := hopen
    rw [hvalued.invested t ht hopen]
    obtain ⟨e, x, hex, hx, rfl⟩ := hb.ended t ht
    have hi : i < n := by
      rw [Trade.openAt_ended] at hopen
      omega
    have hleft : 0 < 1 - fee := sub_pos.2 hfee
    have hpricei := hprice i hi
    have hentry : 0 < (Trade.ended price fee e x).entryPrice := hprice e (hex.trans hx)
    positivity
  · push Not at hopen
    rw [hvalued.flat hopen]
    positivity

/-- **Both sets of books agree.** In a run that goes on to its end, the equity at a bar is the
capital times the growth of the trades that have ended by then; while a trade is open, it is what
this cash, less the fee, has bought. So the total return is that of all trades, the equity stays as
it is between trades, and it is never used up. -/
theorem run_balanced {μ : Type} {fee capital : K} {trader : Trader (Routine μ) K}
    {prices : List K} {answers : Nat → Bool} {s : Statement K}
    (h : ((run fee capital trader prices).run answers).outcome = .ok s) (hs : s.stopped = false)
    (hfee : fee < 1) (hcapital : 0 < capital) (hprices : ∀ p ∈ prices, 0 < p) :
    s.equity.length = prices.length ∧ (∀ t ∈ s.trades, t.exit.isSome) ∧
    (∀ i p worth, prices[i]? = some p → s.equity[i]? = some worth →
      ((∀ t ∈ s.trades, ¬ t.OpenAt i) →
        worth = capital * growth (endedBefore (i + 1) s.trades)) ∧
      ∀ t ∈ s.trades, t.OpenAt i →
        worth = capital * growth (endedBefore (i + 1) s.trades) * (1 - fee) * p / t.entryPrice) ∧
    s.summary.totalReturn = growth s.trades - 1 ∧
    (∀ i j, i ≤ j → j < prices.length →
      (∀ l, i ≤ l → l ≤ j → ∀ t ∈ s.trades, ¬ t.OpenAt l) → s.equity[i]? = s.equity[j]?) ∧
    ∀ worth ∈ s.equity, 0 < worth := by
  obtain ⟨played, later, hplayed, h⟩ := Routine.exists_of_outcome_bind h
  obtain rfl : _ = s := Except.ok.inj h
  have hstopped : played.stopped = false := hs
  let price : Nat → K := fun i => prices.getD i 0
  have hprice : ∀ i p, prices[i]? = some p → price i = p := by
    intro i p hp
    simp only [price, List.getD_eq_getElem?_getD, hp, Option.getD_some]
  have hpos : ∀ i < prices.length, 0 < price i := by
    intro i hi
    rw [hprice i prices[i] (List.getElem?_eq_getElem hi)]
    exact hprices _ (List.getElem_mem hi)
  obtain ⟨hb, hcash⟩ : (played.settled fee prices).Balanced price fee capital prices.length ∧
      (played.settled fee prices).holding.openTrades = [] := by
    cases prices with
    | nil =>
      obtain rfl : _ = played := Except.ok.inj hplayed
      exact ⟨Account.balanced_opened capital, rfl⟩
    | cons p ps =>
      exact (Account.balanced_opened capital).settled hprice (Nat.succ_pos _) hplayed hstopped
  refine ⟨hb.length, fun t ht => ?_, fun i p worth hp hworth => ?_, ?_,
    fun i j hij hj hnone => hb.getElem?_eq hcash hij hj hnone, hb.pos hcash hpos hfee hcapital⟩
  · obtain ⟨e, x, -, -, rfl⟩ := hb.ended t ht
    rfl
  · obtain rfl := hprice i p hp
    have hvalued := hb.valued_trades hcash hworth
    exact ⟨hvalued.flat, hvalued.invested⟩
  · simp only [Statement.of, hstopped, Bool.false_eq_true, ↓reduceIte]
    exact hb.totalReturn hcash hcapital.ne'

/-- Buys below 15 and sells above. -/
def swing : Trader (Routine Unit) ℚ where
  stops _ := Routine.stops
  buys _ price := pure (price < 15)
  sells _ price _ := pure (15 < price)

theorem run_balanced_swing :
    ∃ s, ((run (1 / 10) 100 swing [10, 20, 10, 12]).run Routine.never).outcome = .ok s ∧
      s.stopped = false ∧ (1 / 10 : ℚ) < 1 ∧ (0 : ℚ) < 100 ∧ (∀ p ∈ [10, 20, 10, 12], (0 : ℚ) < p) ∧
      s.trades.length = 2 ∧ s.summary.totalReturn = growth s.trades - 1 ∧
      ∀ worth ∈ s.equity, 0 < worth := by
  obtain ⟨s, h, hp⟩ := exists_ok_of_any
    (x := ((run (1 / 10) 100 swing [10, 20, 10, 12]).run Routine.never).outcome)
    (p := fun s => !s.stopped && s.trades.length == 2) (by decide +kernel)
  obtain ⟨hs, hlength⟩ : s.stopped = false ∧ s.trades.length = 2 := by simpa using hp
  have hfee : (1 / 10 : ℚ) < 1 := by norm_num
  have hcapital : (0 : ℚ) < 100 := by norm_num
  have hprices : ∀ p ∈ [10, 20, 10, 12], (0 : ℚ) < p := by simp
  obtain ⟨-, -, -, hreturn, -, hpos⟩ := run_balanced h hs hfee hcapital hprices
  exact ⟨s, h, hs, hfee, hcapital, hprices, hlength, hreturn, hpos⟩

end StrategyGraph.Ledger
