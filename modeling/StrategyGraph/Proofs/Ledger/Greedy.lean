import Mathlib.Order.Bounds.Basic
import StrategyGraph.Proofs.Ledger.Reached

/-!
# The greedy ledger

Trades follow each other: the next trade is entered at the first bar, but for the last one, at which
a purchase is asked for, and ends at the first later bar at which a sale is asked for, at the latest
at the last bar.

* `Market` says when purchases and sales are asked for, and `Market.Greedy` is the list of trades
  just described; there is only one (`Market.Greedy.unique`);
* `Market.Greedy.spec` and `Market.Greedy.pairwise` : its trades end, begin before they end, and
  follow each other;
* `Market.Pending` are the trades that are yet to end on the way of a run: `Market.trades_settled`
  says that they are the trades that the rest of the run adds;
* `Market.Follows.greedy` : the trades of a run that goes on to its end are greedy.
-/

namespace StrategyGraph.Ledger

variable {α : Type}

/-- When purchases and sales are asked for, at bars with known prices. -/
structure Market (α : Type) where
  /-- The number of bars. -/
  bars : Nat
  /-- The price at a bar. -/
  price : Nat → α
  /-- Without an open trade, a purchase is asked for at a bar. -/
  buys : Nat → Prop
  /-- With a trade open since a bar, a sale is asked for at a later one. -/
  sells : Nat → Nat → Prop

namespace Market

variable (m : Market α)

/-- The next entry from bar `s` on is at bar `i`. -/
def IsEntry (s i : Nat) : Prop := IsLeast {i | s ≤ i ∧ i < m.bars - 1 ∧ m.buys i} i

/-- A trade that was entered at bar `e` and is open before bar `s` ends at bar `x`. -/
def IsExit (s e x : Nat) : Prop :=
  IsLeast {j | s ≤ j ∧ j ≤ m.bars - 1 ∧ m.sells e j} x ∨
    (∀ j, s ≤ j → j ≤ m.bars - 1 → ¬ m.sells e j) ∧ x = m.bars - 1

section

variable [Sub α] [Mul α] [Div α] [NatCast α] (fee : α)

/-- The trades that are entered from bar `s` on. -/
inductive Greedy : Nat → List (Trade α) → Prop
  | stop {s : Nat} (h : ∀ i, ¬ m.IsEntry s i) : Greedy s []
  | trade {s e x : Nat} {ts : List (Trade α)} (entry : m.IsEntry s e)
      (exit : m.IsExit (e + 1) e x) (rest : Greedy (x + 1) ts) :
      Greedy s (.ended m.price fee e x :: ts)

/-- The trades that are yet to end when bar `s` is next. -/
inductive Pending : Holding α → Nat → List (Trade α) → Prop
  | cash {amount : α} {s : Nat} {ts : List (Trade α)} (h : m.Greedy fee s ts) :
      Pending (.cash amount) s ts
  | position {amount : α} {t : Trade α} {s e x : Nat} {ts : List (Trade α)}
      (ht : t = .opened m.price e) (he : e < s) (exit : m.IsExit s e x)
      (rest : m.Greedy fee (x + 1) ts) :
      Pending (.position amount t) s (.ended m.price fee e x :: ts)

end

variable {m}

/-! ### Entries and exits -/

theorem IsEntry.unique {s i j : Nat} (hi : m.IsEntry s i) (hj : m.IsEntry s j) : i = j :=
  IsLeast.unique hi hj

theorem IsEntry.self {s : Nat} (h : s < m.bars - 1) (hb : m.buys s) : m.IsEntry s s :=
  ⟨⟨le_rfl, h, hb⟩, fun _ hi => hi.1⟩

theorem isEntry_succ {s i : Nat} (h : ¬ (s < m.bars - 1 ∧ m.buys s)) :
    m.IsEntry (s + 1) i ↔ m.IsEntry s i := by
  have hset : {i | s + 1 ≤ i ∧ i < m.bars - 1 ∧ m.buys i} =
      {i | s ≤ i ∧ i < m.bars - 1 ∧ m.buys i} := by
    ext j
    constructor
    · rintro ⟨hj, hlast, hb⟩
      exact ⟨Nat.le_of_succ_le hj, hlast, hb⟩
    · rintro ⟨hj, hlast, hb⟩
      refine ⟨Nat.lt_of_le_of_ne hj ?_, hlast, hb⟩
      rintro rfl
      exact h ⟨hlast, hb⟩
  rw [IsEntry, IsEntry, hset]

theorem IsExit.unique {s e i j : Nat} (hi : m.IsExit s e i) (hj : m.IsExit s e j) : i = j := by
  rcases hi with hi | ⟨hi, rfl⟩ <;> rcases hj with hj | ⟨hj, rfl⟩
  · exact IsLeast.unique hi hj
  · exact absurd hi.1.2.2 (hj i hi.1.1 hi.1.2.1)
  · exact absurd hj.1.2.2 (hi j hj.1.1 hj.1.2.1)
  · rfl

theorem IsExit.self {s e : Nat} (h : s ≤ m.bars - 1) (hs : m.sells e s) : m.IsExit s e s :=
  .inl ⟨⟨le_rfl, h, hs⟩, fun _ hj => hj.1⟩

theorem IsExit.last {s e : Nat} (h : m.bars ≤ s) (h0 : 0 < m.bars) :
    m.IsExit s e (m.bars - 1) :=
  .inr ⟨fun j hj hlast => by omega, rfl⟩

theorem IsExit.of_succ {s e x : Nat} (hs : ¬ m.sells e s) (h : m.IsExit (s + 1) e x) :
    m.IsExit s e x := by
  rcases h with ⟨⟨hx, hlast, hsell⟩, hleast⟩ | ⟨hnone, rfl⟩
  · refine .inl ⟨⟨Nat.le_of_succ_le hx, hlast, hsell⟩, fun j hj => hleast ⟨?_, hj.2⟩⟩
    refine Nat.lt_of_le_of_ne hj.1 ?_
    rintro rfl
    exact hs hj.2.2
  · refine .inr ⟨fun j hj hlast hsell => ?_, rfl⟩
    rcases Nat.eq_or_lt_of_le hj with rfl | hj
    · exact hs hsell
    · exact hnone j hj hlast hsell

theorem IsExit.bounds {s e x : Nat} (h : m.IsExit s e x) (hs : s ≤ m.bars - 1) :
    s ≤ x ∧ x ≤ m.bars - 1 := by
  rcases h with h | ⟨-, rfl⟩
  · exact ⟨h.1.1, h.1.2.1⟩
  · exact ⟨hs, le_rfl⟩

/-! ### Greedy trades -/

variable [Sub α] [Mul α] [Div α] [NatCast α] {fee : α}

theorem Greedy.unique {s : Nat} {ts us : List (Trade α)} (ht : m.Greedy fee s ts)
    (hu : m.Greedy fee s us) : ts = us := by
  induction ht generalizing us with
  | stop h =>
    cases hu with
    | stop _ => rfl
    | trade entry _ _ => exact absurd entry (h _)
  | trade entry exit _ ih =>
    cases hu with
    | stop h => exact absurd entry (h _)
    | trade entry' exit' rest' =>
      obtain rfl := entry.unique entry'
      obtain rfl := exit.unique exit'
      rw [ih rest']

theorem Greedy.of_succ {s : Nat} {ts : List (Trade α)} (h : ¬ (s < m.bars - 1 ∧ m.buys s))
    (ht : m.Greedy fee (s + 1) ts) : m.Greedy fee s ts := by
  cases ht with
  | stop hnone => exact .stop fun i hi => hnone i ((isEntry_succ h).2 hi)
  | trade entry exit rest => exact .trade ((isEntry_succ h).1 entry) exit rest

theorem Greedy.nil {s : Nat} (h : m.bars - 1 ≤ s) : m.Greedy fee s [] :=
  .stop fun i hi => by
    obtain ⟨hs, hlast, -⟩ := hi.1
    omega

theorem Greedy.spec {s : Nat} {ts : List (Trade α)} (h : m.Greedy fee s ts) :
    ∀ t ∈ ts, ∃ e x : Nat, t = .ended m.price fee e x ∧ s ≤ e ∧ e < m.bars - 1 ∧ e < x ∧
      x ≤ m.bars - 1 := by
  induction h with
  | stop _ => simp
  | @trade s e x ts entry exit _ ih =>
    obtain ⟨hse, he, -⟩ := entry.1
    obtain ⟨hex, hx⟩ := exit.bounds (by omega)
    intro t ht
    rcases List.mem_cons.1 ht with rfl | ht
    · exact ⟨e, x, rfl, hse, he, hex, hx⟩
    · obtain ⟨e', x', rfl, hs', h'⟩ := ih t ht
      exact ⟨e', x', rfl, by omega, h'⟩

/-- Each trade ends before the next one begins. -/
theorem Greedy.pairwise {s : Nat} {ts : List (Trade α)} (h : m.Greedy fee s ts) :
    ts.Pairwise fun t u => ∀ exit ∈ t.exit, exit.index < u.entryIndex := by
  induction h with
  | stop _ => exact .nil
  | @trade s e x ts _ _ rest ih =>
    refine .cons (fun u hu exit hexit => ?_) ih
    obtain ⟨e', x', rfl, hx, -⟩ := rest.spec u hu
    obtain rfl := Option.some.inj hexit
    show (x : Int) < (e' : Int)
    omega

/-! ### Pending trades -/

theorem Pending.exit_ge {holding : Holding α} {s : Nat} {ts : List (Trade α)}
    (h : m.Pending fee holding s ts) (hs : s < m.bars) :
    ∀ t ∈ ts, ∃ exit, t.exit = some exit ∧ (s : Int) ≤ exit.index := by
  cases h with
  | cash h =>
    intro t ht
    obtain ⟨e, x, rfl, hse, -, hex, -⟩ := h.spec t ht
    exact ⟨_, rfl, show (s : Int) ≤ x by omega⟩
  | @position _ _ _ e x _ ht he exit rest =>
    obtain ⟨hsx, -⟩ := exit.bounds (by omega)
    intro t ht
    rcases List.mem_cons.1 ht with rfl | ht
    · exact ⟨_, rfl, show (s : Int) ≤ x by omega⟩
    · obtain ⟨e', x', rfl, hxe, -, hex, -⟩ := rest.spec t ht
      exact ⟨_, rfl, show (s : Int) ≤ x' by omega⟩

end Market

/-- Bar and price of the purchase. -/
def Trade.entry (t : Trade α) : Int × α := (t.entryIndex, t.entryPrice)

namespace Market

variable {m : Market α} [Sub α] [Mul α] [Div α] [NatCast α] {fee : α}

/-- Of the pending trades only the open one was entered before. -/
theorem Pending.filter_entry {holding : Holding α} {s : Nat} {ts : List (Trade α)}
    (h : m.Pending fee holding s ts) (hs : s < m.bars) :
    (ts.filter fun t => t.entryIndex < (s : Int)).map Trade.entry =
      holding.openTrades.map Trade.entry := by
  have hlate : ∀ {r us}, s ≤ r → m.Greedy fee r us →
      us.filter (fun t => t.entryIndex < (s : Int)) = [] := by
    intro r us hr hus
    refine List.filter_eq_nil_iff.2 fun t ht => ?_
    obtain ⟨e, x, rfl, hre, -⟩ := hus.spec t ht
    show ¬ decide ((e : Int) < s) = true
    rw [decide_eq_true_eq]
    omega
  cases h with
  | cash h =>
    rw [hlate le_rfl h]
    rfl
  | @position _ _ _ e x _ ht he exit rest =>
    obtain ⟨hsx, -⟩ := exit.bounds (by omega)
    have hentered : (Trade.ended m.price fee e x).entryIndex < (s : Int) :=
      show (e : Int) < s by omega
    rw [List.filter_cons_of_pos (by simpa using hentered), hlate (by omega) rest, ht]
    rfl

/-- A trader decides on purchases and sales as they are asked for. -/
structure Follows (m : Market α) (trader : Trader (Except Fault) α) (prices : List α) : Prop where
  bars : m.bars = prices.length
  price : ∀ {i p}, prices[i]? = some p → m.price i = p
  buys : ∀ {i p}, prices[i]? = some p → (trader.buys i p = .ok true ↔ m.buys i)
  sells : ∀ {e i p}, e < i → prices[i]? = some p →
    (trader.sells i p (m.price e) = .ok true ↔ m.sells e i)

/-! ### Runs -/

variable {trader : Trader (Except Fault) α} {prices : List α}

/-- One step of a play: what is pending before it is what it ends and what is pending after it. -/
theorem Follows.pending_step (hm : m.Follows trader prices) {a : Account α} {index : Nat}
    {price : α} {acts : Bool} {ts : List (Trade α)} (hprice : prices[index]? = some price)
    (ha : a.Reached m.price fee index)
    (hacts : Account.decision trader a index price (decide (index + 1 = prices.length)) = .ok acts)
    (h : m.Pending fee (a.step fee index price acts).holding (index + 1) ts) :
    ∃ ts', m.Pending fee a.holding index ts' ∧
      (a.step fee index price acts).trades.toList ++ ts = a.trades.toList ++ ts' := by
  have hlast : index < prices.length := (List.getElem?_eq_some_iff.1 hprice).1
  have hbars := hm.bars
  obtain rfl := hm.price hprice
  obtain ⟨holding, trades, equity⟩ := a
  cases holding with
  | cash amount =>
    cases acts with
    | false =>
      have hno : ¬ (index < m.bars - 1 ∧ m.buys index) := by
        rintro ⟨hi, hb⟩
        have hbuys := (hm.buys hprice).2 hb
        have hnext : index + 1 ≠ prices.length := by omega
        simp [Account.decision, hnext, hbuys] at hacts
      -- Nothing is bought, so the next entry lies after this bar.
      cases h with
      | cash h => exact ⟨ts, .cash (h.of_succ hno), rfl⟩
    | true =>
      have hnext : index + 1 ≠ prices.length := by
        intro hnext
        simp [Account.decision, hnext, pure, Except.pure] at hacts
      have hb : m.buys index := (hm.buys hprice).1 (by simpa [Account.decision, hnext] using hacts)
      -- The trade that is open afterwards is entered here.
      cases h with
      | @position _ _ _ e x ts ht he exit rest =>
        obtain rfl : index = e := Trade.opened_injective ht
        exact ⟨_, .cash (.trade (.self (by omega) hb) exit rest), rfl⟩
  | position amount t =>
    obtain ⟨e, he, rfl⟩ := ha.opened t List.mem_cons_self
    have hsells := hm.sells he hprice
    cases acts with
    | false =>
      have hno : ¬ m.sells e index := fun hs => by
        rw [← hsells] at hs
        cases hacts.symm.trans hs
      -- Nothing is sold, so the open trade ends after this bar.
      cases h with
      | @position _ _ _ e' x ts ht _ exit rest =>
        obtain rfl := Trade.opened_injective ht
        exact ⟨_, .position rfl he (exit.of_succ hno) rest, rfl⟩
    | true =>
      have hs : m.sells e index := hsells.1 hacts
      -- The open trade ends here.
      cases h with
      | cash h =>
        refine ⟨_, .position rfl he (.self (by omega) hs) h, ?_⟩
        simp [Account.step, Account.valued, Account.trade, Trade.ended]

/-- What is pending after the last bar is ended there. -/
theorem Follows.pending_settled (hm : m.Follows trader prices) {a : Account α} {index : Nat}
    (h0 : prices ≠ []) (hindex : prices.length ≤ index) (ha : a.Reached m.price fee index) :
    ∃ ts, m.Pending fee a.holding index ts ∧
      ((⟨a, false⟩ : Played α).settled fee prices).trades.toList = a.trades.toList ++ ts := by
  have hbars := hm.bars
  have hpos := List.length_pos_iff.2 h0
  obtain ⟨holding, trades, equity⟩ := a
  cases holding with
  | cash amount => exact ⟨[], .cash (.nil (by omega)), (List.append_nil _).symm⟩
  | position amount t =>
    obtain ⟨e, he, rfl⟩ := ha.opened t List.mem_cons_self
    have hlast : prices.getLast?.getD ((0 : Nat) : α) = m.price (prices.length - 1) :=
      getLast?_getD h0 (fun _ _ => hm.price) _
    refine ⟨_, .position rfl he (.last (by omega) (by omega)) (.nil (by omega)), ?_⟩
    simp [Played.settled, Account.liquidate, Account.trade, hlast, Trade.ended, hbars]

/-- The trades that a play adds when it goes on to its end are those that are pending. -/
theorem trades_settled (hm : m.Follows trader prices) (h0 : prices ≠ []) {a : Account α}
    {index : Nat} {played : Played α} (ha : a.Reached m.price fee index)
    (h : a.play fee trader index (prices.drop index) = .ok played)
    (hs : played.stopped = false) :
    ∃ ts, m.Pending fee a.holding index ts ∧
      (played.settled fee prices).trades.toList = a.trades.toList ++ ts := by
  -- From what is pending after the bars that are left, back to what is pending before them.
  generalize hrest : prices.drop index = rest at h
  induction rest generalizing a index with
  | nil =>
    obtain rfl : _ = played := Except.ok.inj h
    exact hm.pending_settled h0 (List.drop_eq_nil_iff.1 hrest) ha
  | cons price rest ih =>
    obtain ⟨hprice, hrest'⟩ := of_drop_eq_cons hrest
    have hempty : rest.isEmpty = decide (index + 1 = prices.length) := by
      have hindex := (List.getElem?_eq_some_iff.1 hprice).1
      rw [← hrest', Bool.eq_iff_iff, List.isEmpty_iff, List.drop_eq_nil_iff, decide_eq_true_eq]
      omega
    obtain ⟨acts, hacts, h⟩ := Account.play_cons h hs
    rw [hempty] at hacts
    obtain rfl := hm.price hprice
    obtain ⟨ts, hpending, htrades⟩ := ih (ha.step acts) hrest' h
    obtain ⟨ts', hpending', hts'⟩ := hm.pending_step hprice ha hacts hpending
    exact ⟨ts', hpending', htrades.trans hts'⟩

/-- **The trades of a run that goes on to its end are the greedy ones.** -/
theorem Follows.greedy [IntCast α] [LT α] [DecidableLT α] (hm : m.Follows trader prices)
    {capital : α} {statement : Statement α}
    (h : run fee capital trader prices = .ok statement) (hs : statement.stopped = false) :
    m.Greedy fee 0 statement.trades := by
  obtain ⟨played, hplayed, rfl⟩ := run_eq_ok.1 h
  by_cases h0 : prices = []
  · subst h0
    obtain rfl : _ = played := Except.ok.inj hplayed
    have hbars : m.bars = 0 := hm.bars
    exact .nil (by omega)
  · obtain ⟨ts, hpending, hts⟩ :=
      trades_settled hm h0 (Account.reached_opened capital) (prices.drop_zero.symm ▸ hplayed) hs
    rw [Statement.of, hts]
    cases hpending with
    | cash h => exact h

end Market

end StrategyGraph.Ledger
