import StrategyGraph.Proofs.Ledger.Play

/-!
# Accounts on their way

While a list of prices is played, every trade of the account was entered, and has ended, at bars
that were played already and at the prices of these bars.

* `Account.Reached` says so, and that the account was valued at each of the bars;
* `Account.Reached.step` and `Account.Reached.advance` : playing bars keeps it so.
-/

namespace StrategyGraph.Ledger

variable {α : Type}

/-- The open trade, if there is one. -/
def Holding.openTrades : Holding α → List (Trade α)
  | .cash _ => []
  | .position _ t => [t]

namespace Trade

variable (price : Nat → α)

/-- The trade that is entered at bar `e`. -/
def opened (e : Nat) : Trade α := { entryIndex := e, entryPrice := price e }

/-- The trade from bar `e` to bar `x`. -/
def ended [Sub α] [Mul α] [Div α] [NatCast α] (fee : α) (e x : Nat) : Trade α :=
  (opened price e).close x (price x) (kept fee)

/-- The trade is open after bar `i`. -/
def OpenAt (t : Trade α) (i : Nat) : Prop :=
  t.entryIndex ≤ (i : Int) ∧ ∀ exit ∈ t.exit, (i : Int) < exit.index

variable {price} {e x i : Nat}

theorem opened_injective {e' : Nat} (h : opened price e = opened price e') : e = e' :=
  Int.ofNat.inj (congrArg Trade.entryIndex h)

theorem openAt_opened : (opened price e).OpenAt i ↔ e ≤ i := by
  simp [OpenAt, opened]

theorem openAt_ended [Sub α] [Mul α] [Div α] [NatCast α] {fee : α} :
    (ended price fee e x).OpenAt i ↔ e ≤ i ∧ i < x := by
  simp [OpenAt, ended, opened, close]

end Trade

namespace Account

/-- The trades of the account, the open one last. -/
def allTrades (a : Account α) : List (Trade α) := a.trades.toList ++ a.holding.openTrades

variable [Sub α] [Mul α] [Div α] [NatCast α]

/-- The account when bar `index` is next: it was valued at every bar before, and its trades were
entered and have ended there. -/
structure Reached (price : Nat → α) (fee : α) (index : Nat) (a : Account α) : Prop where
  length : a.equity.toList.length = index
  opened : ∀ t ∈ a.holding.openTrades, ∃ e, e < index ∧ t = .opened price e
  ended : ∀ t ∈ a.trades.toList, ∃ e x, e < x ∧ x < index ∧ t = .ended price fee e x

variable {price : Nat → α} {fee : α}

theorem reached_opened (capital : α) : (Account.opened capital).Reached price fee 0 :=
  ⟨rfl, by simp [Account.opened, Holding.openTrades], by simp [Account.opened]⟩

theorem Reached.not_openAt {a : Account α} {index i : Nat} (ha : a.Reached price fee index)
    (hi : index ≤ i + 1) : ∀ t ∈ a.trades.toList, ¬ t.OpenAt i := by
  intro t ht
  obtain ⟨e, x, -, hx, rfl⟩ := ha.ended t ht
  rw [Trade.openAt_ended]
  omega

theorem Reached.step {a : Account α} {index : Nat} (ha : a.Reached price fee index) (acts : Bool) :
    (a.step fee index (price index) acts).Reached price fee (index + 1) := by
  have hlength : (a.step fee index (price index) acts).equity.toList.length = index + 1 := by
    rw [equity_step, List.length_append, ha.length, List.length_singleton]
  have hopened : ∀ t ∈ a.holding.openTrades, ∃ e, e < index + 1 ∧ t = .opened price e := by
    intro t ht
    obtain ⟨e, he, h⟩ := ha.opened t ht
    exact ⟨e, Nat.lt_succ_of_lt he, h⟩
  have hended : ∀ t ∈ a.trades.toList, ∃ e x, e < x ∧ x < index + 1 ∧ t = .ended price fee e x := by
    intro t ht
    obtain ⟨e, x, hex, hx, h⟩ := ha.ended t ht
    exact ⟨e, x, hex, Nat.lt_succ_of_lt hx, h⟩
  obtain ⟨holding, trades, equity⟩ := a
  cases acts with
  | false => exact ⟨hlength, hopened, hended⟩
  | true =>
    cases holding with
    | cash amount =>
      refine ⟨hlength, fun t ht => ?_, hended⟩
      obtain rfl := List.mem_singleton.1 ht
      exact ⟨index, Nat.lt_succ_self index, rfl⟩
    | position amount t =>
      obtain ⟨e, he, rfl⟩ := ha.opened t List.mem_cons_self
      refine ⟨hlength, by simp [Account.step, valued, trade, Holding.openTrades], fun u hu => ?_⟩
      rcases List.mem_append.1 ((Array.toList_push ..).symm ▸ hu) with hu | hu
      · exact hended u hu
      · obtain rfl := List.mem_singleton.1 hu
        exact ⟨e, index, he, Nat.lt_succ_self index, rfl⟩

/-- A purchase adds a trade, and a sale ends the open one. -/
theorem Reached.allTrades_trade {a : Account α} {index : Nat} (ha : a.Reached price fee index) :
    (a.trade fee index (price index)).allTrades = a.allTrades ++ [.opened price index] ∨
      ∃ ts e, a.allTrades = ts ++ [.opened price e] ∧
        (a.trade fee index (price index)).allTrades = ts ++ [.ended price fee e index] := by
  obtain ⟨holding, trades, equity⟩ := a
  cases holding with
  | cash amount =>
    refine .inl ?_
    simp [allTrades, trade, Holding.openTrades, Trade.opened]
  | position amount t =>
    obtain ⟨e, -, rfl⟩ := ha.opened t List.mem_cons_self
    refine .inr ⟨trades.toList, e, rfl, ?_⟩
    simp [allTrades, trade, Holding.openTrades, Trade.ended]

variable (fee) in
/-- Ending the open trade at the bar that was just played is a sale at that bar. -/
theorem liquidate_step {a : Account α} (index : Nat) (p : α) {acts : Bool}
    (hacts : a.holding.openTrades = [] → acts = false) :
    ∃ sells, (a.step fee index p acts).liquidate fee index p = a.step fee index p sells ∧
      (a.step fee index p sells).holding.openTrades = [] := by
  obtain ⟨holding, trades, equity⟩ := a
  cases holding with
  | cash amount =>
    obtain rfl := hacts rfl
    exact ⟨false, rfl, rfl⟩
  | position amount t =>
    refine ⟨true, ?_, rfl⟩
    cases acts with
    | true => rfl
    | false => simp [Account.step, valued, liquidate, trade, worth]

theorem Reached.advance {trader : Trader (Except Fault) α} {a b : Account α} {index : Nat}
    {prices : List α} (ha : a.Reached price fee index)
    (hprices : ∀ i p, prices[i]? = some p → price (index + i) = p)
    (h : a.advance fee trader index prices = .ok b) :
    b.Reached price fee (index + prices.length) := by
  induction prices generalizing a index with
  | nil =>
    obtain rfl : a = b := Except.ok.inj h
    exact ha
  | cons p prices ih =>
    obtain rfl : price index = p := hprices 0 p rfl
    obtain ⟨acts, -, h⟩ := bind_eq_ok.1 h
    rw [List.length_cons, Nat.add_comm prices.length, ← Nat.add_assoc]
    refine ih (ha.step acts) (fun i q hi => ?_) h
    rw [Nat.add_assoc, Nat.add_comm 1]
    exact hprices (i + 1) q (by simpa using hi)

end Account

end StrategyGraph.Ledger
