import StrategyGraph.Proofs.Ledger.Reached

/-!
# What the money does not decide

How much an account holds decides nothing: with any fee and any capital the same bars bring the same
purchases and sales.

* `Trade.course` : bars and prices of a trade, without what it earned;
* `Account.Alike` : two accounts have traded alike, and `Account.Alike.step` : a bar keeps it so;
* `Account.Alike.play` : so does a play of any prices;
* `Statement.Alike` : two statements tell the same trades, which last equally long on average;
* `alike_run` : **with any fees and capitals, a trader draws up statements that are alike.**
-/

namespace StrategyGraph.Ledger

variable {α : Type}

/-- The bars and prices of a trade. -/
structure Course (α : Type) where
  /-- The bar of the purchase. -/
  entryIndex : Int
  /-- The price of the purchase. -/
  entryPrice : α
  /-- The bar and the price of the sale. -/
  exit : Option (Int × α)

/-- The number of bars from purchase to sale, if there was a sale. -/
def Course.duration? (c : Course α) : Option Int := c.exit.map fun e => e.1 - c.entryIndex

/-- The bars and prices of the trade, without what it earned. -/
def Trade.course (t : Trade α) : Course α where
  entryIndex := t.entryIndex
  entryPrice := t.entryPrice
  exit := t.exit.map fun e => (e.index, e.price)

/-! ### Accounts -/

/-- The accounts have entered and ended trades at the same bars and prices. -/
structure Account.Alike (a a' : Account α) : Prop where
  /-- The open trade. -/
  opened : a.holding.openTrades.map Trade.course = a'.holding.openTrades.map Trade.course
  /-- The trades that have ended. -/
  ended : a.trades.toList.map Trade.course = a'.trades.toList.map Trade.course

/-- The plays ended alike. -/
structure Played.Alike (p p' : Played α) : Prop where
  /-- The accounts. -/
  account : p.account.Alike p'.account
  /-- Whether the trader ended the play. -/
  stopped : p.stopped = p'.stopped

namespace Account.Alike

variable {a a' : Account α} (h : a.Alike a')
include h

/-- The holdings are of the same kind, and the open trades have the same course. -/
theorem holding_cases :
    (∃ amount amount', a.holding = .cash amount ∧ a'.holding = .cash amount') ∨
      ∃ amount amount' t t', a.holding = .position amount t ∧ a'.holding = .position amount' t' ∧
        t.course = t'.course := by
  have hopened := h.opened
  cases hholding : a.holding with
  | cash amount =>
    cases hholding' : a'.holding with
    | cash amount' => exact .inl ⟨amount, amount', rfl, rfl⟩
    | position amount' t' => simp [hholding, hholding', Holding.openTrades] at hopened
  | position amount t =>
    cases hholding' : a'.holding with
    | cash amount' => simp [hholding, hholding', Holding.openTrades] at hopened
    | position amount' t' =>
      have hcourse : t.course = t'.course := by
        simpa [hholding, hholding', Holding.openTrades] using hopened
      exact .inr ⟨amount, amount', t, t', rfl, rfl, hcourse⟩

theorem decision {m : Type → Type} [Monad m] (trader : Trader m α) (index : Nat) (price : α)
    (isLast : Bool) :
    Account.decision trader a index price isLast =
      Account.decision trader a' index price isLast := by
  rw [Account.decision, Account.decision]
  rcases h.holding_cases with ⟨amount, amount', hcash, hcash'⟩ |
    ⟨amount, amount', t, t', hopen, hopen', hcourse⟩
  · rw [hcash, hcash']
  · have hentry : t.entryPrice = t'.entryPrice := congrArg Course.entryPrice hcourse
    rw [hopen, hopen']
    dsimp only
    rw [hentry]

variable [Sub α] [Mul α] [Div α] [NatCast α] (fee fee' : α)

theorem trade (index : Nat) (price : α) :
    (a.trade fee index price).Alike (a'.trade fee' index price) := by
  rw [Account.trade, Account.trade]
  rcases h.holding_cases with ⟨amount, amount', hcash, hcash'⟩ |
    ⟨amount, amount', t, t', hopen, hopen', hcourse⟩
  · rw [hcash, hcash']
    exact ⟨rfl, h.ended⟩
  · have hentryIndex : t.entryIndex = t'.entryIndex := congrArg Course.entryIndex hcourse
    have hentryPrice : t.entryPrice = t'.entryPrice := congrArg Course.entryPrice hcourse
    rw [hopen, hopen']
    refine ⟨rfl, ?_⟩
    simp [h.ended, Trade.course, Trade.close, hentryIndex, hentryPrice]

theorem step (index : Nat) (price : α) (acts : Bool) :
    (a.step fee index price acts).Alike (a'.step fee' index price acts) := by
  cases acts with
  | false => exact ⟨h.opened, h.ended⟩
  | true =>
    have htrade := h.trade fee fee' index price
    exact ⟨htrade.opened, htrade.ended⟩

theorem liquidate (index : Nat) (price : α) :
    (a.liquidate fee index price).Alike (a'.liquidate fee' index price) := by
  have htrade := h.trade fee fee' index price
  rw [Account.liquidate, Account.liquidate]
  rcases h.holding_cases with ⟨amount, amount', hcash, hcash'⟩ |
    ⟨amount, amount', t, t', hopen, hopen', -⟩
  · rw [hcash, hcash']
    exact h
  · rw [hopen, hopen']
    exact ⟨htrade.opened, htrade.ended⟩

/-- **Playing any prices keeps accounts alike.** -/
theorem play (trader : Trader (Except Fault) α) (index : Nat) (prices : List α) :
    Agree Eq Played.Alike (a.play fee trader index prices) (a'.play fee' trader index prices) := by
  induction prices generalizing a a' index with
  | nil => exact .ok ⟨h, rfl⟩
  | cons price prices ih =>
    rw [Account.play, Account.play, h.decision trader index price prices.isEmpty]
    refine (Agree.same _).bind fun stop _ hstop => ?_
    subst hstop
    cases stop with
    | true => exact .ok ⟨h, rfl⟩
    | false =>
      refine (Agree.same _).bind fun acts _ hacts => ?_
      subst hacts
      exact ih (h.step fee fee' index price acts) (index + 1)

end Account.Alike

/-! ### Statements -/

theorem Played.Alike.settled [Sub α] [Mul α] [Div α] [NatCast α] {p p' : Played α} (h : p.Alike p')
    (fee fee' : α) (prices : List α) : (p.settled fee prices).Alike (p'.settled fee' prices) := by
  rw [Played.settled, Played.settled, h.stopped]
  split
  · exact h.account
  · exact h.account.liquidate fee fee' _ _

variable [Sub α] [Mul α] [Div α] [NatCast α] [IntCast α] [LT α] [DecidableLT α]

/-- The mean of durations. -/
def meanDuration (durations : List Int) : α :=
  if durations.isEmpty then ((0 : Nat) : α)
  else ((durations.foldl (· + ·) 0 : Int) : α) / (durations.length : α)

omit [Mul α] in
theorem avgDuration_of (equity : List α) (trades : List (Trade α)) (capital : α) :
    (Summary.of equity trades capital).avgDuration =
      meanDuration ((trades.map Trade.course).filterMap Course.duration?) := by
  have hdurations : (trades.map Trade.course).filterMap Course.duration? =
      (Summary.ended trades).map fun e => e.2.index - e.1.entryIndex := by
    rw [Summary.ended, List.map_filterMap, List.filterMap_map]
    congr 1
    funext t
    cases hexit : t.exit <;> simp [Course.duration?, Trade.course, hexit]
  rw [hdurations, meanDuration, List.isEmpty_map, List.length_map]
  rfl

/-- The statements tell the same trades, which last equally long on average. -/
structure Statement.Alike (s s' : Statement α) : Prop where
  /-- The bars and prices of the trades. -/
  trades : s.trades.map Trade.course = s'.trades.map Trade.course
  /-- How long trades last on average. -/
  avgDuration : s.summary.avgDuration = s'.summary.avgDuration
  /-- Whether the trader ended the run. -/
  stopped : s.stopped = s'.stopped

/-- **With any fees and capitals, a trader draws up statements that are alike.** -/
theorem alike_run (fee fee' capital capital' : α) (trader : Trader (Except Fault) α)
    (prices : List α) :
    Agree Eq Statement.Alike (run fee capital trader prices) (run fee' capital' trader prices) := by
  have hopened : (Account.opened capital).Alike (Account.opened capital') := ⟨rfl, rfl⟩
  refine (hopened.play fee fee' trader 0 prices).bind fun p p' hp => .ok ?_
  have htrades := (hp.settled fee fee' prices).ended
  refine ⟨htrades, ?_, hp.stopped⟩
  rw [Statement.of, Statement.of, hp.stopped]
  dsimp only
  split
  · rfl
  · rw [avgDuration_of, avgDuration_of, htrades]

end StrategyGraph.Ledger
