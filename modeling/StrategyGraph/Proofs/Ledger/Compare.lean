import Mathlib.Data.List.Forall2
import StrategyGraph.Proofs.Indicator.Drawdown
import StrategyGraph.Proofs.Ledger.Conduct

/-!
# Comparing books

The same trader may keep books at the same prices with another fee or another capital. In an
ordered field, where nothing is rounded, amounts and net returns of the one run then compare to
those of the other one, bar by bar and trade by trade.

* `FeesCompare` : a relation of amounts and one of net returns are kept by all that an account does
  with its fees;
* `Account.Compares.step` and `Account.Compares.play` : a bar, and with it a play, keeps accounts
  comparable;
* `compares_run` : **the statements of two runs compare as their capitals do**;
* `feesCompare_le` and `feesCompare_scaled` : amounts under a lower fee are higher, and amounts with
  more capital are so many times the others; `totalReturn_le`, `winRate_le` and `summary_scaled` say
  what follows for summaries;
* `feesCompare_pos` : an amount that is positive stays so, whence `equity_pos_of_run` and
  `drawdown_of_run`.
-/

namespace StrategyGraph.Ledger

variable {K : Type} {amount netReturn : K → K → Prop}

/-! ### What compares -/

/-- The trades are of the same course, and what they earned compares. -/
def Trade.Compares (netReturn : K → K → Prop) (t t' : Trade K) : Prop :=
  t.course = t'.course ∧ Option.Rel (fun e e' => netReturn e.netReturn e'.netReturn) t.exit t'.exit

theorem Trade.Compares.eq {t t' : Trade K} (h : t.Compares Eq t') : t = t' := by
  obtain ⟨entryIndex, entryPrice, exit⟩ := t
  obtain ⟨entryIndex', entryPrice', exit'⟩ := t'
  obtain ⟨hcourse, hearned⟩ := h
  simp only [course, Course.mk.injEq] at hcourse
  obtain ⟨rfl, rfl, hexit⟩ := hcourse
  cases hearned with
  | none => rfl
  | @some e e' hearned =>
    obtain ⟨index, price, netReturn⟩ := e
    obtain ⟨index', price', netReturn'⟩ := e'
    simp only [Option.map_some, Option.some.injEq, Prod.mk.injEq] at hexit
    obtain ⟨rfl, rfl⟩ := hexit
    obtain rfl : netReturn = netReturn' := hearned
    rfl

variable [Field K] [LinearOrder K] {fee fee' : K}

/-- Amounts under one fee compare to amounts under another one, however they are charged and valued,
and so do the net returns of a trade. -/
structure FeesCompare (fee fee' : K) (amount netReturn : K → K → Prop) : Prop where
  /-- Paying the fees. -/
  charged {x y : K} (h : amount x y) : amount (x * (1 - fee)) (y * (1 - fee'))
  /-- Valuing both at a price, or buying at it. -/
  priced {x y p : K} (h : amount x y) (hp : 0 < p) : amount (x * p) (y * p)
  /-- Ending a trade, for a quotient of its prices. -/
  earned {ratio : K} (h : 0 < ratio) :
    netReturn (ratio * Trade.kept fee - 1) (ratio * Trade.kept fee' - 1)

/-- A higher fee leaves less. -/
theorem feesCompare_le [IsStrictOrderedRing K] (h : fee ≤ fee') (h' : fee' < 1) :
    FeesCompare fee fee' (fun x y => 0 ≤ y ∧ y ≤ x) (fun r r' => r' ≤ r) := by
  have hkept : 1 - fee' ≤ 1 - fee := sub_le_sub_left h 1
  have hpos : 0 < 1 - fee' := sub_pos.2 h'
  refine ⟨fun {x y} hxy => ?_, fun {x y p} hxy hp => ?_, fun {ratio} hratio => ?_⟩
  · exact ⟨mul_nonneg hxy.1 hpos.le, mul_le_mul hxy.2 hkept hpos.le (hxy.1.trans hxy.2)⟩
  · exact ⟨mul_nonneg hxy.1 hp.le, mul_le_mul_of_nonneg_right hxy.2 hp.le⟩
  · have hboth : Trade.kept fee' ≤ Trade.kept fee := by
      simp only [Trade.kept, Nat.cast_one]
      exact mul_le_mul hkept hkept hpos.le (hpos.le.trans hkept)
    exact sub_le_sub_right (mul_le_mul_of_nonneg_left hboth hratio.le) 1

/-- So many times the capital makes so many times the amounts, and the same net returns. -/
theorem feesCompare_scaled (c : K) : FeesCompare fee fee (fun x y => y = c * x) Eq where
  charged h := by rw [h, mul_assoc]
  priced h _ := by rw [h, mul_assoc]
  earned _ := rfl

theorem feesCompare_pos [IsStrictOrderedRing K] (h : fee < 1) :
    FeesCompare fee fee (fun x _ => 0 < x) (fun _ _ => True) where
  charged hx := mul_pos hx (sub_pos.2 h)
  priced hx hp := mul_pos hx hp
  earned _ := trivial

/-- Both hold cash, or both hold positions that the same trade has bought. -/
inductive Holding.Compares (amount : K → K → Prop) : Holding K → Holding K → Prop where
  | cash {x y : K} (h : amount x y) : Compares amount (.cash x) (.cash y)
  | position {x y : K} {t : Trade K} (h : amount x y) (hentry : 0 < t.entryPrice) :
    Compares amount (.position x t) (.position y t)

/-- The accounts compare in all that they hold and have held. -/
structure Account.Compares (amount netReturn : K → K → Prop) (a a' : Account K) : Prop where
  /-- What they hold. -/
  holding : a.holding.Compares amount a'.holding
  /-- The trades that have ended. -/
  trades : List.Forall₂ (Trade.Compares netReturn) a.trades.toList a'.trades.toList
  /-- What they were worth after each bar. -/
  equity : List.Forall₂ amount a.equity.toList a'.equity.toList

/-- The statements compare bar by bar and trade by trade. -/
structure Statement.Compares (amount netReturn : K → K → Prop) (s s' : Statement K) : Prop where
  /-- What the accounts were worth after each bar. -/
  equity : List.Forall₂ amount s.equity s'.equity
  /-- The trades that have ended. -/
  trades : List.Forall₂ (Trade.Compares netReturn) s.trades s'.trades
  /-- Whether the trader ended the run. -/
  stopped : s.stopped = s'.stopped

/-! ### Plays -/

namespace Account.Compares

variable {a a' : Account K} (h : a.Compares amount netReturn a')
include h

theorem decision_eq {m : Type → Type} [Monad m] (trader : Trader m K) (index : Nat) (price : K)
    (isLast : Bool) :
    Account.decision trader a index price isLast =
      Account.decision trader a' index price isLast := by
  obtain ⟨holding, trades, equity⟩ := a
  obtain ⟨holding', trades', equity'⟩ := a'
  have hholding := h.holding
  cases hholding with
  | cash | position => rfl

variable (hfees : FeesCompare fee fee' amount netReturn)
include hfees

theorem worth {price : K} (hprice : 0 < price) : amount (a.worth price) (a'.worth price) := by
  obtain ⟨holding, trades, equity⟩ := a
  obtain ⟨holding', trades', equity'⟩ := a'
  have hholding := h.holding
  cases hholding with
  | cash hamount => exact hamount
  | position hamount => exact hfees.priced hamount hprice

variable [IsStrictOrderedRing K]

theorem trade (index : Nat) {price : K} (hprice : 0 < price) :
    (a.trade fee index price).Compares amount netReturn (a'.trade fee' index price) := by
  obtain ⟨holding, trades, equity⟩ := a
  obtain ⟨holding', trades', equity'⟩ := a'
  have hholding := h.holding
  cases hholding with
  | @cash x y hamount =>
    refine ⟨.position ?_ hprice, h.trades, h.equity⟩
    have hbought := hfees.priced (hfees.charged hamount) (inv_pos.2 hprice)
    simpa only [div_eq_mul_inv, Nat.cast_one] using hbought
  | @position x y t hamount hentry =>
    refine ⟨.cash ?_, ?_, h.equity⟩
    · simpa only [Nat.cast_one] using hfees.charged (hfees.priced hamount hprice)
    · rw [Account.trade, Account.trade, Array.toList_push, Array.toList_push]
      refine List.rel_append h.trades (.cons ⟨rfl, .some ?_⟩ .nil)
      simpa only [Nat.cast_one] using hfees.earned (div_pos hprice hentry)

theorem step (index : Nat) {price : K} (hprice : 0 < price) (acts : Bool) :
    (a.step fee index price acts).Compares amount netReturn
      (a'.step fee' index price acts) := by
  have hvalued : ∀ {b b' : Account K}, b.Compares amount netReturn b' →
      (b.valued price).Compares amount netReturn (b'.valued price) := by
    intro b b' hb
    refine ⟨hb.holding, hb.trades, ?_⟩
    rw [Account.valued, Account.valued, Array.toList_push, Array.toList_push]
    exact List.rel_append hb.equity (.cons (hb.worth hfees hprice) .nil)
  cases acts with
  | false => exact hvalued h
  | true => exact hvalued (h.trade hfees index hprice)

theorem liquidate (index : Nat) {price : K} (hprice : 0 < price) :
    (a.liquidate fee index price).Compares amount netReturn (a'.liquidate fee' index price) := by
  have htrade := h.trade hfees index hprice
  have hworth := htrade.worth hfees hprice
  obtain ⟨holding, trades, equity⟩ := a
  obtain ⟨holding', trades', equity'⟩ := a'
  have hholding := h.holding
  cases hholding with
  | cash => exact h
  | position =>
    refine ⟨htrade.holding, htrade.trades, ?_⟩
    simp only [Account.liquidate, Array.toList_push, Array.toList_pop, equity_trade]
    refine List.rel_append ?_ (.cons hworth .nil)
    simpa only [List.dropLast_eq_take, h.equity.length_eq] using List.forall₂_take _ h.equity

/-- **Playing prices keeps accounts comparable**, whatever the trader asks on its way. -/
theorem play {μ : Type} {trader : Trader (Routine μ) K} {answers : Nat → Bool} (asked index : Nat)
    {prices : List K} (hprices : ∀ p ∈ prices, 0 < p) :
    Agree Eq (fun p p' => p.account.Compares amount netReturn p'.account ∧ p.stopped = p'.stopped)
      (Routine.runFrom answers asked (a.play fee trader index prices)).outcome
      (Routine.runFrom answers asked (a'.play fee' trader index prices)).outcome := by
  induction prices generalizing a a' asked index with
  | nil => exact .ok ⟨h, rfl⟩
  | cons price prices ih =>
    rw [Account.play, Account.play, Routine.outcome_bind, Routine.outcome_bind]
    refine (Agree.same _).bind fun stop _ hstop => ?_
    subst hstop
    cases stop with
    | true => exact .ok ⟨h, rfl⟩
    | false =>
      simp only [Bool.false_eq_true, ↓reduceIte]
      rw [h.decision_eq, Routine.outcome_bind, Routine.outcome_bind]
      refine (Agree.same _).bind fun acts _ hacts => ?_
      subst hacts
      have hprice := hprices price List.mem_cons_self
      exact ih (h.step hfees index hprice acts) _ _ fun p hp => hprices p (List.mem_cons_of_mem _ hp)

end Account.Compares

/-! ### Runs -/

theorem summary_of_run {μ : Type} {trader : Trader (Routine μ) K} {answers : Nat → Bool}
    {prices : List K} {capital : K} {s : Statement K}
    (h : ((run fee capital trader prices).run answers).outcome = .ok s) :
    s.summary = if s.stopped then .zero else .of s.equity s.trades capital := by
  obtain ⟨played, later, -, h⟩ := Routine.exists_of_outcome_bind h
  obtain rfl : _ = s := Except.ok.inj h
  rfl

variable [IsStrictOrderedRing K]

/-- **The statements of two runs compare as their capitals do.** -/
theorem compares_run {μ : Type} {trader : Trader (Routine μ) K} {answers : Nat → Bool}
    {prices : List K} {capital capital' : K} (hfees : FeesCompare fee fee' amount netReturn)
    (hcapital : amount capital capital') (hprices : ∀ p ∈ prices, 0 < p) :
    Agree Eq (Statement.Compares amount netReturn)
      ((run fee capital trader prices).run answers).outcome
      ((run fee' capital' trader prices).run answers).outcome := by
  have hopened : (Account.opened capital).Compares amount netReturn (.opened capital') :=
    ⟨.cash hcapital, .nil, .nil⟩
  rw [run, run, Routine.run, Routine.run, Routine.outcome_bind, Routine.outcome_bind]
  have hsettled : ∀ p p' : Played K, p.account.Compares amount netReturn p'.account →
      p.stopped = p'.stopped → prices ≠ [] →
      (p.settled fee prices).Compares amount netReturn (p'.settled fee' prices) := by
    intro p p' haccount hstopped hne
    have hlast := List.getLast?_eq_some_getLast hne
    rw [Played.settled, Played.settled, hstopped, hlast, Option.getD_some]
    split
    · exact haccount
    · exact haccount.liquidate hfees _ (hprices _ (List.getLast_mem hne))
  cases prices with
  | nil => exact .ok ⟨.nil, .nil, rfl⟩
  | cons price prices =>
    refine (hopened.play hfees 0 0 hprices).bind fun p p' hplayed => .ok ?_
    obtain ⟨haccount, hstopped⟩ := hplayed
    have hcompares := hsettled p p' haccount hstopped (List.cons_ne_nil _ _)
    exact ⟨hcompares.equity, hcompares.trades, hstopped⟩

/-- Compared with itself, a run at positive prices never uses its equity up. -/
theorem equity_pos_of_run {μ : Type} {trader : Trader (Routine μ) K} {answers : Nat → Bool}
    {prices : List K} {capital : K} {s : Statement K}
    (h : ((run fee capital trader prices).run answers).outcome = .ok s) (hfee : fee < 1)
    (hcapital : 0 < capital) (hprices : ∀ p ∈ prices, 0 < p) : ∀ worth ∈ s.equity, 0 < worth := by
  obtain ⟨s', h', hcompares⟩ := (compares_run (feesCompare_pos hfee) hcapital hprices).exists_ok h
  obtain rfl : s = s' := Except.ok.inj (h.symm.trans h')
  have hself := List.forall₂_same.1 hcompares.equity
  exact hself

/-! ### Summaries -/

/-- The drawdown of a run is a fraction of its equity, and less than all of it. -/
theorem drawdown_of_run {μ : Type} {trader : Trader (Routine μ) K} {answers : Nat → Bool}
    {prices : List K} {capital : K} {s : Statement K}
    (h : ((run fee capital trader prices).run answers).outcome = .ok s) (hfee : fee < 1)
    (hcapital : 0 < capital) (hprices : ∀ p ∈ prices, 0 < p) :
    0 ≤ s.summary.maxDrawdown ∧ s.summary.maxDrawdown < 1 := by
  have hpos := equity_pos_of_run h hfee hcapital hprices
  rw [summary_of_run h]
  split
  · simp [Summary.zero]
  · exact ⟨Indicator.maxDrawdown_nonneg fun worth hworth => (hpos worth hworth).le,
      Indicator.maxDrawdown_lt_one hpos⟩

theorem totalReturn_le {equity equity' : List K} {trades trades' : List (Trade K)} {capital : K}
    (h : List.Forall₂ (fun x y => 0 ≤ y ∧ y ≤ x) equity equity') (hcapital : 0 < capital) :
    (Summary.of equity' trades' capital).totalReturn ≤
      (Summary.of equity trades capital).totalReturn := by
  have hreverse := List.rel_reverse h
  simp only [Summary.of, List.getLast?_eq_head?_reverse]
  generalize equity.reverse = xs at hreverse
  generalize equity'.reverse = ys at hreverse
  cases hreverse with
  | nil => rfl
  | cons hlast => exact sub_le_sub_right (div_le_div_of_nonneg_right hlast.2 hcapital.le) _

theorem winRate_le {equity equity' : List K} {trades trades' : List (Trade K)} {capital : K}
    (h : List.Forall₂ (Trade.Compares fun r r' => r' ≤ r) trades trades') :
    (Summary.of equity' trades' capital).winRate ≤ (Summary.of equity trades capital).winRate := by
  have hended : List.Forall₂ (fun e e' : Trade K × Exit K => e'.2.netReturn ≤ e.2.netReturn)
      (Summary.ended trades) (Summary.ended trades') := by
    refine List.rel_filterMap (fun t t' ht => ?_) h
    have hexit := ht.2
    generalize t.exit = exit at hexit
    generalize t'.exit = exit' at hexit
    cases hexit with
    | none => exact .none
    | some hearned => exact .some hearned
  have hwins : Summary.wins (Summary.ended trades') ≤ Summary.wins (Summary.ended trades) := by
    generalize Summary.ended trades = es at hended
    generalize Summary.ended trades' = es' at hended
    induction hended with
    | nil => rfl
    | cons he _ ih =>
      simp only [Summary.wins, List.countP_cons, decide_eq_true_eq] at ih ⊢
      refine Nat.add_le_add ih ?_
      split
      · next hwon => rw [if_pos (hwon.trans_le he)]
      · exact Nat.zero_le _
  have hempty : (Summary.ended trades').isEmpty = (Summary.ended trades).isEmpty := by
    rw [Bool.eq_iff_iff, List.isEmpty_iff_length_eq_zero, List.isEmpty_iff_length_eq_zero,
      hended.length_eq]
  simp only [Summary.of, hempty, ← hended.length_eq]
  split
  · rfl
  · exact div_le_div_of_nonneg_right (Nat.cast_le.2 hwins) (Nat.cast_nonneg _)

theorem summary_scaled {c : K} (hc : 0 < c) (equity : List K) (trades : List (Trade K))
    (capital : K) :
    Summary.of (equity.map (c * ·)) trades (c * capital) = Summary.of equity trades capital := by
  rw [Summary.of, Summary.of, List.getLast?_map, Indicator.maxDrawdown_scaled hc]
  cases equity.getLast? with
  | none => rfl
  | some last => simp only [Option.map_some, mul_div_mul_left _ _ hc.ne']

end StrategyGraph.Ledger
