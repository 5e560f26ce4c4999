import StrategyGraph.Ledger.Statement
import StrategyGraph.Proofs.Fault
import StrategyGraph.Proofs.Routine

/-!
# Plays

A trader of routines that asks only whether to stop, once before each bar, decides like one who
looks the answers up: `Trader.Attentive.outcome_play` reduces its plays to plays in `Except Fault`,
where the rest of this file lives.

* `Account.play_cons` : one step of a play that goes on to its end, and `Account.outcome_play_cons`
  the same for any trader of routines;
* `Account.advance` plays bars none of which is the last one, `Account.play_append` splits a play
  after some bars and `Account.play_stopped` ends it there; `Account.advance_congr` says which
  decisions matter;
* `Played.take_equity_settled` : the history at the end of a run starts with that of every account
  on its way, and `length_equity_of_run` says how long it is.
-/

namespace StrategyGraph.Ledger

variable {α μ : Type}

namespace Trader

/-- The trader asks whether to stop before each bar and asks nothing else. -/
structure Attentive (trader : Trader (Routine μ) α) : Prop where
  stops : ∀ index, trader.stops index = Routine.stops
  buys : ∀ index price, (trader.buys index price).Quiet
  sells : ∀ index price entry, (trader.sells index price entry).Quiet

/-- The trader with the answers to its questions, and without the traces it leaves. -/
def answered (answers : Nat → Bool) (trader : Trader (Routine μ) α) :
    Trader (Except Fault) α where
  stops index := .ok (answers index)
  buys index price := ((trader.buys index price).run Routine.never).outcome
  sells index price entry := ((trader.sells index price entry).run Routine.never).outcome

end Trader

/-! ### From routines to outcomes -/

namespace Trader.Attentive

variable {trader : Trader (Routine μ) α} (ht : trader.Attentive) {answers : Nat → Bool}

include ht in
theorem quiet_decision (a : Account α) (index : Nat) (price : α) (isLast : Bool) :
    (Account.decision trader a index price isLast).Quiet := by
  unfold Account.decision
  split
  · split
    · exact .pure false
    · exact ht.buys index price
  · exact ht.sells index price _

theorem outcome_decision (a : Account α) (index : Nat) (price : α) (isLast : Bool) :
    ((Account.decision trader a index price isLast).run Routine.never).outcome =
      Account.decision (trader.answered answers) a index price isLast := by
  unfold Account.decision
  cases a.holding with
  | cash amount => cases isLast <;> rfl
  | position amount t => rfl

variable [Sub α] [Mul α] [Div α] [NatCast α] {fee : α}

include ht in
/-- The play of an attentive trader comes to the play of the same trader with answers at hand. -/
theorem outcome_play (a : Account α) (index : Nat) (prices : List α) :
    (Routine.runFrom answers index (a.play fee trader index prices)).outcome =
      a.play fee (trader.answered answers) index prices := by
  induction prices generalizing a index with
  | nil => rfl
  | cons price prices ih =>
    -- One question is asked at each bar, so that questions and bars have the same numbers.
    simp only [Account.play]
    rw [Routine.outcome_bind, ht.stops, Routine.outcome_stops, Routine.questions_stops]
    change _ = (Except.ok (answers index) >>= _)
    cases hstop : answers index with
    | true => rfl
    | false =>
      change (Routine.runFrom answers (index + 1) (Account.decision trader a index price _ >>= _)
        ).outcome = Account.decision (trader.answered answers) a index price _ >>= _
      rw [(ht.quiet_decision a index price _).outcome_bind, outcome_decision]
      congr 1
      funext acts
      exact ih _ _

include ht in
theorem outcome_run [IntCast α] [LT α] [DecidableLT α] (capital : α) (prices : List α) :
    ((Ledger.run fee capital trader prices).run answers).outcome =
      Ledger.run fee capital (trader.answered answers) prices := by
  unfold Ledger.run Routine.run
  rw [Routine.outcome_bind, ht.outcome_play]
  simp only [Routine.outcome_pure]
  rfl

end Trader.Attentive

/-- One step of a play that goes on to its end, whatever the trader asks on its way. -/
theorem Account.outcome_play_cons [Sub α] [Mul α] [Div α] [NatCast α] {fee : α}
    {trader : Trader (Routine μ) α} {answers : Nat → Bool} {asked : Nat} {a : Account α}
    {index : Nat} {price : α} {prices : List α} {played : Played α}
    (h : (Routine.runFrom answers asked (a.play fee trader index (price :: prices))).outcome =
      .ok played)
    (hs : played.stopped = false) :
    ∃ acts before after,
      (Routine.runFrom answers before
        (decision trader a index price prices.isEmpty)).outcome = .ok acts ∧
      (Routine.runFrom answers after
        ((a.step fee index price acts).play fee trader (index + 1) prices)).outcome =
          .ok played := by
  rw [play] at h
  obtain ⟨stop, before, -, h⟩ := Routine.exists_of_outcome_bind h
  cases stop with
  | true =>
    obtain rfl : _ = played := Except.ok.inj h
    cases hs
  | false =>
    obtain ⟨acts, after, hacts, h⟩ := Routine.exists_of_outcome_bind h
    exact ⟨acts, before, after, hacts, h⟩

/-! ### Prices -/

theorem of_drop_eq_cons {prices rest : List α} {index : Nat} {price : α}
    (h : prices.drop index = price :: rest) :
    prices[index]? = some price ∧ prices.drop (index + 1) = rest := by
  rw [← List.head?_drop, ← List.tail_drop, h]
  exact ⟨rfl, rfl⟩

theorem getLast?_getD {prices : List α} {price : Nat → α} (h0 : prices ≠ [])
    (hprice : ∀ i p, prices[i]? = some p → price i = p) (default : α) :
    prices.getLast?.getD default = price (prices.length - 1) := by
  have hlast := List.getLast?_eq_some_getLast h0
  rw [hlast, Option.getD_some]
  exact (hprice _ _ (List.getLast?_eq_getElem? ▸ hlast)).symm

/-! ### Plays of a trader with answers at hand -/

namespace Account

variable [Sub α] [Mul α] [Div α] [NatCast α] {fee : α} {trader other : Trader (Except Fault) α}

/-- One step of a play that goes on to its end. -/
theorem play_cons {a : Account α} {index : Nat} {price : α} {prices : List α} {played : Played α}
    (h : a.play fee trader index (price :: prices) = .ok played) (hs : played.stopped = false) :
    ∃ acts, decision trader a index price prices.isEmpty = .ok acts ∧
      (a.step fee index price acts).play fee trader (index + 1) prices = .ok played := by
  rw [play] at h
  obtain ⟨stop, -, h⟩ := bind_eq_ok.1 h
  cases stop with
  | true =>
    obtain rfl : _ = played := Except.ok.inj h
    cases hs
  | false => exact bind_eq_ok.1 h

variable (fee trader) in
/-- Plays bars none of which is the last one, whether the trader wants to stop or not. -/
def advance (a : Account α) (index : Nat) : List α → Except Fault (Account α)
  | [] => .ok a
  | price :: prices => do
    let acts ← decision trader a index price false
    advance (a.step fee index price acts) (index + 1) prices

/-- A play is a play of the first bars, unless the trader stops there, and one of the rest. -/
theorem play_append {a : Account α} {index : Nat} {first rest : List α} (hrest : rest ≠ [])
    (hs : ∀ i, index ≤ i → i < index + first.length → trader.stops i = .ok false) :
    a.play fee trader index (first ++ rest) =
      a.advance fee trader index first >>= fun b =>
        b.play fee trader (index + first.length) rest := by
  induction first generalizing a index with
  | nil => rfl
  | cons price first ih =>
    have hstop : trader.stops index = .ok false := hs index (Nat.le_refl _) (by simp)
    have hlast : (first ++ rest).isEmpty = false := by
      simp [hrest]
    rw [List.cons_append, play, advance, hstop, hlast]
    change decision trader a index price false >>= _ = _
    cases decision trader a index price false with
    | error fault => rfl
    | ok acts =>
      have hs' : ∀ i, index + 1 ≤ i → i < index + 1 + first.length →
          trader.stops i = .ok false := fun i h₁ h₂ =>
        hs i (by omega) (by rw [List.length_cons]; omega)
      rw [List.length_cons, ← Nat.add_assoc, Nat.add_right_comm]
      exact ih hs'

theorem play_stopped {a : Account α} {index : Nat} {prices : List α} (hp : prices ≠ [])
    (hs : trader.stops index = .ok true) :
    a.play fee trader index prices = .ok ⟨a, true⟩ := by
  cases prices with
  | nil => exact absurd rfl hp
  | cons price prices =>
    rw [play, hs]
    rfl

theorem advance_congr {a : Account α} {index : Nat} {prices : List α}
    (hbuys : ∀ i price, prices[i]? = some price →
      trader.buys (index + i) price = other.buys (index + i) price)
    (hsells : ∀ i price entry, prices[i]? = some price →
      trader.sells (index + i) price entry = other.sells (index + i) price entry) :
    a.advance fee trader index prices = a.advance fee other index prices := by
  induction prices generalizing a index with
  | nil => rfl
  | cons price prices ih =>
    have hdecision : decision trader a index price false = decision other a index price false := by
      unfold decision
      cases a.holding with
      | cash amount => exact hbuys 0 price rfl
      | position amount t => exact hsells 0 price _ rfl
    rw [advance, advance, hdecision]
    congr 1
    funext acts
    refine ih (fun i p hi => ?_) (fun i p q hi => ?_)
    · have := hbuys (i + 1) p (by simpa using hi)
      rwa [show index + (i + 1) = index + 1 + i by omega] at this
    · have := hsells (i + 1) p q (by simpa using hi)
      rwa [show index + (i + 1) = index + 1 + i by omega] at this

/-- **A play comes to its end if and only if every decision on its way is made**: the account that
has played the bars before decides at each bar up to the one at which the trader stops. -/
theorem succeeds_play {a : Account α} {index : Nat} {prices : List α}
    (hs : ∀ i, Succeeds (trader.stops i)) :
    Succeeds (a.play fee trader index prices) ↔
      ∀ first price rest b, prices = first ++ price :: rest →
        (∀ i ≤ first.length, trader.stops (index + i) = .ok false) →
        a.advance fee trader index first = .ok b →
        Succeeds (decision trader b (index + first.length) price rest.isEmpty) := by
  induction prices generalizing a index with
  | nil => exact iff_of_true (succeeds_ok _) fun first price rest b h => by simp at h
  | cons price prices ih =>
    obtain ⟨stop, hstop⟩ := hs index
    rw [play, hstop]
    cases stop with
    | true =>
      refine iff_of_true (succeeds_ok _) fun first price rest b _ hgo => ?_
      cases hstop.symm.trans (hgo 0 (Nat.zero_le _))
    | false =>
      change Succeeds (decision trader a index price prices.isEmpty >>= _) ↔ _
      rw [succeeds_bind]
      constructor
      · rintro ⟨hdecision, hplay⟩ first price' rest b hprices hgo hadvance
        cases first with
        | nil =>
          cases hprices
          cases hadvance
          exact hdecision
        | cons _ first =>
          rw [List.cons_append, List.cons.injEq] at hprices
          obtain ⟨rfl, rfl⟩ := hprices
          obtain ⟨acts, hacts, hadvance⟩ := bind_eq_ok.1 hadvance
          have hlast : (first ++ price' :: rest).isEmpty = false := by simp
          rw [hlast] at hplay
          have hnext := (ih.1 (hplay acts hacts)) first price' rest b rfl (fun i hi => ?_) hadvance
          · rwa [Nat.add_right_comm] at hnext
          · have := hgo (i + 1) (by simpa using hi)
            rwa [← Nat.add_assoc, Nat.add_right_comm] at this
      · intro h
        refine ⟨h [] price prices a rfl (fun i hi => ?_) rfl, fun acts hacts => ih.2 ?_⟩
        · obtain rfl := Nat.le_zero.1 hi
          exact hstop
        · rintro first price' rest b rfl hgo hadvance
          have hlast : (first ++ price' :: rest).isEmpty = false := by simp
          rw [hlast] at hacts
          have hnext := h (price :: first) price' rest b rfl (fun i hi => ?_)
            (bind_eq_ok.2 ⟨acts, hacts, hadvance⟩)
          · rwa [List.length_cons, ← Nat.add_assoc, Nat.add_right_comm] at hnext
          · cases i with
            | zero => exact hstop
            | succ i =>
              have := hgo i (by simpa using hi)
              rwa [Nat.add_right_comm] at this

/-! ### Equity -/

@[simp]
theorem equity_trade (a : Account α) (index : Nat) (price : α) :
    (a.trade fee index price).equity = a.equity := by
  unfold trade
  cases a.holding <;> rfl

theorem equity_step (a : Account α) (index : Nat) (price : α) (acts : Bool) :
    (a.step fee index price acts).equity.toList =
      a.equity.toList ++ [(a.step fee index price acts).worth price] := by
  have htrade : (if acts then a.trade fee index price else a).equity = a.equity := by
    cases acts <;> simp
  rw [step, valued, Array.toList_push, htrade]
  rfl

theorem equity_play {a : Account α} {index : Nat} {prices : List α} {played : Played α}
    (h : a.play fee trader index prices = .ok played) (hs : played.stopped = false) :
    ∃ added, added.length = prices.length ∧
      played.account.equity.toList = a.equity.toList ++ added := by
  induction prices generalizing a index with
  | nil =>
    obtain rfl : _ = played := Except.ok.inj h
    exact ⟨[], rfl, by simp⟩
  | cons price prices ih =>
    obtain ⟨acts, -, h⟩ := play_cons h hs
    obtain ⟨added, hlength, hadded⟩ := ih h
    rw [equity_step, List.append_assoc] at hadded
    exact ⟨_, by simp [hlength], hadded⟩

variable (fee) in
/-- Ending the open trade revises only the last value. -/
theorem equity_liquidate (a : Account α) (index : Nat) (price : α) (h : a.equity.size ≠ 0) :
    ∃ last, (a.liquidate fee index price).equity.toList = a.equity.toList.dropLast ++ [last] := by
  unfold liquidate
  cases hholding : a.holding with
  | cash amount =>
    have hne : a.equity.toList ≠ [] := by simpa using h
    exact ⟨_, (List.dropLast_concat_getLast hne).symm⟩
  | position amount t =>
    refine ⟨(a.trade fee index price).worth price, ?_⟩
    simp only [Array.toList_push, Array.toList_pop, equity_trade]

end Account

namespace Played

variable [Sub α] [Mul α] [Div α] [NatCast α] {fee : α} {trader : Trader (Except Fault) α}

/-- The history of a run that goes on to its end starts with that of every account on its way. -/
theorem take_equity_settled {a : Account α} {index k : Nat} (all : List α) {prices : List α}
    {played : Played α} (h : a.play fee trader index prices = .ok played)
    (hs : played.stopped = false) (hp : prices ≠ []) (hk : k ≤ a.equity.toList.length) :
    (played.settled fee all).equity.toList.take k = a.equity.toList.take k ∧
      (played.settled fee all).equity.toList.length = a.equity.toList.length + prices.length := by
  obtain ⟨added, hlength, hadded⟩ := Account.equity_play h hs
  have hadded0 : added ≠ [] := by
    rintro rfl
    exact hp (List.length_eq_zero_iff.1 hlength.symm)
  have hsize : played.account.equity.size ≠ 0 := by
    simpa [← Array.length_toList, hadded] using fun _ => hadded0
  simp only [settled, hs, Bool.false_eq_true, ↓reduceIte]
  obtain ⟨last, hlast⟩ := Account.equity_liquidate fee played.account
    (all.length - 1) (all.getLast?.getD ((0 : Nat) : α)) hsize
  rw [hlast, hadded, List.dropLast_append_of_ne_nil hadded0]
  have := List.length_pos_iff.2 hadded0
  constructor
  · rw [List.append_assoc, List.take_append_of_le_length hk]
  · simp
    omega

end Played

variable [Sub α] [Mul α] [Div α] [NatCast α] [IntCast α] [LT α] [DecidableLT α]

theorem run_eq_ok {fee capital : α} {trader : Trader (Except Fault) α} {prices : List α}
    {statement : Statement α} :
    run fee capital trader prices = .ok statement ↔
      ∃ played, (Account.opened capital).play fee trader 0 prices = .ok played ∧
        .of fee capital prices played = statement := by
  rw [run, bind_eq_ok]
  constructor
  · rintro ⟨played, hplayed, h⟩
    exact ⟨played, hplayed, Except.ok.inj h⟩
  · rintro ⟨played, hplayed, rfl⟩
    exact ⟨played, hplayed, rfl⟩

theorem length_equity_of_run {fee capital : α} {trader : Trader (Except Fault) α} {prices : List α}
    {statement : Statement α} (h : run fee capital trader prices = .ok statement)
    (hs : statement.stopped = false) : statement.equity.length = prices.length := by
  obtain ⟨played, hplayed, rfl⟩ := run_eq_ok.1 h
  cases prices with
  | nil =>
    obtain rfl : _ = played := Except.ok.inj hplayed
    rfl
  | cons price prices =>
    have hlength : (Statement.of fee capital (price :: prices) played).equity.length = _ :=
      (Played.take_equity_settled (price :: prices) hplayed hs (List.cons_ne_nil _ _)
        (Nat.zero_le _)).2
    rw [hlength]
    simp [Account.opened]

end StrategyGraph.Ledger
